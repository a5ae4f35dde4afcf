import Mender.Text.Lines

/-!
# Looking for texts in texts
-/

namespace Mender.Text

variable (lines : List String)

def begins (front s : String) : Bool := front.toList.isPrefixOf s.toList

def holdsIn (part : List Char) : List Char → Bool
  | [] => part.isEmpty
  | c :: rest => part.isPrefixOf (c :: rest) || holdsIn part rest

def holds (part s : String) : Bool := holdsIn part.toList s.toList

def piecesOf (c : Char) : List Char → List (List Char)
  | [] => [[]]
  | d :: rest => if d == c then [] :: piecesOf c rest else prependChar d (piecesOf c rest)

/-- The pieces of a text between the characters `c`. There is always one piece more than such characters. -/
def pieces (c : Char) (s : String) : List String := (piecesOf c s.toList).map String.ofList

def wordsOf : List (List Char) := lines.flatMap fun l => piecesOf ' ' l.toList

def words : List String := (wordsOf lines).map String.ofList

end Mender.Text
