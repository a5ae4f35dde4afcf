/-!
# Lines

A text is cut into lines behind each line end: line feeds, carriage returns (with the line feed that
follows), and the separators that Unicode counts as line ends.
-/

namespace Mender.Text

variable (s : String)

def endsLine (c : Char) : Bool := ['\n', '\r', '\x0b', '\x0c', '\x1c', '\x1d', '\x1e', '\x85', '\u2028', '\u2029'].contains c

def prependChar (c : Char) : List (List Char) → List (List Char)
  | [] => [[c]]
  | l :: ls => (c :: l) :: ls

def linesOf : List Char → List (List Char)
  | [] => []
  | '\r' :: '\n' :: rest => ['\r', '\n'] :: linesOf rest
  | c :: rest => if endsLine c then [c] :: linesOf rest else prependChar c (linesOf rest)

def splitLines : List String := (linesOf s.toList).map String.ofList

def withoutEnd (line : List Char) : List Char :=
  match line.reverse with
  | '\n' :: '\r' :: rest => rest.reverse
  | c :: rest => if endsLine c then rest.reverse else line
  | [] => []

def bareLines : List String := (linesOf s.toList).map fun l => String.ofList (withoutEnd l)

def feedLines : List Char → List (List Char)
  | [] => []
  | '\n' :: rest => ['\n'] :: feedLines rest
  | c :: rest => prependChar c (feedLines rest)

def splitFeeds : List String := (feedLines s.toList).map String.ofList

end Mender.Text
