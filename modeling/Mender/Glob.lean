/-!
# File name patterns

In a pattern `*` stands for any text, slashes included, `?` for any character, and a list in square
brackets for one of its characters, or for any other if it begins with an exclamation mark. All else
stands for itself.

A list may hold ranges such as `a-z`. A hyphen at the front or at the end stands for itself. A range that
runs backwards is empty.
-/

namespace Mender.Glob

inductive Piece where
  | star
  | any
  | lit (c : Char)
  | oneOf (negated : Bool) (ranges : List (Char × Char))
  deriving DecidableEq, Repr

/-- Cut the inside of a list at the hyphens that make ranges. `seen` counts the characters since the last
cut that cannot be such a hyphen, and `chunk` holds them, the last one first. -/
def chunks : Nat → List Char → List Char → List (List Char)
  | _, chunk, [] => [chunk.reverse]
  | 0, chunk, c :: rest =>
    if c == '-' then chunk.reverse :: chunks 2 [] rest else chunks 0 (c :: chunk) rest
  | n + 1, chunk, c :: rest => chunks n (c :: chunk) rest

def closeChunks : List (List Char) → List (List Char)
  | [c, []] => [c ++ ['-']]
  | c :: cs => c :: closeChunks cs
  | [] => []

def dropEmptyRanges : List (List Char) → List (List Char)
  | [] => []
  | c :: cs =>
    match dropEmptyRanges cs with
    | d :: ds =>
      match c.getLast?, d with
      | some lo, hi :: rest => if hi < lo then (c.dropLast ++ rest) :: ds else c :: d :: ds
      | _, _ => c :: d :: ds
    | [] => [c]

def rangesOf : Option Char → List (List Char) → List (Char × Char)
  | _, [] => []
  | start, c :: cs =>
    let (first, rest) := match start, c with
      | some lo, hi :: rest => ([(lo, hi)], rest)
      | _, _ => ([], c)
    if cs.isEmpty then first ++ rest.map fun x => (x, x)
    else first ++ rest.dropLast.map (fun x => (x, x)) ++ rangesOf rest.getLast? cs

def listPiece (inside : List Char) : Piece :=
  let cs := dropEmptyRanges (closeChunks (chunks (if inside.head? == some '!' then 2 else 1) [] inside))
  match cs with
  | ('!' :: c) :: rest => if c.isEmpty && rest.isEmpty then .any else .oneOf true (rangesOf none (c :: rest))
  | cs => .oneOf false (rangesOf none cs)

/-- The inside of a list at the front of a text and what follows it. A closing bracket right at the
front belongs to the inside. -/
def splitList? (cs : List Char) : Option (List Char × List Char) :=
  let (bang, cs) := match cs with
    | '!' :: rest => (['!'], rest)
    | _ => ([], cs)
  let (first, cs) := match cs with
    | ']' :: rest => ([']'], rest)
    | _ => ([], cs)
  let inside := cs.takeWhile (· != ']')
  match cs.drop inside.length with
  | ']' :: rest => some (bang ++ first ++ inside, rest)
  | _ => none

def piecesTo : Nat → List Char → List Piece
  | 0, _ => []
  | _, [] => []
  | fuel + 1, '*' :: rest => .star :: piecesTo fuel (rest.dropWhile (· == '*'))
  | fuel + 1, '?' :: rest => .any :: piecesTo fuel rest
  | fuel + 1, '[' :: rest =>
    match splitList? rest with
    | some (inside, rest) => listPiece inside :: piecesTo fuel rest
    | none => .lit '[' :: piecesTo fuel rest
  | fuel + 1, c :: rest => .lit c :: piecesTo fuel rest

def pieces (pattern : String) : List Piece := piecesTo (pattern.length + 1) pattern.toList

def Piece.accepts (c : Char) : Piece → Bool
  | .star => false
  | .any => true
  | .lit d => c == d
  | .oneOf negated ranges => (ranges.any fun (lo, hi) => lo ≤ c && c ≤ hi) != negated

def fits : List Piece → List Char → Bool
  | [], [] => true
  | [], _ :: _ => false
  | .star :: ps, cs =>
    fits ps cs || match cs with
      | [] => false
      | _ :: rest => fits (.star :: ps) rest
  | _ :: _, [] => false
  | p :: ps, c :: cs => p.accepts c && fits ps cs
termination_by ps cs => ps.length + cs.length

def isMatch (name pattern : String) : Bool := fits (pieces pattern) name.toList

end Mender.Glob
