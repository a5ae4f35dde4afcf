import Mender.Syntax.Node

/-!
# Blanks, comments and line ends

What stands between two tokens of a text is read here. Inside a line that is a blank, which may run
over the line's end behind a backslash. Inside brackets it may also hold line ends and comments.
In front of a statement it is a run of lines that are empty or hold a comment only.

A line of the last sort belongs to a block if it begins with the block's indentation. That is
recorded in the line itself (`Slot.indent`), so that the line moves with its block.
-/

namespace Mender.Syntax.Trivia

open String

variable (usual : String) (indent cs : List Char)

def isBlank (c : Char) : Bool := c == ' ' || c == '\t' || c == '\x0c'

def lineEnd? : List Char → Option (List Char × List Char)
  | '\r' :: '\n' :: rest => some (['\r', '\n'], rest)
  | '\n' :: rest => some (['\n'], rest)
  | '\r' :: rest => some (['\r'], rest)
  | _ => none

/-- The blank at the front of a text, with the line ends that a backslash hides. -/
def blank : List Char → List Char × List Char
  | '\\' :: '\r' :: '\n' :: rest =>
    let (b, r) := blank rest
    ('\\' :: '\r' :: '\n' :: b, r)
  | '\\' :: '\n' :: rest =>
    let (b, r) := blank rest
    ('\\' :: '\n' :: b, r)
  | '\\' :: '\r' :: rest =>
    let (b, r) := blank rest
    ('\\' :: '\r' :: b, r)
  | c :: rest =>
    if isBlank c then
      let (b, r) := blank rest
      (c :: b, r)
    else ([], c :: rest)
  | [] => ([], [])

def comment? : List Char → Option (List Char × List Char)
  | '#' :: rest =>
    some ('#' :: rest.takeWhile (fun c => c != '\n' && c != '\r'), rest.dropWhile (fun c => c != '\n' && c != '\r'))
  | _ => none

structure BareLine where
  blank : List Char
  comment : Option (List Char)
  lineEnd : List Char
  deriving Inhabited

def bareLine? : Option (BareLine × List Char) :=
  let (b, r) := blank cs
  let (c, r) := match comment? r with
    | some (c, r) => (some c, r)
    | none => (none, r)
  (lineEnd? r).map fun (e, r) => (⟨b, c, e⟩, r)

/-- The lines without code at the front of a text; `fuel` bounds their number. -/
def bareLinesTo : Nat → List Char → List BareLine × List Char
  | 0, cs => ([], cs)
  | fuel + 1, cs =>
    match bareLine? cs with
    | some (l, rest) => (bareLinesTo fuel rest).map (l :: ·) id
    | none => ([], cs)

def bareLines : List BareLine × List Char := bareLinesTo cs.length cs

/-- A line end as a node. The module's own line end is not repeated. -/
def newlineNode (e : List Char) : Node :=
  let s := ofList e
  Node.leaf .newline (if s = usual then "" else s)

def commentNode : Option (List Char) → Node
  | some c => Node.leaf .comment (ofList c)
  | none => Node.absent

variable (l : BareLine)

def BareLine.isUnder (indent : List Char) : Bool := indent.isPrefixOf l.blank

def BareLine.node : Node :=
  let under := l.isUnder indent
  .mk .emptyLine "" [if under then Node.indentation else Node.absent,
    Node.blank (ofList (if under then l.blank.drop indent.length else l.blank)),
    commentNode l.comment,
    newlineNode usual l.lineEnd] none

def BareLine.trailing : Node :=
  .mk .trailingWhitespace "" [Node.blank (ofList l.blank), commentNode l.comment, newlineNode usual l.lineEnd] none

/-- The lines at the end of a block: all up to the last one that begins with its indentation. -/
def splitFooter (ls : List BareLine) : List BareLine × List BareLine :=
  let rest := (ls.reverse.takeWhile fun l => ! l.isUnder indent).reverse
  (ls.take (ls.length - rest.length), rest)

def insideBrackets : Node × List Char :=
  match bareLine? cs with
  | some (first, rest) =>
    let (empty, rest) := bareLines rest
    let under := indent.isPrefixOf rest
    let (last, rest) := blank (if under then rest.drop indent.length else rest)
    (.mk .parenthesizedWhitespace "" [first.trailing usual, Node.seq (empty.map (·.node usual indent)),
      if under then Node.indentation else Node.absent,
      Node.blank (ofList last)] none, rest)
  | none =>
    let (b, rest) := blank cs
    (Node.blank (ofList b), rest)

end Mender.Syntax.Trivia
