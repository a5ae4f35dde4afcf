import Mender.Syntax.Check
import Mender.Syntax.Print
import Mender.Syntax.Seats

/-!
# Reading texts

A text is read by cutting it into tokens, deriving it from the grammar and assembling the tree, all nodes
of which have to be in order. In a module, statements stand in blocks and nowhere else. All that is
known about modules that were read is so for modules of Python 3.8, which is what the grammar is of.
A module keeps what its text does by habit: the line end it uses first, the indentation of its first
block, and whether its last line is ended.
-/

namespace Mender.Syntax

namespace Read

def firstLineEnd : List Char → Option String
  | [] => none
  | '\r' :: '\n' :: _ => some "\r\n"
  | '\n' :: _ => some "\n"
  | '\r' :: _ => some "\r"
  | _ :: rest => firstLineEnd rest

/-- Is the last line of a text ended? A line end behind a backslash does not count. -/
def endsLine (cs : List Char) : Bool :=
  match cs.reverse with
  | '\n' :: '\\' :: _ => false
  | '\n' :: '\r' :: '\\' :: _ => false
  | '\n' :: _ => true
  | '\r' :: _ => true
  | _ => false

def firstIndent (ts : List Token) : String := ((ts.find? (·.kind == .indent)).map (·.text)).getD "    "

def text (r : Rule) (usual : String) (cs : List Char) : Option (Node × String) := do
  let ts ← Token.scan? usual cs
  let derivation ← r.derive? ts
  let unit := firstIndent ts
  let part ← Assemble.tree unit derivation
  return (part.node, unit)

end Read

namespace Node

variable (source : String)

/-- Read a module of Python 3.8. The tree is handed out only if it is settled (`isSettled`): nothing here shows that all
trees of the grammar are, so it is made sure of in the one that was read. No text is known for which it fails. -/
def ofModule? : Option Node := do
  let cs := source.toList
  let usual := (Read.firstLineEnd cs).getD "\n"
  let ended := Read.endsLine cs
  let cs := if ended then cs else cs ++ usual.toList
  let (n, unit) ← Read.text .file usual cs
  let n := if cs == usual.toList then n.setList .header [] else n
  let n ← (n.setAll [(.unit, word unit), (.lineEnd, word usual), (.ending, word (if ended then usual else ""))]).whole?
  if n.numbered.isSettled then return n.numbered else none

def ofStatement? : Option Node := do
  let cs := source.toList
  let cs := if Read.endsLine cs then cs else cs ++ ['\n']
  let (n, _) ← Read.text .loneStatement "\n" cs
  n.whole?

def ofExpression? : Option Node := do
  let (n, _) ← Read.text .loneExpression "\n" source.toList
  n.whole?

end Node

end Mender.Syntax
