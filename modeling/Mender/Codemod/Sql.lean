import Mender.Codemod.Basic
import Mender.Edit.Concat
import Mender.Edit.Replace
import Mender.Sql.Query

/-!
# Queries with parameters

Expressions inside SQL literals become parameters: the literal, quotes and all, is replaced by a question
mark, and its content is handed to the call as a value.
-/

namespace Mender.Codemod

open Syntax Scope Edit Sql Node

/-- What leaves have become so far. A leaf with no entry is as it was. -/
abbrev Rework := List (Nat × Replacement)

variable (f : Facts) (n : Node) (w : Rework) (l : Leaf)

/-- The text of a leaf as it is now. What an f-string's text has become stands in no f-string yet, so
nothing is known about it. -/
def currentText : Node × Option (String × List Char) :=
  match replacementOf? w l.node with
  | some (.whole (.keep n)) => (n, textOf? f n)
  | _ => (l.node, l.text)

def literal (mark quote : String) (raw : List Char) : Node :=
  make .simpleString [] (mark ++ quote ++ String.ofList raw ++ quote)

/-- A text with other content, and what is left over as a literal of its own. -/
def cutText (mark : String) (kept extra : List Char) : Option Node × Option Node :=
  match n.kind with
  | .simpleString =>
    let p := Literal.parts n.text
    (some (n.withText (p.mark ++ p.quote ++ String.ofList kept ++ p.quote)),
      if extra.isEmpty then none else some (literal p.mark p.quote extra))
  | .formattedStringText =>
    (some (n.withText (String.ofList kept)), if extra.isEmpty then none
      else some (literal (if Leaf.isRaw mark then "r" else "") "'" extra))
  | _ => (none, none)

def Rework.put (new : Option Node) : Rework :=
  match l.node.mark, new with
  | some m, some n => w ++ [(m, .whole (.keep n))]
  | _, _ => w

/-- Take a leaf inside a literal out: texts of f-strings go, expressions become empty texts. -/
def Rework.takeOut : Rework :=
  match l.node.mark with
  | some m =>
    let isText := l.node.kind == .formattedStringText || l.node.kind == .formattedStringExpression
    w ++ [(m, .whole (if isText then .drop else .keep emptyText))]
  | none => w

/-- A way to cut a text, raw or not: what is kept, and what is left over. -/
abbrev Cut := Bool → List Char → Option (List Char × List Char)

def atLastQuote : Cut := fun raw text => (splitLast? raw text).map fun (before, behind) => (before ++ ['?'], behind)

def atFirstQuote : Cut := fun raw text => (splitFirst? raw text).map fun (before, behind) => (behind, before)

/-- Cut a leaf at a quote; what is left over is returned too. -/
def cutLeaf (cut : Cut) (w : Rework) (l : Leaf) : Except Fault (Rework × Option Node) :=
  let (n, text) := currentText f w l
  let (mark, raw) := text.getD ("", [])
  match cut (Leaf.isRaw mark) raw with
  | none => .error .outOfRange
  | some (kept, extra) =>
    let (new, extra) := cutText n mark kept extra
    .ok (w.put l new, extra)

/-- Cut an SQL literal out of its leaves. What stood between the quotes in the first and the last leaf is
returned too. -/
def fixInjection (i : Injection) : Except Fault (Rework × Option Node × Option Node) := do
  let w := i.middle.foldl Rework.takeOut w
  let (w, first) ← cutLeaf f atLastQuote w i.start
  let (w, last) ← cutLeaf f atFirstQuote w i.stop
  return (w, first, last)

def formatText? : Option (List Char) :=
  match textOf? f n with
  | some (mark, raw) =>
    if mark.toList.any fun c => c == 'b' || c == 'r' || c == 'u' then none else some raw
  | none => none

/-- The format for pieces of content, and the arguments that go into it; `count` is the number of arguments
so far. -/
def formatOf (f : Facts) (count : Nat) : List Node → List Char × List Node
  | [] => ([], [])
  | n :: rest =>
    match formatText? f n with
    | some raw =>
      let (format, args) := formatOf f count rest
      (raw ++ format, args)
    | none =>
      let (format, args) := formatOf f (count + 1) rest
      ('\x7b' :: (toString count).toList ++ '\x7d' :: format, arg n :: args)

/-- The expression for the content of a literal. -/
def parameter (pieces : List Node) : Node :=
  match pieces with
  | [n] => n
  | pieces =>
    let (format, args) := formatOf f 0 pieces
    make .call [(.func, make .member [(.value, literal "" "'" format), (.attr, ofName "format")]),
      (.args, seq args)]

/-- Cut all SQL literals of a query out; the pieces of the content of each are returned too. -/
def fixInjections (f : Facts) (w : Rework) : List Injection → Except Fault (Rework × List (List Node))
  | [] => return (w, [])
  | i :: rest => do
    let (w, first, last) ← fixInjection f w i
    let pieces := first.toList ++ i.middle.map (·.node) ++ last.toList
    let (w, more) ← fixInjections f w rest
    return (w, pieces :: more)

def parameterArg (parameters : List Node) : Node :=
  let comma := make .comma [(.after, blank " ")]
  arg (make .tuple [(.elements, seq (parameters.map fun p => make .element [(.value, p), (.comma, comma)]))])

namespace Task

/-- Mend one query after the other. The first one on a line that is to be left alone ends the work. Nodes
that an earlier fix has rebuilt are not found again. -/
def fixQueries (t : Task) : List (Node × List Leaf) → Node → Work Node
  | [], module => return module
  | (call, query) :: rest, module => do
    if ! (← t.allows call) then return module
    let (work, contents) ← fixInjections t.facts [] (injections query)
    if contents.isEmpty then t.fixQueries rest module
    else
      let mark := call.mark.getD 0
      let parameters := contents.map (parameter t.facts)
      let work := work ++ [(mark, .changed [.append .args [parameterArg parameters]])]
      let module ← replaceAll work module
      t.report call
      let module ← joinTextParts (← dropEmptyTexts module)
      t.fixQueries rest module

/-- The codemod. -/
def parameterizeQueries (t : Task) : Work.Result :=
  t.withScopes do
    (t.fixQueries (← queries t.facts) t.module).run {}

end Task

end Mender.Codemod
