import Mender.Codemod.Basic

/-!
# Assignments in conditions

An assignment `x = E` right in front of an `if` that tests `x` moves into the condition, as `x := E`. The
condition is `x` itself or a comparison of `x` by identity or equality.
-/

namespace Mender.Codemod

open Syntax Scope

variable (line : Node)

def singleAssign? : Option (Node × Node × Node) :=
  match line.kind, line.list .body with
  | .simpleStatementLine, [assign] =>
    match assign.kind, assign.list .targets with
    | .assign, [target] =>
      if (target.get .target).kind == .name then some (assign, target.get .target, assign.get .value)
      else none
    | _, _ => none
  | _, _ => none

def walrus (target value : Node) (parens : Bool) : Node :=
  Node.make .namedExpr [(.lpar, Node.seq (if parens then [Node.fresh .leftParen] else [])),
    (.target, target), (.value, value),
    (.rpar, Node.seq (if parens then [Node.fresh .rightParen] else []))]

def isPlainComparison (op : Kind) : Bool := [Kind.identical, .notIdentical, .equal, .notEqual].contains op

def walrusFor? (target value test : Node) : Option Node :=
  match test.kind with
  | .comparison =>
    match test.list .comparisons with
    | [c] =>
      let left := test.get .left
      if left.kind == .name && isPlainComparison (c.get .operator).kind && left.text == target.text then
        some (walrus target value true)
      else none
    | _ => none
  | .name => if test.text == target.text then some (walrus target value false) else none
  | _ => none

/-- The mark of the assignment on a line, with the expression that it becomes, if it moves into the next statement. -/
def walrusMove? (next : Node) : Option (Nat × Node) := do
  let (assign, target, value) ← singleAssign? line
  if next.kind != .ifStatement then failure
  let e ← walrusFor? target value (next.get .test)
  return (← assign.mark, e)

/-- All assignments that move. -/
def walrusMoves (module : Node) : List (Nat × Node) :=
  module.nodes.flatMap fun n => (n.children.zip n.children.tail).filterMap fun (a, b) => walrusMove? a b

/-- What is on its way: expressions for the next `if`, and what each open `if` has got. -/
structure WalrusState where
  pending : List (Nat × Node) := []
  opened : List (Option (Nat × Node)) := []

def withWalrus (n e : Node) : Except Fault Node :=
  let test := n.get .test
  if test.kind == .name then (n.set .test e).sound
  else if test.has .left then do
    let test ← (test.set .left e).sound
    (n.set .test test).sound
  else .error .misfit

def lineRemains : List Node :=
  let trailing := line.get .trailing
  line.list .leadingLines ++ if (trailing.get .comment).isPresent then [trailing.set .whitespace (Node.blank "")] else []

namespace Task

def walruses (t : Task) (moves : List (Nat × Node)) : Pass (Notes × WalrusState) where
  enter n := do
    if n.kind == .ifStatement then
      modify fun (notes, s) => (notes, { pending := s.pending.tail, opened := s.pending.head? :: s.opened })
    return true
  leave old new := do
    match old.kind with
    | .ifStatement =>
      let (_, s) ← get
      modify fun (notes, s) => (notes, { s with opened := s.opened.tail })
      match s.opened.head?.join with
      | some (line, e) =>
        within (t.reportLine line)
        return .keep (← withWalrus new e)
      | none => return .keep old
    | .assign =>
      match old.mark.bind fun m => moves.find? (·.1 == m) with
      | some (_, e) =>
        let line ← t.facts.line old
        modify fun (notes, s) => (notes, { s with pending := (line, e) :: s.pending })
        return .drop
      | none => return .keep old
    | .simpleStatementLine =>
      if (new.list .body).isEmpty then return .splice (lineRemains old) else return .keep new
    | _ => return .keep new

def useWalrus (t : Task) : Work.Result := t.withScopes (t.commandWith {} (t.walruses (walrusMoves t.module)))

end Task

end Mender.Codemod
