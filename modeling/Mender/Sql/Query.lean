import Mender.Scope.Facts
import Mender.Sql.Injection

/-!
# Queries

A query is found where a method called `execute` gets it as its only argument. It is taken apart into leaves:
sums, concatenations and f-strings are opened up, and a variable that is used only here is replaced by what is
assigned to it.
-/

namespace Mender.Sql

open Syntax Scope

variable (f : Facts) (n : Node)

def textOf? : Option (String × List Char) :=
  match n.kind with
  | .simpleString =>
    let p := Literal.parts n.text
    some (p.mark, p.raw.toList)
  | .formattedStringText =>
    match f.parent? n with
    | some p =>
      if p.kind == .formattedString then some (Text.lower (p.get .start).text, n.text.toList) else none
    | none => none
  | _ => none

def leaf : Leaf := ⟨n, textOf? f n⟩

/-- Is the scope one whose names other modules can see, or a class body? -/
def isOpenScope (scope : Nat) : Bool :=
  let level := (f.scopes.frame scope).level
  level == .module || level == .classBody

def boundIn? (b : Binding) : Except Fault (Option Node) :=
  match b.origin with
  | .builtin => .error .noSuchPart
  | .imported m | .defined m => .ok (f.node? m)

/-- The value that a variable stands for, if it has just one and is used just once. -/
def valueOfName? : Except Fault (Option Node) := do
  match ← f.single? n with
  | none => return none
  | some b =>
    if isOpenScope f b.scope || (f.scopes.references b).length != 1 then return none
    let node? ← boundIn? f b
    match (node?.bind f.parent?).bind f.parent? with
    | none => return none
    | some assign =>
      if assign.kind != .assign && assign.kind != .annAssign then return none
      if ! (assign.get .value).isPresent then return none
      let scope ← f.scope assign
      return if scope == b.scope then some (assign.get .value) else none

def isOpened : Bool :=
  match n.kind with
  | .formattedString | .formattedStringExpression | .concatenatedString => true
  | .binaryOperation =>
    match BaseType.infer? n with
    | none | some .string => true
    | _ => false
  | _ => false

def openedParts : List Node :=
  match n.kind with
  | .formattedString => n.list .parts
  | .formattedStringExpression => n.get .expression :: n.list .formatSpec
  | _ => [n.get .left, n.get .right]

/-- The leaves of an expression; `fuel` bounds how deep it is, the values of variables included. -/
def leavesTo (f : Facts) : Nat → Node → Except Fault (List Node)
  | 0, _ => .error .endless
  | fuel + 1, n => do
    if n.kind == .name then
      match ← valueOfName? f n with
      | some value => leavesTo f fuel value
      | none => return [n]
    else if isOpened n then
      return (← (openedParts n).mapM (leavesTo f fuel)).flatten
    else return [n]

/-- The leaves of a query. -/
def leavesOf : Except Fault (List Leaf) := do
  return (← leavesTo f (f.nodes.size + 1) n).map (leaf f)

def keywords : List String := ["insert", "select", "delete", "create", "alter", "drop"]

def hasKeyword (l : Leaf) : Bool :=
  (l.node.kind == .simpleString || l.node.kind == .formattedStringText) &&
    keywords.any fun k => Text.holds k (Text.lower l.node.text)

def calledName? (call : Node) : Option String :=
  let func := call.get .func
  match func.kind with
  | .name => some func.text
  | .member => some (func.get .attr).text
  | _ => none

def query? : Except Fault (Option (Node × List Leaf)) := do
  if n.kind != .call || calledName? n != some "execute" then return none
  match n.list .args with
  | [a] =>
    let leaves ← leavesOf f (a.get .value)
    return if leaves.any hasKeyword then some (n, leaves) else none
  | _ => return none

/-- The calls of a module that hand over a query, with its leaves. -/
def queries : Except Fault (List (Node × List Leaf)) := do
  return (← f.module.nodesAfter.mapM (query? f)).filterMap id

end Mender.Sql
