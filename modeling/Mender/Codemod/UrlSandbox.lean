import Mender.Codemod.Basic
import Mender.Edit.Replace

/-!
# Guarded requests

Requests for addresses that come from outside are made by functions that look at the address first. A call
`m.get(…)` becomes a call of the guarded function; for a call `get(…)` the import that brings `get` is
changed. Requests for a fixed address stay.
-/

namespace Mender.Codemod

open Syntax Scope Edit

def guardedRequests : String := "safe_requests"

structure RequestFix where
  line : Nat
  old : Node
  new : Node

namespace Task

variable (t : Task)

def importOfCall? (call : Node) : Except Fault (Option Node) := do
  match ← t.facts.single? call with
  | none => return none
  | some b =>
    match b.origin with
    | .builtin => .error .noSuchPart
    | _ => return (t.facts.importOf? b).filter (·.kind == .importFrom)

def guardedImport (statement : Node) : Except Fault Node :=
  (Node.make .importFrom [(.module, Node.ofDotted ("security." ++ guardedRequests)), (.names, statement.get .names)]).sound

def requestFix? (n : Node) : Except Fault (Option RequestFix) := do
  if n.kind != .call then return none
  let span ← t.facts.span n
  if ! (← t.isFound span) then return none
  if ! t.allowsSpan span then return none
  match n.list .args with
  | [] => .error .outOfRange
  | first :: _ =>
    if (first.get .value).kind == .simpleString then return none
    if (n.get .func).kind == .name then
      match ← t.importOfCall? n with
      | some statement => return some ⟨span.start.line, statement, ← guardedImport statement⟩
      | none => return none
    else
      let call ← (Node.make .call [(.func, Node.ofDotted (guardedRequests ++ ".get")),
        (.args, Node.seq (n.list .args))]).sound
      return some ⟨span.start.line, n, call⟩

/-- What is to be done about the calls of a module, in the order in which they end. -/
def requestFixes : Except Fault (List RequestFix) := do
  return (← t.module.nodesAfter.mapM t.requestFix?).filterMap id

def guardRequests : Work.Result :=
  t.withScopes do
    let fixes ← t.requestFixes
    if fixes.isEmpty then return (t.module, {})
    let notes : Notes := { changes := fixes.map fun f => Change.at f.line t.changeText }
    let ((), notes) ← (dependOn .security).run notes
    let module ← replaceAll (fixes.filterMap fun f => f.old.mark.map (·, .whole (.keep f.new))) t.module
    if fixes.any (·.old.kind == .call) then
      let module ← Import.addImports [⟨"security", some guardedRequests, none⟩] module
      return (← Import.dropUnused module.numbered, notes)
    return (module, notes)

end Task

end Mender.Codemod
