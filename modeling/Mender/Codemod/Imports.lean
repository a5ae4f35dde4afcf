import Mender.Codemod.Basic
import Mender.Import.Order
import Mender.Import.Pragma

/-!
# Order among imports

One codemod brings blocks of imports in order, the other takes out imports that nothing uses. Imports that a
comment tells linters to leave alone stay.
-/

namespace Mender.Codemod

open Syntax

namespace Task

variable (line : Node) (t : Task)

def allowedBlocks : Except Fault (List (List Node)) :=
  (Import.blocks t.module).filterM fun b => t.allows (b.headD Node.absent)

def orderImports : Work.Result := do
  let blocks ← t.allowedBlocks
  if blocks.isEmpty then return (t.module, {})
  let place := Import.Section.ofModule t.files t.dir
  let (module, changed) ← Import.orderBlocks place blocks t.module
  let moved := ((Import.blocks t.module).zip changed).filter (·.2)
  let lines ← moved.mapM fun (b, _) => t.facts.line (b.headD Node.absent)
  return (module, { changes := lines.map fun l => Change.at l t.changeText })

/-- The comments that concern an import on a line: those in the line's first statement and at its end. -/
def lineComments : List String :=
  let trailing := (line.get .trailing).get .comment
  let inside := ((line.list .body).headD Node.absent).nodes.filter (·.kind == .comment)
  inside.map (·.text) ++ if trailing.isPresent then [trailing.text] else []

def commentAbove? : Option String :=
  match (line.list .leadingLines).getLast? with
  | some l => if (l.get .comment).isPresent then some (l.get .comment).text else none
  | none => none

def isSilenced : Bool :=
  (lineComments line).any (fun c => Import.Pragma.isNoqa c || Import.Pragma.silences "disable" c) ||
    match commentAbove? line with
    | some c => Import.Pragma.isNoqa c || Import.Pragma.silences "disable-next" c
    | none => false

/-- Do comments tell linters to leave an import statement alone? -/
def isKept (statement : Node) : Bool :=
  match t.facts.parent? statement with
  | some line => line.kind == .simpleStatementLine && isSilenced line
  | none => false

/-- Imports that nothing uses go, except in files that gather the names of a package. -/
def dropUnusedImports : Work.Result :=
  t.withScopes do
    if Path.name t.path == "__init__.py" then return (t.module, {})
    let unused ← Import.unused t.facts
    let gone ← unused.filterM fun (a, statement) => do
      if ← t.allows a then return ! t.isKept statement else return false
    let lines ← gone.mapM fun (a, _) => t.facts.line a
    return (← Import.dropAliases (gone.map (·.1)) t.module, { changes := lines.map fun l => Change.at l t.changeText })

end Task

end Mender.Codemod
