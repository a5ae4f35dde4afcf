import Mender.Codemod.Basic
import Mender.Infer

/-!
# Django settings and receivers

Settings of Django are module variables of a settings file. A file counts as one by its name and by the
`manage.py` in the directory above its own.
-/

namespace Mender.Codemod

open Syntax

def isDjangoSettings (fs : Files) (path : String) : Bool :=
  let above := Path.parent (Path.parent path)
  Text.holds "settings.py" (Path.name path) && fs.isDir above && (fs.children above).contains "manage.py"

namespace Task

variable (t : Task)

def isSettings : Bool := isDjangoSettings t.files t.path

def withNameValue (n : Node) (name : String) : Except Fault Node :=
  if n.has .value then (n.set .value (Node.ofName name)).sound else .error .misfit

def disableDebug : Work.Result :=
  let pass := t.atFindings fun _ new => withNameValue new "False"
  t.command { pass with enter := fun n => return n.kind != .module || t.isSettings }

def setsSecureCookie (n : Node) : Bool :=
  match n.list .targets with
  | [target] => (target.get .target).kind == .name && (target.get .target).text == "SESSION_COOKIE_SECURE"
  | _ => false

/-- Is the setting for secure session cookies right somewhere, on a line that may be mended? -/
def isCookieSecured : Bool :=
  t.module.nodes.any fun n => n.kind == .assign && setsSecureCookie n && assignsTrue n &&
    match t.allows n with
    | .ok b => b
    | .error _ => false

/-- Settings send session cookies over secure connections only. If nothing else was changed and the
setting is nowhere right, it is added at the end. -/
def secureSessionCookies : Work.Result :=
  t.command {
    enter := fun n => return n.kind != .module || t.isSettings
    leave := fun old new => do
      match old.kind with
      | .call =>
        if ← t.selects old then t.report old
        return .keep new
      | .assign =>
        if setsSecureCookie old && ! assignsTrue old then
          if ← t.allows old then
            t.report old
            return .keep (← withNameValue new "True")
        return .keep new
      | .module =>
        if ! t.isSettings || t.isCookieSecured || ! (← get).changes.isEmpty then return .keep new
        t.reportLine (← t.facts.span old).stop.line
        let last ← Edit.statement "SESSION_COOKIE_SECURE = True"
        return .keep (← (new.setList .body (new.list .body ++ [last])).sound)
      | _ => return .keep new }

/-! ## Receivers -/

def lastIndex? {α : Type} (test : α → Bool) (xs : List α) : Option Nat :=
  (xs.zipIdx.filter fun (x, _) => test x).getLast?.map (·.2)

def moveToFront {α : Type} (i : Nat) (xs : List α) : List α :=
  match xs[i]? with
  | some x => x :: xs.eraseIdx i
  | none => xs

def receiversFirst : Pass Notes where
  leave old new := do
    if old.kind != .functionDef then return .keep new
    let decorators := old.list .decorators
    let names ← (decorators.mapM fun d => t.facts.baseName? (d.get .decorator) : Except Fault (List (Option String)))
    match lastIndex? (fun (n : Option String) => n == some "django.dispatch.receiver") names with
    | some (i + 1) =>
      t.report old
      return .keep (← (new.setList .decorators (moveToFront (i + 1) decorators)).sound)
    | _ => return .keep new

def putReceiversFirst : Work.Result := t.withScopes (t.command t.receiversFirst)

end Task

end Mender.Codemod
