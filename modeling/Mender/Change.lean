import Mender.Fault
import Mender.Json.Value
import Mender.Text.Quote

/-!
# Recorded changes

A `Change` says at which line of a file something was changed, and why. The changes of one file, with the
difference they make, form a `ChangeSet`. A change of a list of dependencies also names the packages.
-/

namespace Mender

structure PackageAction where
  action : String
  result : String
  package : String
  deriving DecidableEq, Repr, Inhabited

def PackageAction.actions : List String := ["add", "remove"]

def PackageAction.results : List String := ["completed", "failed", "skipped"]

def PackageAction.ofWords (action result package : String) : Except Fault PackageAction :=
  if ! PackageAction.actions.contains action then
    .error (.badValue (Text.quoted action ++ " is not a valid Action"))
  else if ! PackageAction.results.contains result then
    .error (.badValue (Text.quoted result ++ " is not a valid Result"))
  else .ok ⟨action.toUpper, result.toUpper, package⟩

def PackageAction.added (package : String) : PackageAction := ⟨"ADD", "COMPLETED", package⟩

/-- The line of a change: its number, or how someone else has put it. -/
inductive LineRef where
  | number (i : Int)
  | label (s : String)
  deriving DecidableEq, Repr, Inhabited

def LineRef.text : LineRef → String
  | .number i => toString i
  | .label s => s

structure Change where
  line : LineRef
  description : String
  properties : Json := .obj []
  actions : List PackageAction := []
  deriving Inhabited

def Change.at (line : Nat) (description : String) : Change := { line := .number line, description }

structure ChangeSet where
  path : String
  diff : String
  changes : List Change
  deriving Inhabited

namespace PackageAction

def toJson (a : PackageAction) : Json :=
  .obj [("action", .str a.action), ("result", .str a.result), ("package", .str a.package)]

end PackageAction

def Change.toJson (c : Change) : Json :=
  .obj [("lineNumber", .str c.line.text), ("description", .str c.description),
    ("properties", c.properties), ("packageActions", .arr (c.actions.map (·.toJson)))]

def ChangeSet.toJson (c : ChangeSet) : Json :=
  .obj [("path", .str c.path), ("diff", .str c.diff), ("changes", .arr (c.changes.map (·.toJson)))]

end Mender
