import Mender.Codemod.Argument

/-!
# Safer functions

Some functions have a safer one beside them that can be called in their place, with the same arguments. The
codemods here retarget the calls that a scanner has found.
-/

namespace Mender.Codemod

open Syntax Edit

namespace Task

variable (t : Task)

def guardProcesses : Work.Result :=
  t.command (t.atFindings fun old new => do
    require "security" (some "safe_command")
    dependOn .security
    if ! old.has .func then throw .noSuchPart
    retarget new "safe_command" (some "run") (some (arg (old.get .func) :: old.list .args)))

/-- Random numbers come from a source that cannot be foreseen. -/
def useSecureRandom : Work.Result :=
  t.command (t.atFindings fun old new => do
    t.release old
    require "secrets"
    retarget new "secrets.SystemRandom()")

/-- Temporary files are made together with their names. -/
def makeTempfiles : Work.Result :=
  t.withScopes (t.command (t.atFindings fun old new => do
    let name ← t.moduleFor old "tempfile"
    t.release old
    retarget new name (some "mkstemp")))

/-- Contexts for secure connections ask for a safe version of the protocol. -/
def raiseMinimumVersion : Work.Result :=
  t.withScopes (t.command (t.atFindings fun old new => do
    if ! old.has .value then throw .noSuchPart
    let name ← t.moduleFor (old.get .value) "ssl"
    t.release old
    setValue new (name ++ ".TLSVersion.TLSv1_2")))

end Task

end Mender.Codemod
