import Mender.CommandLine.Words
import Mender.Registry

/-!
# Writing the documentation

`pages` is the command that writes one page for every codemod into a directory.
-/

namespace Mender.Documentation

def unpublished : List String := ["order-imports", "unused-imports"]

/-- How the command can end without any page: with a status, or with a fault. -/
inductive Halt where
  | exit (status : Int)
  | fault (f : Fault)
  deriving Inhabited

def helpFlag : CommandLine.Flag := ⟨["-h", "--help"], false⟩

def directory : List CommandLine.Event → Option String → List String → Except Halt String
  | .set .. :: _, _, _ => .error (.exit 0)
  | .operand s :: es, _, extras => directory es (some s) extras
  | .extra s :: es, d, extras => directory es d (s :: extras)
  | .problem _ :: _, _, _ => .error (.exit 2)
  | .fault f :: _, _, _ => .error (.fault f)
  | [], some d, [] => .ok d
  | [], _, _ => .error (.exit 2)

def pages (r : Registry) (fs : Files) (words : List String) : Except Halt (List (String × String)) := do
  let events ← (CommandLine.read [helpFlag] words).mapError fun _ => .exit 2
  let dir ← directory events none []
  if ! fs.isDir dir then .error (.fault .noFile)
  let chosen := r.codemods.filter fun c => ! unpublished.contains c.codemod.name
  chosen.mapM fun c => return (Path.join dir c.pageName, ← c.page.mapError .fault)

end Mender.Documentation
