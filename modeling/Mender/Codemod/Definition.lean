import Mender.Codemod.Rule
import Mender.Registry

/-!
# Defining a codemod

A codemod is defined by what it says about itself. `Definition.complete` checks that nothing is missing; what a
definition says about its changes is what it says about itself.
-/

namespace Mender

inductive Field where
  | missing
  | unset
  | given (value : Json)
  deriving Inhabited

structure Definition where
  label : String
  summary : Field := .missing
  description : Field := .missing
  guidance : Field := .missing
  name : Field := .missing
  references : Field := .missing

structure Defined where
  name : Json
  changeText : Json
  references : List Json

namespace Definition

def usualDescription : Json := .str "No description."

def isGiven : Field → Bool
  | .given _ => true
  | _ => false

def gaps (d : Definition) : List String :=
  (if isGiven d.summary then [] else ["SUMMARY"]) ++
  (match d.description with
    | .unset => ["DESCRIPTION"]
    | _ => []) ++
  (if isGiven d.guidance then [] else ["REVIEW_GUIDANCE"])

def complete (d : Definition) : Except Fault Defined := do
  let gaps := d.gaps
  if ! gaps.isEmpty then
    .error (.unexpected (d.label ++ " is missing the following fields: " ++ Text.quotedList gaps))
  let name ← match d.name with
    | .given j => pure j
    | _ => .error .noSuchPart
  let references ← match d.references with
    | .given (.arr js) => js.mapM Draft.reference
    | .missing => .error .noSuchPart
    | _ => .error .misfit
  let changeText := match d.description with
    | .given j => j
    | _ => usualDescription
  return { name, changeText, references }

end Definition

end Mender
