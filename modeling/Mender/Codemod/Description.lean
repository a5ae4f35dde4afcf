import Mender.Codemod.Basic

/-!
# Codemods and what is said about them

A `Codemod` is the work on one file together with its name and what reports and documentation tell about it.
-/

namespace Mender

/-- How much attention a change asks for before it is merged. -/
inductive Guidance where
  | review | cursoryReview | noReview
  deriving DecidableEq, Repr, Inhabited

def Guidance.label : Guidance → String
  | .review => "Merge After Review"
  | .cursoryReview => "Merge After Cursory Review"
  | .noReview => "Merge Without Review"

/-- The class that a codemod of this name is written in, where nothing else is said. -/
def usualMaker (name : String) : String :=
  let words := name.splitOn "-"
  "core_codemods." ++ "_".intercalate words ++ "." ++ String.join (words.map String.capitalize)

structure Codemod where
  name : String
  summary : String
  description : String := summary
  changeText : String := description
  guidance : Guidance := .noReview
  references : List Json := []
  byFindings : Bool := false
  ruleFiles : Nat := if byFindings then 1 else 0
  addsDependency : Bool := false
  /-- the full name of the class behind it, as registries show it -/
  maker : String := usualMaker name
  /-- done before anything else, findings or not -/
  prepare : Codemod.Task → Except Fault Unit := fun _ => .ok ()
  work : Codemod.Task → Codemod.Work.Result := fun t => .ok (t.module, {})

end Mender
