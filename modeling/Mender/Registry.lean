import Mender.Codemod.Description
import Mender.Documentation.Remarks

/-!
# The registry of codemods

Codemods come in collections, each with the name of its origin. The registry finds them by name or by `id`,
which is made of the origin and the name. A codemod that comes later under the same name takes the place of
the earlier one, but both keep their ids.
-/

namespace Mender

/-! ## Drafts -/

/-- What is said about a codemod, before anyone has checked that it is complete. What may be left open is
`none` in that case. -/
structure Draft where
  label : String
  summary : Option String
  isDescribed : Bool := true
  description : Option String := none
  name : String := ""
  guidance : Option Guidance := none
  references : List Json := []
  byFindings : Bool := false
  ruleFiles : Nat := 0
  maker : String := ""

namespace Draft

def reference : Json → Except Fault Json
  | .obj ms =>
    match Json.get? (.obj ms) "url" with
    | some url => .ok (.obj (Json.insert ms "description" url))
    | none => .error (.unknownKey "url")
  | _ => .error .misfit

variable (d : Draft)

def missing (what : String) : Fault := .badValue ("Missing required attribute " ++ what ++ d.label)

def emptyField (field : String) : Fault :=
  .unsupported ("METADATA." ++ field ++ " should not be None or empty for " ++ d.label)

def check : Except Fault Codemod := do
  let summary := d.summary.getD ""
  if summary.isEmpty then .error (d.missing "\"SUMMARY\" on codemod ")
  if ! d.isDescribed then .error (d.missing "\"METADATA\" on codemod ")
  match d.description with
  | none => .error (.unsupported ("METADATA.DESCRIPTION not defined for " ++ d.label))
  | some description =>
    if description.isEmpty then .error (d.emptyField "DESCRIPTION")
    if d.name.isEmpty then .error (d.emptyField "NAME")
    match d.guidance with
    | none => .error (d.emptyField "REVIEW_GUIDANCE")
    | some guidance =>
      if d.byFindings && d.ruleFiles == 0 then .error (d.missing "YAML_FILES on semgrep codemod ")
      return { name := d.name, summary, description, guidance, references := d.references
               byFindings := d.byFindings, ruleFiles := d.ruleFiles, maker := d.maker }

end Draft

/-! ## Registered codemods -/

structure Registered where
  origin : String
  codemod : Codemod

namespace Registered

variable (r : Registered)

def id : String := r.origin ++ ":python/" ++ r.codemod.name

def description : String := (Documentation.article? r.origin r.codemod.name).getD r.codemod.description

def label : String := "<CodemodExecutorWrapper for " ++ r.codemod.maker ++ ">"

def describe : List (String × Json) :=
  [("codemod", .str r.id), ("summary", .str r.codemod.summary),
    ("description", .str r.description), ("references", .arr r.codemod.references)]

def referencePart (ref : Json) (key : String) : Except Fault String :=
  match ref.get? key with
  | some (.str s) => .ok s
  | some j => .ok j.render
  | none => .error (.unknownKey key)

def referenceItem (ref : Json) : Except Fault String := do
  return "* [" ++ (← referencePart ref "description") ++ "](" ++ (← referencePart ref "url") ++ ")"

def page : Except Fault String := do
  match Documentation.remarks.find? (·.1 == r.codemod.name) with
  | none => .error (.unknownKey ("Must add " ++ r.codemod.name ++ " to METADATA"))
  | some (_, remark) =>
    let items ← r.codemod.references.mapM referenceItem
    let references := if items.isEmpty then "N/A" else "\n".intercalate items
    let guidance := r.codemod.guidance.label
    return String.join [
      "---\ntitle: ", r.codemod.summary, "\nsidebar_position: 1\n---\n\n## ", r.id,
      "\n\n| Importance | Review Guidance            | Requires Scanning Tool |\n",
      "|------------|----------------------------|---------------------|\n| ",
      remark.importance, "       | ", guidance, " | ", remark.needsScanner,
      "                  |\n\n", r.description,
      "\nIf you have feedback on this codemod, [please let us know](mailto:feedback@pixee.ai)!\n\n",
      "## F.A.Q.\n\n### Why is this codemod marked as ", guidance, "?\n\n", remark.reason,
      "\n\n## Codemod Settings\n\nN/A\n\n## References\n\n", references, "\n"]

def pageName : String := String.ofList (r.id.toList.map fun c => if c == ':' || c == '/' then '_' else c) ++ ".md"

end Registered

/-! ## The registry -/

/-- Put a value under a key: where the key stands already, or else at the end. -/
def putByKey {α : Type} (key : String) (a : α) (entries : List (String × α)) : List (String × α) :=
  if entries.any (·.1 == key) then entries.map fun e => if e.1 == key then (key, a) else e
  else entries ++ [(key, a)]

structure Registry where
  byName : List (String × Registered) := []
  byId : List (String × Registered) := []

namespace Registry

variable (r : Registry)

def codemods : List Registered := r.byName.map (·.2)

def names : List String := r.byName.map (·.1)

def ids : List String := r.byId.map (·.1)

def add (c : Registered) : Registry := ⟨putByKey c.codemod.name c r.byName, putByKey c.id c r.byId⟩

/-- Add drafts up to the first that is not complete, and say what is wrong with that. -/
def addDrafts (r : Registry) (origin : String) : List Draft → Registry × Option Fault
  | [] => (r, none)
  | d :: ds =>
    match d.check with
    | .ok c => addDrafts (r.add ⟨origin, c⟩) origin ds
    | .error f => (r, some f)

def addAll (origin : String) (cs : List Codemod) : Registry := cs.foldl (fun r c => r.add ⟨origin, c⟩) r

def find (key : String) : Except Fault Registered :=
  match (r.byName ++ r.byId).find? (·.1 == key) with
  | some (_, c) => .ok c
  | none => .error (.unknownKey key)

/-- Codemods that run only for those who ask for them. -/
def unasked : List String := ["pixee:python/order-imports", "pixee:python/unused-imports"]

/-- The codemods to run. Who names some gets these, in that order; otherwise all run but those to leave
out. -/
def select (wanted unwanted : List String) : Except Fault (List Registered) :=
  if wanted.isEmpty then
    let unwanted := if unwanted.isEmpty then unasked else unwanted
    .ok (r.codemods.filter fun c => ! unwanted.contains c.codemod.name && ! unwanted.contains c.id)
  else wanted.mapM r.find

end Registry

end Mender
