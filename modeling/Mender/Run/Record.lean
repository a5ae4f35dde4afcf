import Mender.Codemod.Apply
import Mender.Registry

/-!
# What a run has done

A `Record` keeps, for every codemod by its identifier, the changes that it made, the files that it could not
read and the packages that it needs. All of them keep the order in which they came.
-/

namespace Mender.Run

/-- Lists by key, in the order in which the keys were first used. -/
abbrev Shelf (α : Type) := List (String × List α)

namespace Shelf

def get {α : Type} (s : Shelf α) (key : String) : List α := ((s.find? (·.1 == key)).map (·.2)).getD []

def change {α : Type} (s : Shelf α) (key : String) (f : List α → List α) : Shelf α :=
  if s.any (·.1 == key) then s.map fun e => if e.1 == key then (key, f e.2) else e
  else s ++ [(key, f [])]

def all {α : Type} (s : Shelf α) : List α := s.flatMap (·.2)

end Shelf

structure Record where
  results : Shelf ChangeSet := []
  failures : Shelf String := []
  dependencies : Shelf Dependency := []

namespace Record

variable (r : Record) (c : Registered) (id : String)

def addResults (cs : List ChangeSet) : Record := { r with results := r.results.change id (· ++ cs) }

def addFailures (files : List String) : Record := { r with failures := r.failures.change id (· ++ files) }

def addDependencies (ds : List Dependency) : Record :=
  { r with dependencies := r.dependencies.change id fun old => ds.foldl Dependency.insert old }

def addFile (f : FileResult) : Record :=
  ((r.addResults id f.changeSets).addFailures id f.failures).addDependencies id f.dependencies

def changedFiles : List String := r.results.all.map (·.path)

def failedFiles : List String := r.failures.all

/-! ## The log -/

def indent (by_ : String) (s : String) : String :=
  String.join ((Text.splitLines s).map fun l => if (Text.trim l).isEmpty then l else by_ ++ l)

def changeLog (c : ChangeSet) : List Log.Entry :=
  [⟨.info, "  - " ++ c.path⟩, ⟨.debug, "    diff:\n" ++ indent "      " c.diff⟩]

def changesLog : List Log.Entry :=
  let failures := r.failures.get id
  let changes := r.results.get id
  (if failures.isEmpty then [] else Log.items .info "failed" failures) ++
    if changes.isEmpty then [] else ⟨.info, "changed:"⟩ :: changes.flatMap changeLog

/-! ## The report -/

def dependencyNotice : String :=
  "```\n💡 This codemod adds a dependency to your project. Currently we add the dependency to a file named `requirements.txt` if it exists in your project.\n\nThere are a number of other places where Python project dependencies can be expressed, including `setup.py`, `pyproject.toml`, and `setup.cfg`. We are working on adding support for these files, but for now you may need to update these files manually before accepting this change.\n```\n"

def purpose : String :=
  if c.codemod.addsDependency then c.description ++ "\n\n" ++ dependencyNotice else c.description

def entry : Json :=
  .obj [("codemod", .str c.id), ("summary", .str c.codemod.summary), ("description", .str (purpose c)),
    ("references", .arr c.codemod.references), ("properties", .obj []),
    ("failedFiles", Json.strs (r.failures.get c.id)),
    ("changeset", .arr ((r.results.get c.id).map (·.toJson)))]

def compile (cs : List Registered) : List Json := cs.map r.entry

end Record

end Mender.Run
