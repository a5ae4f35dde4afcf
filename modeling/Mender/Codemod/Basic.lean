import Mender.Change
import Mender.Dependency
import Mender.Finding
import Mender.Import.Remove

/-!
# Mending a file

A codemod looks for one thing that is wrong with a module and mends it. What it may look at is its
`Task`: the module with all that is known about it, the findings of scanners, and the lines that a user
wants to have mended or left alone. What it leaves behind besides a new module are its `Notes`: the changes
to report, the packages the new code needs, and the imports it needs or needs no longer.
-/

namespace Mender.Codemod

open Syntax Scope

/-- What a codemod is given: the facts about a module, findings, and lines to look at or to leave alone. -/
structure Task where
  files : Files := {}
  dir : String := ""
  path : String := ""
  skipLines : List Int := []
  onlyLines : List Int := []
  findings : List Finding := []
  changeText : String := ""
  facts : Facts

/-- What a codemod leaves behind besides a module. -/
structure Notes where
  changes : List Change := []
  dependencies : List Dependency := []
  needed : List Import.Item := []
  superfluous : List Import.Item := []
  newNames : List String := []
  deriving Inhabited

abbrev Work := Step Notes

/-! ## Choosing nodes -/

def isOnLine (s : Span) (line : Int) : Bool := (s.start.line : Int) == line && (s.stop.line : Int) == line

namespace Task

variable (t : Task) (s : Span) (n : Node)

def module : Node := t.facts.module

/-- May a stretch be mended? Lines to leave alone count before lines to mend. -/
def allowsSpan : Bool :=
  if ! t.skipLines.isEmpty then ! t.skipLines.any (isOnLine s)
  else if ! t.onlyLines.isEmpty then t.onlyLines.any (isOnLine s)
  else true

/-- May a node be changed, by its lines? -/
def allows : Except Fault Bool := return t.allowsSpan (← t.facts.span n)

def stretchOf : Stretch := ⟨s.start.line, s.start.column, s.stop.line, s.stop.column⟩

def isCovered (s : Stretch) : List Location → Except Fault Bool
  | [] => return false
  | l :: ls => do if ← l.covers s then return true else isCovered s ls

def isFound : Except Fault Bool := isCovered (stretchOf s) (t.findings.flatMap (·.locations))

/-- Was a node found, and may it be changed? -/
def selects : Except Fault Bool := do
  if t.findings.isEmpty then return false
  let s ← t.facts.span n
  if ← t.isFound s then return t.allowsSpan s else return false

/-! ## Taking notes -/

def reportLine (line : Nat) : Work Unit :=
  modify fun s => { s with changes := s.changes ++ [Change.at line t.changeText] }

/-- Note a change where a node starts. -/
def report : Work Unit := do t.reportLine (← t.facts.line n)

/-- Note that the imports behind the names of a node may have become superfluous. -/
def release : Work Unit := do
  let items ← Import.itemsOf t.facts n
  modify fun s => { s with superfluous := s.superfluous ++ items }

end Task

def require (module : String) (object : Option String := none) : Work Unit :=
  modify fun s => { s with needed := s.needed ++ [⟨module, object, none⟩] }

/-- Note that the new code needs a package. -/
def dependOn (d : Dependency) : Work Unit :=
  modify fun s => if s.dependencies.contains d then s
    else { s with dependencies := s.dependencies ++ [d] }

/-- A step of a codemod that keeps a state of its own beside the notes. -/
def within {τ α : Type} (work : Work α) : Step (Notes × τ) α := fun s => do
  let (a, notes) ← work.run s.1
  return (a, (notes, s.2))

/-! ## Running a codemod -/

/-- Add the imports that are needed, then take out those that are superfluous. -/
def Notes.settleImports (s : Notes) (module : Node) : Except Fault Node := do
  let module ← if s.needed.isEmpty then pure module else Import.addImports s.needed module
  if s.superfluous.isEmpty then return module else Import.removeImports s.superfluous module

abbrev Work.Result := Except Fault (Node × Notes)

namespace Task

variable (t : Task)

/-- Run a pass and settle the imports. -/
def command (pass : Pass Notes) : Work.Result := do
  let (module, notes) ← pass.run t.module {}
  return (← notes.settleImports module, notes)

def commandWith {τ : Type} (start : τ) (pass : Pass (Notes × τ)) : Work.Result := do
  let (module, notes, _) ← pass.run t.module ({}, start)
  return (← notes.settleImports module, notes)

/-- Work that fails if the names of the module are not known. -/
def withScopes {α : Type} (work : Except Fault α) : Except Fault α :=
  match t.facts.fault with
  | some e => .error e
  | none => work

/-- Report and mend the calls and assignments that were found. -/
def atFindings (mend : Node → Node → Work Node) : Pass Notes where
  leave old new := do
    if old.kind == .call || old.kind == .assign then
      if ← t.selects old then
        t.report old
        return .keep (← mend old new)
    return .keep new

end Task

end Mender.Codemod
