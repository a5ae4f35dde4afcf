import Mender.Fault
import Mender.Files
import Mender.Json.Value

/-!
# Findings

A scanner reports findings: a finding belongs to a rule and names places in files. Findings are gathered
by rule and by file. A finding stands under every file that one of its places is in.
-/

namespace Mender

/-- A line or column as a report gives it. Reports should hold whole numbers; anything else is kept as
it is. -/
inductive Coord where
  | num (i : Int)
  | other (j : Json)
  deriving Inhabited

namespace Coord

def ofJson : Json → Coord
  | .int i => .num i
  | j => .other j

def toJson : Coord → Json
  | .num i => .int i
  | .other j => j

variable (c : Coord) (i : Int)

def isNumber : Bool :=
  match c with
  | .num k => i == k
  | .other (.bool b) => i == if b then 1 else 0
  | .other (.float f) => Float.ofInt i == f
  | .other _ => false

def isNear : Except Fault Bool :=
  match c with
  | .num k => .ok (i == k - 1 || i == k)
  | .other (.bool b) => .ok (i == (if b then 0 else -1) || i == if b then 1 else 0)
  | .other (.float f) => .ok (Float.ofInt i == f - 1 || Float.ofInt i == f)
  | .other _ => .error .misfit

end Coord

structure Stretch where
  startLine : Int
  startColumn : Int
  endLine : Int
  endColumn : Int
  deriving DecidableEq, Repr, Inhabited

structure Location where
  file : String
  startLine : Coord
  startColumn : Coord
  endLine : Coord
  endColumn : Coord
  snippet : Json := .null
  deriving Inhabited

namespace Location

def ofNumbers (file : String) (p : Stretch) : Location :=
  ⟨file, .num p.startLine, .num p.startColumn, .num p.endLine, .num p.endColumn, .null⟩

/-- Is the stretch the one that the place names? Places count columns from one, but those that count
them from zero are accepted too. -/
def covers (l : Location) (p : Stretch) : Except Fault Bool := do
  if ! l.startLine.isNumber p.startLine then return false
  if ! (← l.startColumn.isNear p.startColumn) then return false
  if ! l.endLine.isNumber p.endLine then return false
  l.endColumn.isNear p.endColumn

end Location

structure Finding where
  rule : String
  locations : List Location
  deriving Inhabited

/-- Findings by rule and by file, each in the order of their first occurrence. -/
structure Findings where
  entries : List (String × List (String × List Finding)) := []
  deriving Inhabited

namespace Findings

def upsert {α : Type} (key : String) (empty : α) (f : α → α) : List (String × α) → List (String × α)
  | [] => [(key, f empty)]
  | e :: es => if e.1 == key then (key, f e.2) :: es else e :: upsert key empty f es

variable (s : Findings) (rule file : String) (r : Finding)

def addUnder : Findings := ⟨upsert r.rule [] (upsert file [] (· ++ [r])) s.entries⟩

def add : Findings := r.locations.foldl (fun s l => s.addUnder l.file r) s

def byFile : List (String × List Finding) := ((s.entries.find? (·.1 == rule)).map (·.2)).getD []

def select : List Finding := (((s.byFile rule).find? (·.1 == file)).map (·.2)).getD []

def files : List String := (s.byFile rule).map (·.1)

def rules : List String := s.entries.map (·.1)

end Findings

end Mender
