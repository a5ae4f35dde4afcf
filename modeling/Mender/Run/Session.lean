import Mender.Run.Record
import Mender.Sarif

/-!
# The state of a run

A run reads and writes files, asks a scanner for findings, keeps a record and writes a log. A `Session` holds
all of it, and an `Act` is a step that changes it. A step that fails keeps what it has done before.
-/

namespace Mender.Run

/-- A program that looks for findings. It answers the questions it is asked one after the other; the last
answer is repeated. -/
structure Scanner where
  answers : List String := []
  succeeds : Bool := true
  deriving Inhabited

def Scanner.answer (s : Scanner) (n : Nat) : String := (s.answers[n]?).getD (s.answers.getLast?.getD "")

/-- A question to the scanner: how many files of rules, and where to look. -/
structure Scan where
  rules : Nat
  targets : List String
  deriving DecidableEq, Repr, Inhabited

/-- What stays the same during a run. -/
structure Setting where
  dir : String
  isTrial : Bool := false
  isVerbose : Bool := false
  scanner : Scanner := {}

structure Session where
  files : Files
  /-- the files that list requirements, once they were read -/
  stores : Option (List Project.Store) := none
  record : Record := {}
  scans : List Scan := []
  log : List Log.Entry := []

abbrev Act := ExceptT Fault (StateM Session)

def Act.on {α : Type} (a : Act α) (s : Session) : Except Fault α × Session := (ExceptT.run a).run s

def tell (es : List Log.Entry) : Act Unit := modify fun s => { s with log := s.log ++ es }

def say (level : Log.Level) (text : String) : Act Unit := tell [⟨level, text⟩]

/-! ## Scanning -/

variable (setting : Setting)

/-- The places to look at. Without any, the whole project is meant. -/
def placesToScan (targets : List String) : List String :=
  if targets.isEmpty then [Path.plain setting.dir] else targets

def scanFailure : List Log.Entry :=
  if setting.isVerbose then [] else [⟨.error, "captured semgrep stderr: b''"⟩]

def scan (rules : Nat) (targets : List String) : Act Findings := do
  if rules == 0 then throw (.badValue "No Semgrep rules were provided")
  else
    let n := (← get).scans.length
    modify fun s => { s with scans := s.scans ++ [⟨rules, placesToScan setting targets⟩] }
    if setting.scanner.succeeds then Sarif.ofText (setting.scanner.answer n)
    else
      tell (scanFailure setting)
      throw .failedCommand

/-! ## Dependencies -/

def readStores : Act (List Project.Store) := do
  match (← get).stores with
  | some ss => return ss
  | none =>
    let fs := (← get).files
    let ss := Project.stores fs setting.dir
    tell (Project.skipped fs setting.dir)
    modify fun s => { s with stores := some ss }
    return ss

abbrev Placement := List (Dependency × Option String)

variable (p : Placement)

def Placement.insert (d : Dependency) (place : Option String) : Placement :=
  if p.any (·.1.agrees d) then p.map fun e => if e.1.agrees d then (e.1, place) else e
  else p ++ [(d, place)]

/-- Try to write packages to one store after the other; `before` are the stores that did not take them. -/
def placeIn (setting : Setting) (id : String) (ds : List Dependency) (before : List Project.Store) :
    List Project.Store → Act (Option String)
  | [] => return none
  | store :: rest => do
    let o := Project.write (← get).files setting.dir store ds setting.isTrial
    modify fun s => { s with files := o.files, stores := some (before ++ o.store :: rest), log := s.log ++ o.log }
    match o.result with
    | .error f => throw f
    | .ok (some c) =>
      modify fun s => { s with record := s.record.addResults id [c] }
      return some store.file
    | .ok none => placeIn setting id ds (before ++ [o.store]) rest

/-- Write the packages that a codemod needs into the first store that takes them. -/
def placeDependencies (id : String) : Act Placement := do
  let ds := (← get).record.dependencies.get id
  if ds.isEmpty then return []
  let stores ← readStores setting
  if stores.isEmpty then
    say .info ("unable to write dependencies for " ++ id ++ ": no dependency file found")
    return ds.map fun d => (d, none)
  let place ← placeIn setting id ds [] stores
  return ds.map fun d => (d, place)

def byPlace : List (Option String × List Dependency) :=
  let places := (p.map (·.2)).eraseDups
  places.map fun q => (q, (p.filter (·.2 == q)).map (·.1))

def nameList (ds : List Dependency) : String :=
  let cs := (Text.quotedList (ds.map (·.requirement.name))).toList
  String.ofList ((cs.drop 2).take (cs.length - 4))

def placementLog : List Log.Entry :=
  (byPlace p).map fun (place, ds) =>
    match place with
    | some "" | none => ⟨.debug, "The following dependencies could not be added: " ++ nameList ds⟩
    | some file => ⟨.debug, "The following dependencies were added to '" ++ file ++ "': " ++ nameList ds⟩

end Mender.Run
