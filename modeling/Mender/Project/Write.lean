import Mender.Change
import Mender.Diff
import Mender.Edit.Call
import Mender.Project.Store
import Mender.Scope.Facts
import Mender.Syntax.Walk

/-!
# Writing requirements

A fix may need packages that the project does not require yet. `Project.write` adds them to a store and to the
file behind it. What it does to the store stays even if the file cannot be written.

What is to be written follows from the content of the file alone. Each kind of file has its own way to make such
a `Plan`, and a plan is carried out in one way only.
-/

namespace Mender.Project

open Syntax Scope

variable (facts : Facts) (fs : Files) (content : Option Content) (dir file : String) (ds : List Dependency)

inductive Plan where
  /-- leave it alone: there is no place for packages, or something went wrong -/
  | stop (fault : Option Fault)
  /-- write a text and report a change; the report may go wrong after the text was written -/
  | go (change : Except Fault ChangeSet) (text : String)

def Plan.result : Plan → Except Fault (Option ChangeSet)
  | .stop none => .ok none
  | .stop (some f) => .error f
  | .go change _ => change.map some

def Plan.carryOut (isTrial : Bool) : Plan → Files
  | .stop _ => fs
  | .go _ text => if isTrial then fs else fs.putText file text

def relativePath (path : String) : Except Fault String :=
  match Path.relativeTo? path dir with
  | some p => .ok p
  | none => .error (.badValue (Text.quoted (Path.plain path) ++ " is not in the subpath of " ++
      Text.quoted (Path.plain dir) ++ " OR one path is relative and the other is absolute."))

def addition (d : Dependency) (line : Int) : Change where
  line := .number line
  description := d.description
  properties := .obj [("contextual_description", .bool true), ("contextual_description_position", .str "right")]
  actions := [.added d.requirement.text]

def additions : List Dependency → List Int → Except Fault (List Change)
  | [], _ => .ok []
  | _ :: _, [] => .error .outOfRange
  | d :: ds, l :: ls => do return addition d l :: (← additions ds ls)

def report (diff : String) (changes : Except Fault (List Change)) : Except Fault ChangeSet := do
  let changes ← changes
  return { path := ← relativePath dir file, diff, changes }

def readText : Option Content → Except Fault String
  | some (.text s) => .ok (String.ofList (unifyLineEnds s.toList))
  | some (.bytes _) => .error .notText
  | none => .error .noFile

/-! ## Lists of requirements -/

def endLastLine : List String → List String
  | [] => []
  | [l] => [if l.endsWith "\n" then l else l ++ "\n"]
  | l :: ls => l :: endLastLine ls

/-- A list of requirements gets one line more for each package. That the file cannot be written after it was read, which
would end the attempt without a word, does not happen to the files of this model. -/
def planListing : Plan :=
  match readText content with
  | .error _ => .stop none
  | .ok text =>
    let lines := endLastLine (Text.splitFeeds text)
    if lines.isEmpty then .stop (some .outOfRange)
    else
      let new := lines ++ ds.map fun d => d.requirement.text ++ "\n"
      let numbers := (List.range ds.length).map fun i => ((lines.length + i + 1 : Nat) : Int)
      .go (report dir file (Diff.unified lines new) (additions ds numbers)) (String.join new)

/-! ## Project files -/

/-- The value at a key, as it is needed to extend it: a project file may lack it. -/
def dependencyArray (document : Toml.Value) : Except Fault (Option (Nat × Nat × List Toml.Piece)) :=
  match document.get? "project" with
  | none => .ok none
  | some project =>
    match project with
    | .table _ =>
      match project.get? "dependencies" with
      | none => .ok none
      | some (.array start stop ps) => .ok (some (start, stop, ps))
      | some (.tables _) => .error (.badValue "Unsupported insert value type: <class 'tomlkit.items.String'>")
      | some _ => .error .noSuchPart
    | _ => .error .misfit

def tomlPlace : Except Fault (String × Option (Nat × Nat × List Toml.Piece)) := do
  let text ← readText content
  match Toml.read text with
  | .error p => .error (.badDocument p.label)
  | .ok document => return (text, ← dependencyArray document)

def planToml : Plan :=
  match tomlPlace content with
  | .error f => .stop (some f)
  | .ok (_, none) => .stop none
  | .ok (text, some (start, stop, pieces)) =>
    let groups := ds.foldl (fun gs d => Toml.Group.append gs (Toml.quote d.requirement.text))
      (Toml.Group.ofPieces pieces)
    let cs := text.toList
    let array := "[" ++ String.join (groups.map (·.text)) ++ "]"
    let new := String.ofList (cs.take start) ++ array ++ String.ofList (cs.drop stop)
    let diff := Diff.unifiedLines (Text.pieces '\n' text) (Text.pieces '\n' new)
    let changes := do additions ds (← Diff.addedLines diff)
    .go (report dir file (Diff.joinLines diff) changes) new

/-! ## Scripts -/

def extendList (list : Node) (ds : List Dependency) : Node :=
  list.setList .elements (list.list .elements ++ ds.map fun d =>
    Node.make .element [(.value, Node.make .simpleString [] ("\"" ++ d.requirement.text ++ "\""))])

/-- An argument with more requirements, and the line of the last one that it had. Other arguments, and lists
without members, stay as they are. -/
def extendArg (arg : Node) : Except Fault (Node × Option Nat) := do
  let value := arg.get .value
  let isNamed := (arg.get .keyword).kind == .name && (arg.get .keyword).text == "install_requires"
  match (value.list .elements).getLast? with
  | some last =>
    if isNamed && value.kind == .list then
      let line ← facts.line last
      return (← (arg.set .value (← (extendList value ds).sound)).sound, some line)
    else return (arg, none)
  | none => return (arg, none)

/-- The pass that adds packages to the calls that set a project up. It keeps the line of the last requirement
that was there before, and takes back what it has done inside of other calls. -/
def setupPass (isScript : Bool) (ds : List Dependency) : Pass (Option Nat) where
  enter n := return n.kind != .module || isScript
  leave old new := do
    if old.kind != .call then return .keep new
    if (← facts.baseName? (old.get .func)) != some "setuptools.setup" then return .keep old
    let args ← (old.list .args).mapM fun a => extendArg facts ds a
    let lines := args.filterMap (·.2)
    if let some line := lines.getLast? then set (some line)
    return .keep (← Edit.setArgs new (args.map (·.1)))

def extendScript : Except Fault (Node × Node × Option Nat) := do
  let text ← readText content
  match Node.ofModule? text with
  | none => .error .unreadable
  | some module =>
    let facts := Facts.of module
    if let some f := facts.fault then .error f
    let (new, line) ← (setupPass facts (Path.name file == "setup.py") ds).run module none
    return (module, new, line)

def planScript : Plan :=
  match extendScript content file ds with
  | .error f => .stop (some f)
  | .ok (_, _, none) => .stop none
  | .ok (module, new, some line) =>
    let changes := ds.map fun d => addition d ((line : Int) - 1)
    .go (report dir file (Diff.ofTexts module.code new.code) (.ok changes)) new.code

/-! ## Stores -/

/-- List packages; those that were not listed before are returned too. -/
def Store.addNew (s : Store) : List Dependency → Store × List Dependency
  | [] => (s, [])
  | d :: ds =>
    if s.lists d.requirement then s.addNew ds
    else
      let (s, new) := (s.insert d.requirement).addNew ds
      (s, d :: new)

structure Outcome where
  result : Except Fault (Option ChangeSet)
  store : Store
  files : Files
  log : List Log.Entry := []

/-- What is told about an attempt to write: a project file may have no place for requirements. -/
def entries : StoreKind → Except Fault (Option ChangeSet) → List Log.Entry
  | .toml, .ok none => [⟨.debug, "Unable to add dependencies to pyproject.toml file."⟩]
  | _, _ => []

/-- How packages are added to the file of a store. Configuration files are left alone. -/
def Store.plan (s : Store) (content : Option Content) (dir : String) (new : List Dependency) : Plan :=
  match s.kind with
  | .listing => planListing content dir s.file new
  | .toml => planToml content dir s.file new
  | .script => planScript content dir s.file new
  | .config => .stop none

/-- Offer packages to a store. -/
def write (s : Store) (ds : List Dependency) (isTrial : Bool) : Outcome :=
  if s.kind == .config then { result := .ok none, store := s, files := fs }
  else
    let (store, new) := s.addNew ds
    if new.isEmpty then { result := .ok none, store, files := fs }
    else
      let plan := s.plan (fs.get? s.file) dir new
      { result := plan.result, store, files := plan.carryOut fs s.file isTrial, log := entries s.kind plan.result }

end Mender.Project
