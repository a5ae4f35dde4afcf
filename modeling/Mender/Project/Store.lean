import Mender.Dependency
import Mender.Files
import Mender.Ini
import Mender.Log
import Mender.Syntax.Literal
import Mender.Syntax.Read
import Mender.Text.Encoding
import Mender.Toml.Read

/-!
# What a project requires

A project may list its requirements in files of several kinds. Each file that can be understood is a `Store`.
-/

namespace Mender.Project

open Syntax

variable (arg : Node) (fs : Files) (dir name file text : String)

inductive StoreKind where
  | toml | script | listing | config
  deriving DecidableEq, Repr, Inhabited

def StoreKind.fileName : StoreKind → String
  | .toml => "pyproject.toml"
  | .script => "setup.py"
  | .listing => "requirements.txt"
  | .config => "setup.cfg"

/-- All kinds, those preferred for new requirements first. -/
def StoreKind.all : List StoreKind := [.toml, .script, .listing, .config]

/-- A file that lists the packages of a project. -/
structure Store where
  kind : StoreKind
  file : String
  requirements : List Requirement
  pythonVersions : List Json := []

namespace Store

variable (s : Store)

def lists (r : Requirement) : Bool := s.requirements.any (·.agrees r)

def insert (r : Requirement) : Store := if s.lists r then s else { s with requirements := s.requirements ++ [r] }

def ofTexts? (kind : StoreKind) (file : String) (texts : List String) (versions : List Json) : Option Store := do
  let rs ← texts.mapM Requirement.parse?
  return rs.foldl insert { kind, file, requirements := [], pythonVersions := versions }

end Store

/-! ## Reading the files -/

inductive Skip where
  /-- it says nothing about requirements -/
  | silent
  /-- nobody knows how its text is encoded -/
  | encoding
  | unreadable
  deriving DecidableEq, Repr, Inhabited

def Skip.entry? : Skip → Option Log.Entry
  | .silent => none
  | .encoding => some ⟨.debug, "Unknown encoding for file: " ++ file⟩
  | .unreadable => some ⟨.debug, "Error parsing file: " ++ file⟩

def needed {α : Type} : Option α → Except Skip α
  | some a => .ok a
  | none => .error .unreadable

def readListing (c : Content) : Except Skip Store :=
  match Text.decode? c.toBytes with
  | none => .error .encoding
  | some text =>
    let lines := (Text.bareLines text).filter fun l => ! l.startsWith "#"
    needed (Store.ofTexts? .listing file (lines.map Text.trim) [])

def valueJson : Toml.Value → Json
  | .text s => .str s
  | .integer i => .int i
  | .truth b => .bool b
  | .float s | .moment s => .str s
  | .array _ _ ps => .arr ((Toml.Piece.values ps).map fun v => match v with
    | .text s => .str s
    | .integer i => .int i
    | .truth b => .bool b
    | _ => .null)
  | .table _ | .tables _ => .obj []

def saysSomething : Toml.Value → Bool
  | .text s => ! s.isEmpty
  | .integer i => i != 0
  | .truth b => b
  | .array _ _ ps => ! (Toml.Piece.values ps).isEmpty
  | .table es => ! es.isEmpty
  | _ => true

def listed? : Toml.Value → Option (List String)
  | .array _ _ ps => (Toml.Piece.values ps).mapM Toml.Value.text?
  | .text s => some (s.toList.map Char.toString)
  | .table es => some (es.map (·.1))
  | _ => none

def readToml : Except Skip Store := do
  let document ← needed (Toml.read text).toOption
  if ! document.isUniform then .error .unreadable
  match document.get? "project" with
  | none => .error .silent
  | some project =>
    if ! saysSomething project then .error .silent
    match project with
    | .table _ =>
      let texts ← match project.get? "dependencies" with
        | some v => needed (listed? v)
        | none => pure []
      let versions := match project.get? "requires-python" with
        | some v => if saysSomething v then [valueJson v] else []
        | none => []
      needed (Store.ofTexts? .toml file texts versions)
    | _ => .error .unreadable

def readConfig : Except Skip Store := do
  let document ← needed (Ini.read? text)
  let own ← needed ((document.sections.find? (·.1 == "options")).map (·.2))
  if own.isEmpty && document.common.isEmpty then .error .silent
  let required ← needed (Ini.value? document own "install_requires")
  let versions ← needed (Ini.value? document own "python_requires")
  needed (Store.ofTexts? .config file ((Text.pieces '\n' required).filter (! ·.isEmpty))
    (if versions.isEmpty then [] else [.str versions]))

def argumentsNamed (call : Node) : List Node :=
  call.nodes.filter fun n => n.kind == .arg && (n.get .keyword).kind == .name && (n.get .keyword).text == name

def listedTexts : List String :=
  let value := arg.get .value
  if value.kind != .list then []
  else (value.list .elements).filterMap fun e =>
    let item := e.get .value
    if e.kind == .element && item.kind == .simpleString then some (Literal.stripQuotes item.text)
    else none

def lonelyText? : Option String :=
  let value := arg.get .value
  if value.kind == .simpleString then some (Literal.stripQuotes value.text) else none

def readScript : Except Skip Store := do
  let module ← needed (Node.ofModule? text)
  let calls := module.nodes.filter fun n => n.kind == .call && (n.get .func).kind == .name && (n.get .func).text == "setup"
  needed (Store.ofTexts? .script file
    (calls.flatMap fun c => (argumentsNamed "install_requires" c).flatMap listedTexts)
    (calls.flatMap fun c => ((argumentsNamed "python_requires" c).filterMap lonelyText?).map .str))

def readStore (kind : StoreKind) (file : String) : Except Skip Store := do
  match kind with
  | .listing => readListing file (← needed (fs.get? file))
  | .toml => readToml file (← needed (fs.readText? file))
  | .config => readConfig file (← needed (fs.readText? file))
  | .script => readScript file (← needed (fs.readText? file))

/-! ## Finding the files -/

/-- The files with a name below a directory, those of a directory before those further down. -/
def filesNamed : List String :=
  let found := (fs.below dir).filter fun p => Path.name p == name && fs.isFile p
  Text.sortBy (fun a b => Path.isUpTo (Path.parts a).dropLast (Path.parts b).dropLast) found

def survey : List (String × Except Skip Store) :=
  StoreKind.all.flatMap fun kind => (filesNamed fs dir kind.fileName).map fun f => (f, readStore fs kind f)

def stores : List Store := (survey fs dir).filterMap fun (_, r) => r.toOption

def skipped : List Log.Entry :=
  (survey fs dir).filterMap fun (f, r) => match r with
    | .error why => why.entry? f
    | .ok _ => none

end Mender.Project
