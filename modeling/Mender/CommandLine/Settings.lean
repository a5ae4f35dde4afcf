import Mender.CodeFiles
import Mender.CommandLine.Words
import Mender.Log
import Mender.Registry

/-!
# The settings of a run

`Settings.read` makes the settings of a run from its command line. The command line may also ask for something
to be shown instead of a run, or may be wrong.
-/

namespace Mender.CommandLine

open Text

variable (r : Registry)

/-- What a command line can set. -/
structure Settings where
  directory : String := ""
  output : Option String := none
  excluded : Option (List String) := none
  included : Option (List String) := none
  outputFormat : String := "codetf"
  isTrial : Option Bool := none
  isVerbose : Option Bool := none
  logFormat : Log.Format := .human
  projectName : Option String := none
  pathExcludes : List String := CodeFiles.usualExcludes
  pathIncludes : List String := CodeFiles.usualIncludes
  workers : Int := 1
  sarifFiles : Option (List String) := none
  sonarFiles : Option (List String) := none
  deriving Inhabited

/-- How reading a command line ends if there is nothing to run. -/
inductive Halt where
  /-- something is shown, and all is well -/
  | shown (text : String)
  | help
  | wrong (message : String)
  | fault (f : Fault)
  deriving Inhabited

def version : String := "unknown"

def reportFormats : List String := ["codetf", "diff"]

/-! ## The options -/

inductive Choice where
  | help | output | exclude | include_ | version | list | describe | outputFormat | trial | verbose | logFormat
  | projectName | pathExclude | pathInclude | workers | sarif | sonar
  deriving DecidableEq, Repr, Inhabited

def Choice.all : List Choice :=
  [.help, .output, .exclude, .include_, .version, .list, .describe, .outputFormat, .trial, .verbose, .logFormat,
    .projectName, .pathExclude, .pathInclude, .workers, .sarif, .sonar]

def Choice.flag : Choice → Flag
  | .help => ⟨["-h", "--help"], false⟩
  | .output => ⟨["--output"], true⟩
  | .exclude => ⟨["--codemod-exclude"], true⟩
  | .include_ => ⟨["--codemod-include"], true⟩
  | .version => ⟨["--version"], false⟩
  | .list => ⟨["--list"], false⟩
  | .describe => ⟨["--describe"], false⟩
  | .outputFormat => ⟨["--output-format"], true⟩
  | .trial => ⟨["--dry-run", "--no-dry-run"], false⟩
  | .verbose => ⟨["--verbose", "--no-verbose"], false⟩
  | .logFormat => ⟨["--log-format"], true⟩
  | .projectName => ⟨["--project-name"], true⟩
  | .pathExclude => ⟨["--path-exclude"], true⟩
  | .pathInclude => ⟨["--path-include"], true⟩
  | .workers => ⟨["--max-workers"], true⟩
  | .sarif => ⟨["--sarif"], true⟩
  | .sonar => ⟨["--sonar-issues-json"], true⟩

def flags : List Flag := Choice.all.map (·.flag)

/-! ## Values -/

def listed (value : String) : List String := (pieces ',' value).eraseDups

variable (c : Choice)

def wrongValue (message : String) : Halt := .wrong ("argument " ++ c.flag.label ++ ": " ++ message)

def codemods (value : String) : Except Halt (List String) :=
  let names := listed value
  let unknown := names.filter fun n => ! (r.ids ++ r.names).contains n
  if unknown.isEmpty then .ok names
  else .error (wrongValue c ("invalid choice(s): " ++ quotedList unknown ++ " (choose from " ++
    String.intercalate ", " (r.names.map quoted) ++ ")"))

variable (s : Settings)

def description : Except Halt String := do
  let cs ← (r.select (s.included.getD []) (s.excluded.getD [])).mapError .fault
  return (Json.obj [("results", .arr (cs.map fun c => .obj c.describe))]).pretty ++ "\n"

def conflict : Except Halt Unit :=
  let against := fun (other : Choice) => wrongValue c ("not allowed with argument " ++ other.flag.label)
  match c with
  | .exclude => if s.included.isSome then .error (against .include_) else .ok ()
  | .include_ => if s.excluded.isSome then .error (against .exclude) else .ok ()
  | _ => .ok ()

def set (c : Choice) (spelling value : String) : Except Halt Settings := do
  conflict c s
  match c with
  | .help => .error .help
  | .version => .error (.shown (version ++ "\n"))
  | .list =>
    let ids := r.ids.mergeSort fun a b => decide (a ≤ b)
    .error (.shown (String.join (ids.map (· ++ "\n"))))
  | .describe => .error (.shown (← description r s))
  | .output => return { s with output := some value }
  | .exclude => return { s with excluded := some (← codemods r c value) }
  | .include_ => return { s with included := some (← codemods r c value) }
  | .outputFormat =>
    if reportFormats.contains value then return { s with outputFormat := value }
    else .error (wrongValue c ("invalid choice: " ++ quoted value ++ " (choose from " ++
      String.intercalate ", " (reportFormats.map quoted) ++ ")"))
  | .trial => return { s with isTrial := some (spelling == "--dry-run") }
  | .verbose => return { s with isVerbose := some (spelling == "--verbose") }
  | .logFormat =>
    match Log.Format.ofName? value with
    | some f => return { s with logFormat := f }
    | none => .error (wrongValue c ("invalid OutputFormat value: " ++ quoted value))
  | .projectName => return { s with projectName := some value }
  | .pathExclude => return { s with pathExcludes := listed value }
  | .pathInclude => return { s with pathIncludes := listed value }
  | .workers =>
    match int? value with
    | some n => return { s with workers := n }
    | none => .error (wrongValue c ("invalid int value: " ++ quoted value))
  | .sarif => return { s with sarifFiles := some (listed value) }
  | .sonar => return { s with sonarFiles := some (listed value) }

/-! ## Reading -/

def settle (r : Registry) : List Event → Settings → Bool → List String → Except Halt Settings
  | .set f spelling value :: es, s, placed, extras => do
    match Choice.all.find? (·.flag == f) with
    | some c => settle r es (← set r s c spelling (value.getD "")) placed extras
    | none => settle r es s placed extras
  | .operand d :: es, s, _, extras => settle r es { s with directory := d } true extras
  | .extra w :: es, s, placed, extras => settle r es s placed (extras ++ [w])
  | .problem m :: _, _, _, _ => .error (.wrong m)
  | .fault f :: _, _, _, _ => .error (.fault f)
  | [], s, placed, extras =>
    if ! placed then .error (.wrong "the following arguments are required: directory")
    else if extras.isEmpty then .ok s
    else .error (.wrong ("unrecognized arguments: " ++ String.intercalate " " extras))

def Settings.read (words : List String) : Except Halt Settings := do
  settle r (← (CommandLine.read flags words).mapError .wrong) {} false []

end Mender.CommandLine
