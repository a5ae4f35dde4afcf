import Mender.Catalogue
import Mender.Report
import Mender.Run.Session

/-!
# A whole run

`run` does what the command line asks for: it finds the files of a project, has the codemods mend them one
after the other, writes the packages that they need and the report, and tells about it in the log.
-/

namespace Mender.Run

open CommandLine

variable (registry : Registry) (setting : Setting) (settings : Settings) (files : List String)
  (known : Findings) (c : Registered)
variable (words : List String) (elapsed : Nat) (findings : Findings) (cs : List Registered)

def wishesOf : Wishes :=
  { excludes := settings.pathExcludes, includes := settings.pathIncludes, isTrial := setting.isTrial }

/-- Have a codemod mend a file. Nothing that goes wrong with one file keeps the codemod from the others. -/
def mendFile (path : String) : Act (Except Fault FileResult) := do
  match c.codemod.apply (← get).files setting.dir path findings (wishesOf setting settings) with
  | .error f => return .error f
  | .ok (result, fs) =>
    modify fun s => { s with files := fs }
    tell (result.failures.map fun f => ⟨.error, "error parsing file " ++ f⟩)
    return .ok result

def applyToFile (index : Nat) (path : String) : Act (Except Fault FileResult) := do
  say .debug ("scanning file " ++ path)
  if index != 0 && index % 100 == 0 then say .info ("scanned " ++ toString index ++ " files...")
  mendFile setting settings c findings path

def applyToFiles (setting : Setting) (settings : Settings) (c : Registered) (findings : Findings) :
    Nat → List String → Act (List (Except Fault FileResult))
  | _, [] => return []
  | index, path :: paths => do
    let r ← applyToFile setting settings c findings index path
    return r :: (← applyToFiles setting settings c findings (index + 1) paths)

def recordFiles (id : String) : List (Except Fault FileResult) → Act Unit
  | [] => return
  | .error f :: _ => throw f
  | .ok r :: rs => do
    modify fun s => { s with record := s.record.addFile id r }
    recordFiles id rs

def findOwn : Act Findings :=
  if c.codemod.byFindings then
    let targets := known.files c.codemod.name
    if targets.isEmpty then throw .outOfRange else scan setting c.codemod.ruleFiles targets
  else pure {}

def hireWorkers : Act Unit :=
  if settings.workers ≤ 0 then throw (.badValue "max_workers must be greater than 0")
  else say .debug ("using executor with " ++ toString settings.workers ++ " threads")

def startCodemod : Act (Option Findings) := do
  say .info ("running codemod " ++ c.id)
  if c.codemod.byFindings && ! known.rules.contains c.codemod.name then
    say .debug ("no results from semgrep for " ++ c.id ++ ", skipping analysis")
    return none
  else
    let findings ← findOwn setting known c
    hireWorkers settings
    return some findings

/-- End with a codemod: put what became of the files on record and place the packages that are needed. -/
def finishCodemod (results : List (Except Fault FileResult)) : Act Unit := do
  recordFiles c.id results
  tell (placementLog (← placeDependencies setting c.id))
  tell ((← get).record.changesLog c.id)

/-- Find what a codemod looks for, and apply it to all files. -/
def applyCodemod : Act Unit := do
  match ← startCodemod setting settings known c with
  | none => return
  | some findings => finishCodemod setting c (← applyToFiles setting settings c findings 0 files)

def applyCodemods : Act Unit := do
  tell [Log.section_ "scanning"]
  if files.isEmpty then say .info "no files to scan"
  else if cs.isEmpty then say .info "no codemods to run"
  else cs.forM (applyCodemod setting settings files known)

def findAll : Act Findings := do
  let rules := cs.foldl (fun n c => n + c.codemod.ruleFiles) 0
  if rules == 0 then return {} else scan setting rules []

def writeReport (results : List Json) : Act Unit := do
  match settings.output with
  | none | some "" => return
  | some path =>
    let report := Report.document (toString elapsed) words (Path.resolved settings.directory) (.arr results)
    match Report.write? (← get).files path report with
    | some fs =>
      modify fun s => { s with files := fs }
      say .debug ("wrote report to " ++ path)
    | none => say .error Report.failure

def tally (what : String) (paths : List String) : String :=
  what ++ ": " ++ toString paths.length ++ " files (" ++ toString paths.eraseDups.length ++ " unique)"

def summary (r : Record) : List Log.Entry :=
  [Log.section_ "report", ⟨.info, "scanned: " ++ toString files.length ++ " files"⟩,
    ⟨.info, tally "failed" r.failedFiles⟩, ⟨.info, tally "changed" r.changedFiles⟩,
    ⟨.info, "report file: " ++ settings.output.getD "None"⟩]

/-- Begin a run: the codemods to apply, the files to apply them to, and what the scanner knows about them. -/
def startRun : Act (List Registered × List String × Findings) := do
  tell [Log.section_ "startup", ⟨.info, "codemodder: python/" ++ version⟩]
  let _ ← readStores setting
  let cs ← registry.select (settings.included.getD []) (settings.excluded.getD [])
  tell (Log.section_ "setup" :: Log.items .info "running" (cs.map (·.id)))
  tell (Log.items .info "including paths" settings.pathIncludes)
  tell (Log.items .info "excluding paths" settings.pathExcludes)
  let files := CodeFiles.codeFiles (← get).files setting.dir (some settings.pathExcludes)
    (some settings.pathIncludes)
  tell (Log.items .debug "matched files" files)
  return (cs, files, ← findAll setting cs)

/-- A whole run. -/
def perform : Act Unit := do
  let (cs, files, known) ← startRun registry setting settings
  applyCodemods setting settings files known cs
  writeReport settings words elapsed ((← get).record.compile cs)
  tell (summary settings files (← get).record)

structure Ending where
  status : Except Fault Int
  session : Session
  style : Option Log.Style := none
  shown : String := ""

def run (files : Files) (scanner : Scanner) (words : List String) (elapsed : Nat := 0) : Ending :=
  let told := fun (status : Int) (message : String) =>
    { status := .ok status, session := { files, log := [⟨.error, message⟩] } : Ending }
  match Settings.read registry words with
  | .error (.shown text) => { status := .ok 0, session := { files }, shown := text }
  | .error .help => { status := .ok 0, session := { files } }
  | .error (.wrong message) => told 3 ("CLI error: " ++ message)
  | .error (.fault f) => { status := .error f, session := { files } }
  | .ok settings =>
    if ! files.reaches settings.directory then
      told 1 ("given directory '" ++ settings.directory ++ "' doesn't exist or can’t be read")
    else
      let isVerbose := settings.isVerbose.getD false
      let setting : Setting :=
        { dir := Path.plain settings.directory, isTrial := settings.isTrial.getD false, isVerbose, scanner }
      let (result, session) := (perform registry setting settings words elapsed).on { files }
      { status := result.map fun _ => 0, session
        style := some { format := settings.logFormat, isVerbose, projectName := settings.projectName } }

end Mender.Run
