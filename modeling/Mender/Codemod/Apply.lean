import Mender.CodeFiles
import Mender.Codemod.Description
import Mender.Project.Write

/-!
# Applying a codemod to a file

The file is read, mended and written back, unless the run is only a trial. What became of it is its
`FileResult`. A file that cannot be read as Python is a failure and stays as it is.
-/

namespace Mender

structure FileResult where
  path : String
  changeSets : List ChangeSet := []
  failures : List String := []
  dependencies : List Dependency := []
  /-- all changes that were noted, also where the module stayed the same -/
  changes : List Change := []

structure Wishes where
  /-- patterns of files and lines to leave alone -/
  excludes : List String := []
  includes : List String := []
  isTrial : Bool := false

namespace Codemod

variable (c : Codemod) (fs : Files) (dir path : String) (findings : Findings)

def readModule? : Option Syntax.Node := (fs.readText? path).bind Syntax.Node.ofModule?

def transform (t : Task) : Except Fault (FileResult × Option String) := do
  c.prepare t
  if c.byFindings && t.findings.isEmpty then return ({ path := t.path }, none)
  else
    let (module, notes) ← c.work t
    let result : FileResult := { path := t.path, changes := notes.changes, dependencies := notes.dependencies }
    if module.same t.module then return (result, none)
    else
      let changeSet : ChangeSet :=
        { path := ← Project.relativePath t.dir t.path
          diff := Diff.ofTexts t.module.code module.code
          changes := notes.changes }
      return ({ result with changeSets := [changeSet] }, some module.code)

variable (w : Wishes)

/-- What a codemod makes of a file, given the module in it. A file that cannot be read stays as it is. -/
def mendModule (module? : Option Syntax.Node) : Except Fault (FileResult × Option String) := do
  let path := Path.plain path
  let skipLines ← CodeFiles.linePatterns path w.excludes
  let onlyLines ← CodeFiles.linePatterns path w.includes
  match module? with
  | none => return ({ path, failures := [path] }, none)
  | some module =>
    c.transform
      { files := fs, dir, path, skipLines, onlyLines
        findings := findings.select c.name path
        changeText := c.changeText
        facts := .of module }

def mend : Except Fault (FileResult × Option String) :=
  c.mendModule fs dir path findings w (readModule? fs (Path.plain path))

def commit (isTrial : Bool) : Option String → Files
  | none => fs
  | some text => if isTrial then fs else fs.putText (Path.plain path) text

/-- Apply a codemod to a file, and write it unless it is a trial. -/
def apply : Except Fault (FileResult × Files) := do
  let (result, text) ← c.mend fs dir path findings w
  return (result, commit fs path w.isTrial text)

end Codemod

end Mender
