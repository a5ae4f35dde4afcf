import Mender.CommandLine.Settings

/-!
# Reports

A report tells what a run has done, in a form that other programs read.
-/

namespace Mender.Report

def document (elapsed : String) (words : List String) (directory : String) (results : Json) : Json :=
  .obj [("run", .obj [("vendor", .str "pixee"), ("tool", .str "codemodder-python"),
      ("version", .str CommandLine.version), ("sarifs", .arr []), ("elapsed", .str elapsed),
      ("commandLine", .str ("codemodder " ++ String.intercalate " " words)), ("directory", .str directory)]),
    ("results", results)]

def failure : String := "failed to write report file."

def write? (fs : Files) (path : String) (report : Json) : Option Files :=
  if path.endsWith "/" || fs.isDir path || ! fs.isDir (Path.parent path) then none
  else some (fs.putText path report.render)

end Mender.Report
