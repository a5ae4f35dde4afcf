import Mender.Files
import Mender.Glob
import Mender.Text.Number

/-!
# Choosing files and lines

Which files of a project are looked at, and which of their lines, is said by patterns for paths. A pattern
may be followed by a colon and a line number; it then concerns that line of the files it matches.
-/

namespace Mender.CodeFiles

/-- The patterns of files that are looked at if nothing else is said. -/
def usualIncludes : List String := ["**.py", "**/*.py"]

/-- The patterns of files that are left alone if nothing else is said. -/
def usualExcludes : List String :=
  ["**/test/**", "**/tests/**", "**/conftest.py", "**/build/**", "**/dist/**", "**/venv/**",
    "**/.venv/**", "**/.tox/**", "**/.nox/**", "**/.eggs/**", "**/.git/**", "**/.mypy_cache/**",
    "**/.pytest_cache/**", "**/.hypothesis/**", "**/.coverage*"]

def linePatterns (file : String) : List String → Except Fault (List Int)
  | [] => return []
  | p :: ps => do
    match Text.pieces ':' p with
    | [glob, line] =>
      if Glob.isMatch file glob then
        let n ← Text.int line
        return n :: (← linePatterns file ps)
      else linePatterns file ps
    | _ => linePatterns file ps

/-- The names that match patterns, pattern by pattern. Patterns of what to exclude do not count if they
name a line. -/
def filterNames (names patterns : List String) (excluding : Bool := false) : List String :=
  let globs := if excluding then patterns.filter fun p => ! p.toList.contains ':'
    else patterns.map fun p => (Text.pieces ':' p).headD ""
  globs.flatMap fun g => names.filter (Glob.isMatch · g)

def codeFiles (fs : Files) (dir : String) (excludes includes : Option (List String)) : List String :=
  let names := fs.below dir
  let included := filterNames names (includes.getD usualIncludes)
  let excluded := filterNames names (excludes.getD usualExcludes) true
  let chosen := (included.filter fun n => ! excluded.contains n).eraseDups
  (Text.sortBy (fun a b => decide (a ≤ b)) chosen).filter fun n => fs.isFile n && Path.suffix n == ".py"

end Mender.CodeFiles
