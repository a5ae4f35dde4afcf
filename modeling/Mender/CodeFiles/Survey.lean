import Mender.CodeFiles

/-!
# Surveys of a directory

A survey lists the files of a directory that are looked at, each with the lines that patterns name in it.
-/

namespace Mender.CodeFiles

variable (dir : String) (n : Nat)

/-- A file that is looked at, with the lines that are asked for and the lines that are left alone. -/
structure Survey where
  file : String
  included : List Int
  excluded : List Int

/-- The files below a directory that are looked at, in order, each with the lines that patterns name. -/
def Survey.of (fs : Files) (dir : String) (excludes includes : List String) : Except Fault (List Survey) :=
  (codeFiles fs dir none none).mapM fun f => do
    return { file := f, included := ← linePatterns f includes, excluded := ← linePatterns f excludes }

def modulePath (i : Nat) : String := Path.join dir s!"pkg{i % 4}/mod{i}.py"

/-- A project of `n` empty modules, dealt out to four packages in turn. -/
def packages : Files := (List.range n).foldl (fun fs i => fs.put (modulePath dir i) (.text "")) {}

/-- The survey of a project of `n` modules where line 3 of the first package is asked for and line 7 of
the second is left alone. -/
def surveyPackages : Except Fault (List Survey) :=
  Survey.of (packages "proj" n) "proj" ["**/pkg1/*.py:7"] ["**/pkg0/*.py:3"]

end Mender.CodeFiles
