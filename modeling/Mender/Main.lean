import Mender.Run.Whole

/-!
# The command line

The program takes the words of its command line as they are, and the project and the answers of the scanner
from its standard input, as one JSON document: an object `files` from path to text, and a list `answers` of
texts. It writes its log, and behind it, on a line of its own, an object with the files that are new or changed.
-/

namespace Mender

def filesOf (document : Json) : Files :=
  match document.get? "files" with
  | some (.obj ms) => ms.foldl (fun fs (path, content) =>
      match content with
      | .str s => if path.endsWith "/" then fs.addDir path else fs.putText path s
      | _ => fs) {}
  | _ => {}

def answersOf (document : Json) : List String :=
  match document.get? "answers" with
  | some (.arr js) => js.map fun j => match j with
    | .str s => s
    | j => j.render
  | _ => []

def changedFiles (old new : Files) : Json :=
  .obj (new.entries.filterMap fun (path, content) =>
    if old.get? path == some content then none else content.text?.map fun s => (path, .str s))

def exitStatus (e : Run.Ending) : UInt32 :=
  match e.status with
  | .ok n => n.toNat.toUInt32
  | .error _ => 1

partial def readAll (input : IO.FS.Stream) (acc : String) : IO String := do
  let line ← input.getLine
  if line.isEmpty then return acc else readAll input (acc ++ line)

end Mender

open Mender in
def main (words : List String) : IO UInt32 := do
  let document := (Json.parse? (← readAll (← IO.getStdin) "")).getD .null
  let files := filesOf document
  let e := Run.run Catalogue.registry files { answers := answersOf document } words
  let log := e.session.log
  match e.style with
  | some style =>
    (style.output log).forM fun line => IO.println line
    if style.format == .human then (Log.Style.errorLines log).forM fun line => IO.eprintln line
  | none =>
    IO.print e.shown
    (Log.Style.errorLines log).forM fun line => IO.eprintln line
  IO.println (changedFiles files e.session.files).render
  return exitStatus e
