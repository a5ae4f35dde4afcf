import Mender.Text.Search
import Mender.Text.Sort

/-!
# Paths and files

A path is a text; its parts are divided by slashes. Paths are kept in a plain form: no empty parts and
no parts that are just a dot (`Path.plain`). To look a path up, parts that lead upwards are followed too
(`Path.resolved`). The files that a run works on are held as a finite map
from plain paths to contents, with the directories that stand on their own beside it.
-/

namespace Mender

namespace Path

variable (p : String) (dir : String)

def parts : List String := (Text.pieces '/' p).filter fun s => s != "" && s != "."

def isRooted : Bool := p.startsWith "/"

def ofParts (rooted : Bool) (ps : List String) : String :=
  if rooted then "/" ++ String.intercalate "/" ps
  else if ps.isEmpty then "." else String.intercalate "/" ps

def plain : String := ofParts (isRooted p) (parts p)

def name : String := ((parts p).getLast?).getD ""

def parent : String := ofParts (isRooted p) (parts p).dropLast

def join (q : String) : String := if isRooted q then plain q else ofParts (isRooted p) (parts p ++ parts q)

/-- The ending of a name from its last dot on. A dot at the front or the end makes no ending. -/
def nameSuffix (n : String) : String :=
  let cs := n.toList
  let tail := cs.reverse.takeWhile (· != '.')
  if tail.isEmpty || tail.length ≥ cs.length || tail.length + 1 ≥ cs.length then ""
  else "." ++ String.ofList tail.reverse

def suffix : String := nameSuffix (name p)

def withSuffix (ending : String) : String :=
  let n := name p
  let stem := (n.take (n.length - (nameSuffix n).length)).toString
  ofParts (isRooted p) ((parts p).dropLast ++ [stem ++ ending])

/-- Follow the parts that lead upwards; `up` is the way so far, its last part first. -/
def climb : List String → List String → List String
  | up, [] => up.reverse
  | [], ".." :: ps => climb [] ps
  | _ :: up, ".." :: ps => climb up ps
  | up, p :: ps => climb (p :: up) ps

def resolved : String := ofParts (isRooted p) (climb [] (parts p))

def under? : Option (List String) :=
  if isRooted p == isRooted dir && (parts dir).isPrefixOf (parts p) then
    some ((parts p).drop (parts dir).length)
  else none

def isUpTo (ps qs : List String) : Bool := ! List.lex qs ps (· < ·)

def relativeTo? : Option String := (under? p dir).map (ofParts false)

end Path

inductive Content where
  | text (s : String)
  | bytes (b : ByteArray)
  deriving Inhabited

namespace Content

instance : DecidableEq Content
  | .text s, .text t => decidable_of_iff (s = t) ⟨congrArg text, text.inj⟩
  | .bytes a, .bytes b =>
    decidable_of_iff (a.data = b.data) ⟨fun h => congrArg bytes (ByteArray.ext h), fun h => congrArg (·.data) (bytes.inj h)⟩
  | .text _, .bytes _ => isFalse fun h => Content.noConfusion h
  | .bytes _, .text _ => isFalse fun h => Content.noConfusion h

def ofBytes (b : ByteArray) : Content :=
  match String.fromUTF8? b with
  | some s => .text s
  | none => .bytes b

def toBytes : Content → ByteArray
  | .text s => s.toUTF8
  | .bytes b => b

def text? : Content → Option String
  | .text s => some s
  | .bytes _ => none

end Content

def unifyLineEnds : List Char → List Char
  | [] => []
  | '\r' :: '\n' :: rest => '\n' :: unifyLineEnds rest
  | '\r' :: rest => '\n' :: unifyLineEnds rest
  | c :: rest => c :: unifyLineEnds rest

structure Files where
  entries : List (String × Content) := []
  dirs : List String := []

namespace Files

variable (fs : Files) (dir p : String)

/-- The content of a file. -/
def get? : Option Content := (fs.entries.find? (·.1 == Path.resolved p)).map (·.2)

def readText? : Option String := ((fs.get? p).bind (·.text?)).map fun s => String.ofList (unifyLineEnds s.toList)

/-- Write a file. -/
def put (c : Content) : Files :=
  let p := Path.resolved p
  if fs.entries.any (·.1 == p) then
    { fs with entries := fs.entries.map fun e => if e.1 == p then (p, c) else e }
  else { fs with entries := fs.entries ++ [(p, c)] }

def putText (s : String) : Files := fs.put p (.text s)

def addDir : Files := { fs with dirs := fs.dirs ++ [Path.resolved p] }

def isFile : Bool := fs.entries.any (·.1 == Path.resolved p)

/-- Is there such a directory? The directories above a file or directory are there too. -/
def isDir : Bool :=
  let ps := Path.parts (Path.resolved p)
  if Path.isRooted p then false
  else
    ps.isEmpty || (fs.entries.map (·.1)).any (fun e => ps.length < (Path.parts e).length && ps.isPrefixOf (Path.parts e)) ||
      fs.dirs.any fun d => ps.isPrefixOf (Path.parts d)

def exists? : Bool := fs.isFile p || fs.isDir p

/-- Is there anything at a path as it was written? A path that ends in a slash means a directory, and an
empty path means nothing. -/
def reaches : Bool :=
  if p.isEmpty then false else if p.endsWith "/" then fs.isDir p else fs.exists? p

/-- The paths of all files and directories, without the working directory itself. -/
def all : List String :=
  let files := fs.entries.map (·.1)
  let above := (files.map fun p => (Path.parts p).dropLast) ++ fs.dirs.map Path.parts
  let dirs := above.flatMap fun ps => (List.range ps.length).map fun i => Path.ofParts false (ps.take (i + 1))
  (files ++ dirs).eraseDups

def below : List String :=
  let inside := fs.all.filterMap fun p => match Path.under? p (Path.resolved dir) with
    | some (n :: ns) => some (n :: ns)
    | _ => none
  (Text.sortBy Path.isUpTo inside).map fun ns => Path.join dir (Path.ofParts false ns)

def children : List String :=
  (fs.below dir).filterMap fun p => match Path.under? p dir with
    | some [n] => some n
    | _ => none

end Files

end Mender
