import Mender.Codemod.Basic
import Mender.Edit.Replace
import Mender.Infer

/-!
# Files that are never closed

A file that is opened by `x = open(…)` and neither closed nor handed on is opened in a `with` statement
instead. The statement takes in what follows in the same block, up to the last use of the file.
-/

namespace Mender.Codemod

open Syntax Scope

/-- An assignment of a file that is opened, and where it stands. -/
structure OpenedFile where
  block : Node
  index : Nat
  assign : Node
  call : Node

namespace Task

variable (t : Task) (n line : Node) (name : Node) (statements : List Node)

def isOpen : Except Fault Bool := do
  if n.kind != .call then return false
  match ← t.facts.single? n with
  | some b => return b.origin == .builtin && (n.get .func).kind == .name && (n.get .func).text == "open"
  | none => return false

def openAssign? : Except Fault (Option Node) := do
  match line.list .body with
  | [s] =>
    if s.kind == .assign || s.kind == .annAssign then
      if ← t.isOpen (s.get .value) then
        return if (targets s).all (·.kind == .name) then some s else none
      else return none
    else return none
  | _ => return none

def isPlainBlock (block : Node) : Bool :=
  block.kind == .module || match t.facts.parent? block with
    | some p => p.kind != .classDef
    | none => false

def placeOf : Except Fault (Node × Nat) :=
  match t.facts.parent? line with
  | none => .error .noSuchPart
  | some block =>
    if block.kind != .module && block.kind != .indentedBlock then .error .misfit
    else match (block.list .body).findIdx? (·.identical line) with
      | none => .error .outOfRange
      | some index => .ok (block, index)

def openedFile? : Except Fault (Option OpenedFile) := do
  if line.kind != .simpleStatementLine then return none
  let (block, index) ← t.placeOf line
  if ! t.isPlainBlock block then return none
  match ← t.openAssign? line with
  | none => return none
  | some s => return some ⟨block, index, s, s.get .value⟩

/-- All files that are opened by assignments. -/
def openedFiles : Except Fault (List OpenedFile) := do
  return (← (Edit.standing t.module).mapM t.openedFile?).filterMap id

/-! ## The names of a file -/

def nodeOf (a : Access) : Except Fault Node :=
  match a.node.bind t.facts.node? with
  | some n => .ok n
  | none => .error .unknownNode

def uses : Except Fault (List Node) := (t.facts.accesses name).mapM t.nodeOf

def assignedTo : Except Fault (List Node) := do
  let found ← (← t.uses name).mapM fun n => do
    match ← t.facts.valueOf? n with
    | some a => return targets a
    | none => return []
  return found.flatten

/-- The targets, direct and indirect, that the value of a name is assigned to; `fuel` bounds the length of
the way, and a way with more names than the module has goes around in a circle. -/
def reachedFrom (t : Task) : Nat → Node → Except Fault (List Node)
  | 0, _ => .error .endless
  | fuel + 1, name => do
    let direct ← t.assignedTo name
    let further ← (direct.filter (·.kind == .name)).mapM (t.reachedFrom fuel)
    return direct ++ further.flatten

variable (r : OpenedFile)

def reachedNames : Except Fault (List Node) := do
  let direct := targets r.assign
  let further ← (direct.filter (·.kind == .name)).mapM (t.reachedFrom (t.facts.nodes.size + 1))
  return direct ++ further.flatten

/-- The nodes that use an opened file, unless it is assigned to something else than names. -/
def usesOf? : Except Fault (Option (List Node)) := do
  let names ← t.reachedNames r
  if names.any (·.kind != .name) then return none
  return some (← names.mapM t.uses).flatten

def closes : Bool :=
  ((t.facts.calledAttribute? n).map fun a => a.kind == .name && (a.text == "close" || a.text == "__exit__")).getD false ||
  (t.facts.parentOfKind? .withItem n).isSome

def lastHolder? : Option Nat := ((statements.zipIdx.filter fun (s, _) => t.facts.isUnder n s).getLast?).map (·.2)

def escapes (n : Node) : Bool :=
  (t.facts.parentOfKind? .returnStatement n).isSome || (t.facts.parentOfKind? .yield n).isSome ||
    (t.facts.parentOfKind? .arg n).isSome || (t.lastHolder? n statements).isNone

/-- Is the file neither closed nor handed on under any of its names? -/
def isLeaked (uses : List Node) : Bool :=
  let statements := (r.block.list .body).drop r.index
  uses.all fun n => ! t.closes n && ! t.escapes statements n

end Task

/-! ## The new statement -/

/-- The place of the last statement behind the line that holds one of the uses, by the places of the uses
among the statements behind the line. -/
def lastUse (index : Nat) (places : List (Option Nat)) : Except Fault (Option Nat) :=
  places.foldlM (fun last place => match place with
    | none => .error .misfit
    | some i => .ok (some (max (last.getD 0) (index + 1 + i)))) none

/-- The statements of a block in front of a line, those behind it up to the last use, and the rest. -/
def splitBlock (body : List Node) (index : Nat) (last : Option Nat) : List Node × List Node × List Node :=
  let behind := body.drop (index + 1)
  match last with
  | some l => (body.take index, behind.take (l - index), behind.drop (l - index))
  | none => (body.take index, behind, [])

def withItem (item target : Node) : Node :=
  Node.make .withItem [(.item, item), (.asname, Node.make .asName [(.name, target)])]

def openItems (assign call : Node) : List Node :=
  match targets assign with
  | first :: rest => withItem call first :: rest.map (withItem first)
  | [] => []

def wrapped (r : OpenedFile) (last : Option Nat) : Except Fault Node :=
  let (before, inside, after) := splitBlock (r.block.list .body) r.index last
  let body := Node.make .indentedBlock [(.body, Node.seq inside)]
  let statement := Node.make .withStatement [(.items, Node.seq (openItems r.assign r.call)), (.body, body)]
  (r.block.setList .body (before ++ [statement] ++ after)).sound

namespace Task

variable (t : Task)

/-- The block with a `with` statement for the file. -/
def mended (r : OpenedFile) (uses : List Node) : Except Fault Node := do
  let behind := (r.block.list .body).drop (r.index + 1)
  wrapped r (← lastUse r.index (uses.map fun n => t.lastHolder? n behind))

/-- Mend one file after the other. A block that an earlier fix has rebuilt is not found again. -/
def wrapFiles (t : Task) : List OpenedFile → Node → Work Node
  | [], module => return module
  | r :: rest, module => do
    match ← t.usesOf? r with
    | none => return module
    | some uses =>
      if ! t.isLeaked r uses then t.wrapFiles rest module
      else
        t.report r.call
        let block ← t.mended r uses
        let mark := r.block.mark.getD 0
        t.wrapFiles rest (← Edit.replaceAll [(mark, .whole (.keep block))] module)

/-- The codemod. -/
def closeFiles : Work.Result :=
  t.withScopes do
    let files ← t.openedFiles
    if ! files.isEmpty && ! (t.skipLines.isEmpty && t.onlyLines.isEmpty) then .error .noSuchPart
    (t.wrapFiles files t.module).run {}

end Task

end Mender.Codemod
