import Mender.Edit.Call
import Mender.Syntax.Walk

/-!
# Adding imports

An edit may need modules or names that a module does not import yet. They are scheduled as `Item`s and
added together afterwards. Names of a module from which something is imported already join the first such
statement, in front; the others get statements of their own, behind the last import at the top level.
-/

namespace Mender.Import

open Syntax Node

/-- Something to import: a module, or an object of a module, perhaps under another name. -/
structure Item where
  module : String
  object : Option String := none
  asName : Option String := none
  deriving DecidableEq, Repr, Inhabited

namespace Add

variable (statement n : Node)

abbrev Object := String × Option String

structure Wanted where
  modules : List String
  renamed : List (String × String)
  objects : List (String × List Object)
  deriving Repr

def sortedNames (names : List String) : List String := names.eraseDups.mergeSort fun a b => decide (a ≤ b)

def Wanted.of (items : List Item) : Wanted :=
  let objects : Bool → List (String × List Object) := fun renamed =>
    let chosen := items.filter fun i => i.object.isSome && i.asName.isSome == renamed
    (sortedNames (chosen.map (·.module))).map fun m =>
      (m, ((chosen.filter (·.module == m)).map fun i => (i.object.getD "", i.asName)))
  { modules := sortedNames ((items.filter fun i => i.object.isNone && i.asName.isNone).map (·.module))
    renamed := (items.filter fun i => i.object.isNone && i.asName.isSome).foldl (fun acc i =>
      (acc.filter (·.1 != i.module)) ++ [(i.module, i.asName.getD "")]) []
    objects := (objects true) ++ (objects false).map fun e => (e.1, e.2.eraseDups) }

def Wanted.isEmpty (w : Wanted) : Bool := w.modules.isEmpty && w.renamed.isEmpty && w.objects.isEmpty

def absoluteModule? : Option String :=
  if (statement.list .relative).isEmpty then (statement.get .module).fullName? else none

/-- Does the statement already give the object? A star gives all objects under their own names. -/
def gives (module : String) (o : Object) : Bool :=
  statement.kind == .importFrom && absoluteModule? statement == some module &&
    if (statement.get .names).kind == .importStar then o.2.isNone
    else statement.aliases.any fun a => a.importedName == o.1 && a.importedAs? == o.2

variable (w : Wanted)

def Wanted.missing (module : Node) : Wanted :=
  let statements := module.nodes.filter fun n => n.kind == .importStatement || n.kind == .importFrom
  let plain := (statements.filter (·.kind == .importStatement)).flatMap aliases
  let last := fun (m : String) => ((plain.filter fun a => a.importedName == m && a.importedAs?.isSome).getLast?).bind
    importedAs?
  { modules := w.modules.filter fun m =>
      ! plain.any fun a => a.importedName == m && a.importedAs?.isNone
    renamed := w.renamed.filter fun e => last e.1 != some e.2
    objects := (w.objects.map fun e => (e.1, e.2.filter fun o =>
      ! statements.any fun s => gives s e.1 o)).filter (! ·.2.isEmpty) }

/-- Does an object come before another one? Of equal names either may. -/
def objectLe (a b : Object) : Bool := decide (a.1 < b.1) || a.1 == b.1

/-- Aliases for objects: those under their own name first. -/
def aliasesFor (objects : List Object) : List Node :=
  let sorted := objects.mergeSort objectLe
  let new := fun (o : Object) => make .importAlias [(.name, ofName o.1),
    (.asname, match o.2 with
      | some n => make .asName [(.name, ofName n)]
      | none => absent)]
  (sorted.filter (·.2.isNone)).map new ++ (sorted.filter (·.2.isSome)).map new

def joining : Pass Wanted where
  leave old new := do
    if old.kind == .importFrom && (old.get .names).kind != .importStar then
      match absoluteModule? new with
      | none => return .keep new
      | some module =>
        let w ← get
        let mine := (w.objects.filter (·.1 == module)).flatMap (·.2)
        if mine.isEmpty then return .keep new
        else
          set { w with objects := w.objects.filter (·.1 != module) }
          return .keep (← (new.setList .names (aliasesFor mine ++ new.aliases)).sound)
    else return .keep new

def isTextLine : Bool :=
  n.kind == .simpleStatementLine &&
    match n.list .body with
    | [s] => s.kind == .expr && (s.get .value).kind == .simpleString
    | _ => false

def isStrictLine : Bool :=
  n.kind == .simpleStatementLine &&
    match n.list .body with
    | [s] => s.kind == .assign &&
      match s.list .targets with
      | [t] => (t.get .target).kind == .name && (t.get .target).text == "__strict__"
      | _ => false
    | _ => false

def holdsImport : Bool :=
  n.kind == .simpleStatementLine && (n.list .body).any fun s => s.kind == .importStatement || s.kind == .importFrom

/-- Where new statements go: the place of `__future__` imports, and the place of all others. A line
that is just a text puts both behind the first statement. -/
def places (body : List Node) : Nat × Nat :=
  let start := if (body.head?.map isStrictLine).getD false then 1 else 0
  (body.zipIdx).foldl (fun (p : Nat × Nat) (e : Node × Nat) =>
    if isTextLine e.1 then (1, 1)
    else if holdsImport e.1 then (p.1, e.2 + 1)
    else p) (start, start)

def opened : List Node → List Node
  | [] => []
  | s :: rest =>
    match s.list .leadingLines with
    | [] => s.setList .leadingLines [fresh .emptyLine] :: rest
    | l :: ls =>
      if (l.get .comment).isPresent then
        s.setList .leadingLines (fresh .emptyLine :: l :: ls) :: rest
      else s :: rest

def fromStatement (e : String × List Object) : Except Fault Node :=
  let names := (e.2.mergeSort objectLe).map fun o => match o.2 with
    | some n => o.1 ++ " as " ++ n
    | none => o.1
  Edit.statement ("from " ++ e.1 ++ " import " ++ String.intercalate ", " names)

def mergeObjects : List (String × List Object) → List (String × List Object)
  | [] => []
  | e :: es =>
    let others := mergeObjects es
    (e.1, e.2 ++ (others.filter (·.1 == e.1)).flatMap (·.2)) :: others.filter (·.1 != e.1)

def withStatements (old new : Node) : Except Fault Node := do
  if w.isEmpty then return new
  let (front, back) := places (old.list .body)
  let body := new.list .body
  let objects := mergeObjects w.objects
  let futures ← (objects.filter (·.1 == "__future__")).mapM fromStatement
  let modules ← w.modules.mapM fun m => Edit.statement ("import " ++ m)
  let renamed ← w.renamed.mapM fun e => Edit.statement ("import " ++ e.1 ++ " as " ++ e.2)
  let froms ← (objects.filter (·.1 != "__future__")).mapM fromStatement
  return new.setList .body (body.take front ++ futures ++ (body.take back).drop front ++
    modules ++ renamed ++ froms ++ opened (body.drop back))

end Add

def addImports (items : List Item) (module : Node) : Except Fault Node := do
  let w := (Add.Wanted.of items).missing module
  let (new, w) ← Add.joining.run module w
  (← Add.withStatements w module new).sound

end Mender.Import
