import Mender.Edit.Replace
import Mender.Import.Place
import Mender.Syntax.Name
import Mender.Text.Natural

/-!
# Ordering imports

The imports at the top level of a module come in blocks: runs of lines that hold one import each. A
block is put in order by grouping its imports into sections, with plain imports before from-imports in
each section and natural order within. Imports of the same module are merged; the comment lines right
above an import stay with it.
-/

namespace Mender.Import

open Syntax Edit Node

variable (module : String) (line : Node) (place : String → Section) (block lines : List Node)
variable (names : List (String × Option String)) (leading : List Node)

def isImportLine (n : Node) : Bool :=
  n.kind == .simpleStatementLine &&
    match n.list .body with
    | [s] => s.kind == .importStatement || s.kind == .importFrom
    | _ => false

def runs {α : Type} (test : α → Bool) : List α → List (List α)
  | [] => []
  | x :: xs =>
    if test x then
      match xs, runs test xs with
      | y :: _, r :: rs => if test y then (x :: r) :: rs else [x] :: r :: rs
      | _, rs => [x] :: rs
    else runs test xs

/-- The blocks of imports of a module, at the top level. -/
def blocks (module : Node) : List (List Node) := runs isImportLine (module.list .body)

def importOf : Node := (line.list .body).headD absent

def moduleOn : String := (importOf line).moduleName

/-- The lines in front of a statement: those before the last run of comments, and that run. -/
def splitLeading : List Node × List Node :=
  let ls := line.list .leadingLines
  let comments := (ls.reverse.takeWhile fun (l : Node) => (l.get .comment).isPresent).reverse
  (ls.take (ls.length - comments.length), comments)

def gatherAt {α β : Type} [BEq α] (key : α) (f : Option β → β) : List (α × β) → List (α × β)
  | [] => [(key, f none)]
  | e :: es => if e.1 == key then (e.1, f (some e.2)) :: es else e :: gatherAt key f es

def gather {α β γ : Type} [BEq β] (key : α → β) (add : α → Option γ → γ) (xs : List α) : List (β × γ) :=
  xs.foldl (fun gs x => gatherAt (key x) (add x) gs) []

def addComments (comments : List Node) (gathered : List (List Node)) : List (List Node) :=
  if comments.isEmpty then gathered else gathered ++ [comments]

/-- The comments of an import. Those of imports further down come first. -/
def commentLines (gathered : List (List Node)) : List Node := gathered.reverse.flatten

def commentsAbove : List Node := (splitLeading line).2

def aliasPair (a : Node) : String × Option String := (a.importedName, a.importedAs?)

def asPart : Option String → Node
  | some name => make .asName [(.name, ofName name)]
  | none => absent

def lineOf (s : Node) : Node := make .simpleStatementLine [(.leadingLines, seq leading), (.body, seq [s])]

/-! ## Plain imports -/

def plainLines : List Node := block.filter fun line => (importOf line).kind == .importStatement

def modulesOn : List ((String × Option String) × List Node) :=
  match (importOf line).aliases with
  | [] => []
  | a :: rest => (aliasPair a, commentsAbove line) :: rest.map fun a => (aliasPair a, [])

def plainLine (module : String × Option String) (leading : List Node) : Node :=
  lineOf leading (make .importStatement [(.names, seq [
    make .importAlias [(.name, ofDotted module.1), (.asname, asPart module.2)]])])

def plainImports : List Node :=
  let gathered := gather (·.1) (fun e old => addComments e.2 (old.getD [])) (lines.flatMap modulesOn)
  gathered.map fun (module, comments) => plainLine module (commentLines comments)

/-! ## From-imports -/

def fromLines : List Node := block.filter fun line => (importOf line).kind == .importFrom

def isStarLine : Bool := ((importOf line).get .names).kind == .importStar

def fromLine (names : Node) (leading : List Node) : Node :=
  let dots := (module.toList.takeWhile (· == '.')).length
  let rest := (module.drop dots).toString
  lineOf leading (make .importFrom [(.relative, seq (List.replicate dots (make .dot []))),
    (.module, if rest.isEmpty then absent else ofDotted rest),
    (.names, names)])

def starImports : List Node :=
  let gathered := gather moduleOn (fun line _ => commentsAbove line) lines
  gathered.map fun (module, comments) => fromLine module (fresh .importStar) comments

def namesLine : Node :=
  let comma := make .comma [(.after, blank " ")]
  let aliases := names.mapIdx fun i (e : String × Option String) =>
    make .importAlias [(.name, ofName e.1), (.asname, asPart e.2), (.comma, if i + 1 == names.length then auto else comma)]
  fromLine module (seq aliases) leading

def fromImport : Except Fault Node := do
  return namesLine module (← Text.sortNaturally (fun (e : String × Option String) => e.1) names) leading

structure FromGroup where
  comments : List (List Node) := []
  names : List (String × Option String) := []

def FromGroup.add (g : FromGroup) : FromGroup where
  comments := addComments (commentsAbove line) g.comments
  names := (g.names ++ (importOf line).aliases.map aliasPair).eraseDups

def nameImports : Except Fault (List Node) :=
  let gathered := gather moduleOn (fun line old => FromGroup.add line (old.getD {})) lines
  gathered.mapM fun (module, g) => fromImport module g.names (commentLines g.comments)

def fromImports : Except Fault (List Node) := do
  return starImports (lines.filter isStarLine) ++ (← nameImports (lines.filter (! isStarLine ·)))

/-! ## Blocks -/

def inSection (s : Section) (lines : List Node) : Except Fault (List Node) :=
  Text.sortNaturally moduleOn (lines.filter fun line => place (moduleOn line) == s)

def inSections : Except Fault (List (List Node)) := Section.inOrder.mapM fun s => inSection place s lines

def spaced : Node := line.setList .leadingLines (fresh .emptyLine :: line.list .leadingLines)

def spacedSection : List Node → List Node
  | [] => []
  | line :: rest => spaced line :: rest

def stacked (sections : List (List Node)) : List Node :=
  match sections.filter (! ·.isEmpty) with
  | [] => []
  | first :: rest => first ++ rest.flatMap spacedSection

/-- Put a block in order: section by section. -/
def orderBlock : Except Fault (List Node) := do
  let froms ← fromImports (fromLines block)
  let plain ← inSections place (plainImports (plainLines block))
  return stacked (plain.zipWith (· ++ ·) (← inSections place froms))

/-- The ordered block, with what stood above the old one. -/
def anchored : Except Fault (List Node) := do
  match block, ← orderBlock place block with
  | anchor :: _, first :: rest =>
    return first.setList .leadingLines ((splitLeading anchor).1 ++ first.list .leadingLines) :: rest
  | _, _ => .error .outOfRange

/-- Does the ordered block differ from the old one, as far as both go? -/
def isReordered (ordered : List Node) : Bool := ! (block.zip ordered).all fun (a, b) => a.same b

/-- What becomes of the lines of blocks: the new block stands in the place of the first line, and the others go. -/
def blockEdits (bs ordered : List (List Node)) : List (Nat × Replacement) :=
  let heads := (bs.zip ordered).filterMap fun (b, o) => (b.head?.bind mark).map fun m => (m, Replacement.whole (.splice o))
  let gone := (bs.flatMap (·.drop 1)).filterMap fun n => n.mark.map fun m => (m, Replacement.whole .drop)
  heads ++ gone

def orderBlocks (bs : List (List Node)) (module : Node) : Except Fault (Node × List Bool) := do
  let ordered ← bs.mapM (anchored place)
  return (← replaceAll (blockEdits bs ordered) module, (bs.zip ordered).map fun (b, o) => isReordered b o)

def orderModule (module : Node) : Except Fault Node := do
  let module := module.numbered
  let bs := blocks module
  if bs.isEmpty then return module
  let (new, _) ← orderBlocks place bs module
  return new

end Mender.Import
