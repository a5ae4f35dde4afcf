import Mender.Import.Add
import Mender.Import.Unused

/-!
# Removing imports that an edit made superfluous

When an expression is replaced, the imports that it needed may no longer be needed by anything. They
are scheduled by looking up the names in the expression (`itemsOf`), and those that turn out to be
unused afterwards are removed (`removeImports`). Imports that nobody scheduled stay, used or not.
-/

namespace Mender.Import

open Syntax Scope

def scopesAround (s : Scopes) : Nat → Nat → List Nat
  | 0, scope => [scope]
  | fuel + 1, scope =>
    if scope == Scopes.builtinScope then [scope]
    else scope :: scopesAround s fuel (s.frame scope).parent

def itemsNamed (statement : Node) (name : String) : Except Fault (List Item) := do
  let chosen := statement.aliases.filter fun a =>
    let known := (a.importedAs?).getD a.importedName
    name == known || name.startsWith (known ++ ".")
  if statement.kind == .importStatement then
    return chosen.map fun a => ⟨a.importedName, none, a.importedAs?⟩
  else if (statement.get .names).kind == .importStar then return []
  else match Add.absoluteModule? statement with
    | none => .error (.general "Cannot look up absolute module from relative import!")
    | some module => return chosen.map fun a => ⟨module, some a.importedName, a.importedAs?⟩

def itemsOf (f : Facts) (n : Node) : Except Fault (List Item) := do
  let names := n.nodes.filter (·.kind == .name)
  let found ← names.mapM fun name =>
    match f.fault, f.scopes.scope? name with
    | some e, _ => .error e
    | none, none => return []
    | none, some scope => do
      let bindings := (scopesAround f.scopes f.scopes.frames.size scope).flatMap fun s => f.scopes.bound s name.text
      let items ← (bindings.filterMap f.importOf?).mapM fun s => itemsNamed s name.text
      return items.flatten
  return found.flatten

namespace Remove

variable (items : List Item)

/-- The alias under which a module is scheduled. Of several the last counts. -/
def moduleItem? (module : String) : Option Item := items.reverse.find? fun i => i.object.isNone && i.module == module

def isScheduled (statement a : Node) : Bool :=
  if statement.kind == .importStatement then (moduleItem? items a.importedName).any (·.asName == a.importedAs?)
  else (Add.absoluteModule? statement).any fun module => items.contains ⟨module, some a.importedName, a.importedAs?⟩

/-- The blank in front of what follows a removed alias. Comment lines that stood behind the alias take
the place of those in front of it. -/
def mergeBlanks (before after : Node) : Node :=
  if after.kind != .parenthesizedWhitespace then before
  else if before.kind != .parenthesizedWhitespace then after
  else before.setList .emptyLines
    ((after.list .emptyLines).filter fun (l : Node) => (l.get .comment).isPresent)

/-- Aliases that are kept, the last one first, with the opening parenthesis. -/
structure Kept where
  aliases : List Node := []
  lpar : Node

def Kept.next (isGone : Node → Bool) (k : Kept) (a : Node) : Kept :=
  if ! isGone a then { k with aliases := a :: k.aliases }
  else
    let comma := a.get .comma
    if comma.kind != .comma then k
    else
      match k.aliases with
      | p :: rest =>
        let c := p.get .comma
        if c.kind == .comma then
          { k with aliases := p.set .comma (c.set .after (mergeBlanks (c.get .after) (comma.get .after))) :: rest }
        else k
      | [] =>
        if k.lpar.kind == .leftParen then
          { k with lpar := k.lpar.set .after (mergeBlanks (k.lpar.get .after) (comma.get .after)) }
        else k

def closeAliases (before kept : List Node) : List Node :=
  let wasLast := match before.getLast?, kept.getLast? with
    | some a, some b => a.identical b
    | _, _ => false
  if wasLast then kept else endAliases kept

def removing (marks : List Nat) : Pass Unit where
  leave old new :=
    let isGone := fun (a : Node) => isScheduled items old a && isMarked marks a
    if (old.kind == .importStatement || old.kind == .importFrom) &&
        (old.get .names).kind != .importStar && old.aliases.any isGone then
      let kept := old.aliases.foldl (Kept.next isGone) { lpar := new.get .lpar }
      let aliases := kept.aliases.reverse
      if aliases.isEmpty then pure .drop
      else do
        let new := if old.kind == .importFrom then new.set .lpar kept.lpar else new
        return .keep (← (new.setList .names (closeAliases old.aliases aliases)).sound)
    else pure (.keep new)

end Remove

def removeImports (items : List Item) (module : Node) : Except Fault Node := do
  let module := module.numbered
  let f := Facts.of module
  match f.fault with
  | some e => .error e
  | none =>
    let marks := (← unused f).filterMap fun e => e.1.mark
    (Remove.removing items marks).apply module

end Mender.Import
