import Mender.Scope.Facts
import Mender.Syntax.Walk

/-!
# Unused imports

An import is in use if something refers to it: a name in its scope, an entry of `__all__`, or a name
inside a quoted annotation.
-/

namespace Mender.Import

open Syntax Scope

variable (marks : List Nat) (a : Node) (f : Facts) (n module : Node)

/-! ## Names that are exported -/

structure ExportSearch where
  names : List String := []
  lists : List Nat := []
  around : List Nat := []

def isListLike : Bool := [Kind.list, .tuple, .set].contains n.kind

def exportLists (target value : Node) : List Node :=
  if target.fullName? == some "__all__" then
    if isListLike value then [value] else []
  else if target.kind == .tuple && value.kind == .tuple then
    let pairs := (target.list .elements).zip (value.list .elements)
    match pairs.find? fun (t, v) =>
        (t.get .value).fullName? == some "__all__" && isListLike (v.get .value) with
    | some (_, v) => [value, v.get .value]
    | none => []
  else []

variable (s : ExportSearch)

/-- Note the lists assigned to `__all__` and go into the assignment only if there are some. -/
def ExportSearch.assigned (lists : List Node) : ExportSearch × Bool :=
  ({ s with lists := lists.filterMap Node.mark ++ s.lists }, ! lists.isEmpty)

def ExportSearch.enter : ExportSearch × Bool :=
  match n.kind with
  | .annAssign => s.assigned (if (n.get .value).isPresent then exportLists (n.get .target) (n.get .value) else [])
  | .augAssign =>
    let value := n.get .value
    s.assigned (if (n.get .target).kind == .name && (n.get .target).text == "__all__" &&
      (n.get .operator).kind == .addAssign && (value.kind == .list || value.kind == .tuple)
      then [value] else [])
  | .assign =>
    s.assigned (((n.list .targets).map fun (t : Node) => exportLists (t.get .target) (n.get .value)).find?
      (! ·.isEmpty) |>.getD [])
  | .list | .tuple | .set =>
    match n.mark with
    | some m => if s.lists.contains m then ({ s with around := m :: s.around }, true) else (s, false)
    | none => (s, false)
  | .simpleString | .concatenatedString =>
    match Literal.ofNode? n with
    | some name => (if s.around.isEmpty then s else { s with names := s.names ++ [name] }, false)
    | none => (s, false)
  | _ => (s, true)

def ExportSearch.leave : ExportSearch :=
  match n.mark with
  | some m => { s with around := s.around.filter (· != m) }
  | none => s

def exportedNames : List String := (module.visit ExportSearch.enter ExportSearch.leave {}).names

/-! ## Names in quoted annotations -/

structure QuoteSearch where
  names : List String := []
  /-- the annotations and type variables around the current node -/
  around : List Nat := []
  /-- has a quoted annotation been met that cannot be read? -/
  unreadable : Bool := false

def annotatingFunctions : List String := ["typing.TypeVar"]

def QuoteSearch.read (s : QuoteSearch) (text : String) : QuoteSearch :=
  match Node.ofModule? text with
  | none => { s with unreadable := true }
  | some module =>
    { s with names := s.names ++ module.nodes.flatMap fun n =>
        match n.kind with
        | .name => [n.text]
        | .member => n.dottedNames.map fun (e : String × Node) => e.1
        | _ => [] }

def qualifiedNames : List String :=
  match f.scopes.scope? n with
  | some scope => f.scopes.qualified f.node? scope n
  | none => []

/-- Look at a node on the way down. Calls are passed over unless they make type variables. -/
def QuoteSearch.enter (s : QuoteSearch) : QuoteSearch × Bool :=
  match n.kind with
  | .typeHint => ({ s with around := n.mark.getD 0 :: s.around }, true)
  | .call =>
    if (qualifiedNames f n).any annotatingFunctions.contains then
      ({ s with around := n.mark.getD 0 :: s.around }, true)
    else (s, false)
  | .simpleString | .concatenatedString =>
    match Literal.ofNode? n with
    | some text => (if s.around.isEmpty then s else s.read text, false)
    | none => (s, false)
  | _ => (s, true)

def QuoteSearch.leave (s : QuoteSearch) : QuoteSearch :=
  match n.mark, s.around with
  | some m, top :: rest => if m == top then { s with around := rest } else s
  | _, _ => s

def quotedNames : Except Fault (List String) :=
  let s := f.module.visit (QuoteSearch.enter f) QuoteSearch.leave {}
  if s.unreadable then .error .unreadable else .ok s.names

/-! ## Aliases -/

def candidates : List Node :=
  module.nodes.filter fun n =>
    match n.kind with
    | .importStatement => true
    | .importFrom =>
      (n.get .module).isPresent && (n.get .names).kind != .importStar &&
        ! ((n.get .module).kind == .name && (n.get .module).text == "__future__")
    | _ => false

def isInUse (s : Scopes) (mentioned : List String) (scope : Nat) (a : Node) : Bool :=
  a.namesBound.any fun name =>
    mentioned.contains name ||
      (s.lookup scope name).any fun b => match b.origin with
        | .imported _ => ! (s.references b).isEmpty
        | _ => false

def unused : Except Fault (List (Node × Node)) := do
  let quoted ← quotedNames f
  let mentioned := exportedNames f.module ++ quoted
  let found ← (candidates f.module).mapM fun statement => do
    let scope ← f.scope statement
    return (statement.aliases.filter fun a => ! isInUse f.scopes mentioned scope a).map
      fun a => (a, statement)
  return found.flatten

def isMarked : Bool := (a.mark.map marks.contains).getD false

def withoutComma : Node := a.set .comma Node.auto

def endAliases : List Node → List Node
  | [] => []
  | [a] => [withoutComma a]
  | a :: rest => a :: endAliases rest

def dropping : Pass Unit where
  leave old new :=
    if (old.kind == .importStatement || old.kind == .importFrom) &&
        (old.get .names).kind != .importStar then
      let kept := old.aliases.filter fun a => ! isMarked marks a
      if kept.isEmpty then pure .drop
      else if kept.length != old.aliases.length then do
        return .keep (← (new.setList .names (endAliases kept)).sound)
      else pure (.keep new)
    else pure (.keep new)

def dropAliases (aliases : List Node) (module : Node) : Except Fault Node :=
  (dropping (aliases.filterMap Node.mark)).apply module

def dropUnused : Except Fault Node := do
  let f := Facts.of module
  match f.fault with
  | some e => .error e
  | none => dropAliases ((← unused f).map (·.1)) module

/-! ## Imports of a module's own scope -/

def dropGlobalImports : Except Fault (Node × List Node) := do
  let f := Facts.of module
  match f.fault with
  | some e => .error e
  | none =>
    let pass : Pass (List Node) := {
      leave := fun old new =>
        if old.kind == .importStatement || old.kind == .importFrom then do
          let scope ← f.scope old
          if scope == Scopes.moduleScope then
            modify (· ++ [old])
            return .drop
          else return .keep old
        else return .keep new }
    pass.run module []

end Mender.Import
