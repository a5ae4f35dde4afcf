import Mender.Scope.Basic
import Mender.Syntax.Literal
import Mender.Syntax.Read

/-!
# Finding scopes

`Scopes.ofModule` goes through a module once, opens the scopes, records every binding and every use
of a name, and then settles which name each use asks for.

The order in which the parts of a node are met is the order of evaluation as far as names are
concerned: the first iterable of a comprehension comes before the comprehension's own scope, defaults
and annotations of parameters belong to the scope around the function, and so on.
-/

namespace Mender.Scope

open Syntax

inductive Use where
  | load | store
  deriving DecidableEq, Repr

structure Pending where
  name : String
  node : Option Nat
  dotted : Option Node
  scope : Nat
  index : Nat
  deriving Inhabited

structure Survey where
  scopes : Scopes
  pending : Array Pending := #[]
  here : Nat := Scopes.moduleScope
  /-- the outermost dotted name being looked at, one for each call around -/
  dotted : List (Option Node) := [none]
  typeHint : List Bool := [false]
  hint : List Bool := [false]
  /-- how many subscripts around hold plain values only -/
  plain : Nat := 0
  fault : Option Fault := none

namespace Survey

variable (v : Survey) (n : Node) (name : String)

def setScope (scope : Option Nat) : Survey :=
  match n.mark with
  | some m => { v with scopes.scopeOf := v.scopes.scopeOf.setIfInBounds m scope }
  | none => v

def note : Survey := v.setScope n v.here

def count (v : Survey) : Survey :=
  { v with scopes.frames := v.scopes.frames.modify v.here fun f => { f with count := f.count + 1 } }

def targetTo (v : Survey) : Nat → Nat → String → Nat
  | 0, scope, _ => scope
  | fuel + 1, scope, name =>
    match (v.scopes.frame scope).redirects.find? (·.1 == name) with
    | some (_, target) => v.targetTo fuel target name
    | none => scope

def bind (origin : Origin) : Survey :=
  let target := v.targetTo v.scopes.frames.size v.here name
  let b : Binding := ⟨name, target, (v.scopes.frame target).count, origin, v.scopes.bindings.size⟩
  { v with scopes.bindings := v.scopes.bindings.push b }

def define (name node : Node) : Survey := v.bind name.text (.defined (node.mark.getD 0))

def use (node : Option Nat) : Survey :=
  let p : Pending := ⟨name, node, v.dotted.headD none, v.here, (v.scopes.frame v.here).count⟩
  { v with pending := v.pending.push p }

def inScope (scope : Nat) (f : Survey → Survey) : Survey := { f { v with here := scope } with here := v.here }

def within (level : Level) (f : Survey → Survey) : Survey :=
  let frames := v.scopes.frames
  { v with scopes.frames := frames.push { level, parent := v.here } }.inScope frames.size f

def redirect (target : Nat) : Survey :=
  { v with scopes.frames := v.scopes.frames.modify v.here fun f =>
      { f with redirects := (name, target) :: f.redirects.filter (·.1 != name) } }

def redirectAll (items : List Node) (target : Nat) : Survey :=
  items.foldl (fun v i => v.redirect (i.get .name).text target) v

end Survey

structure Look where
  node : Node
  go : Use → Survey → Survey
  inner : List (Use → Survey → Survey)

def Look.nothing : Look := ⟨Node.absent, fun _ v => v, []⟩

variable (n : Node) (v : Survey)

def Look.all (ls : List Look) (u : Use) (v : Survey) : Survey := ls.foldl (fun v l => l.go u v) v

def Look.at (l : Look) (s : Slot) (u : Use) (v : Survey) : Survey :=
  match (l.node.kind.slots.idxOf? s).bind (l.inner[·]?) with
  | some go => go u v
  | none => v

/-- Kinds of nodes after which later uses see the names bound in them. -/
def bindsNames : Kind → Bool
  | .annAssign | .asName | .assign | .augAssign | .classDef | .compFor | .functionDef | .global
  | .importStatement | .importFrom | .namedExpr | .nonlocal | .parameters | .withItem => true
  | _ => false

def leave : Survey :=
  let v := v.note n
  if bindsNames n.kind then v.count else v

def bindImport : Survey :=
  n.aliases.foldl (fun v a => a.namesBound.foldl (fun v name => v.bind name (.imported (n.mark.getD 0))) v) v

/-- Look at a comprehension whose elements are at the given places. Its first iterable belongs to the
scope around it. -/
def lookComprehension (loop : Look) (elements : List Look) (u : Use) (v : Survey) : Survey :=
  ((loop.at .iter u v).note loop.node).within .comprehension fun v =>
    Look.all elements u (loop.at .innerFor u (loop.at .ifs u (loop.at .target .store v).count))

def look (at_ : Nat → Option Node) (quoted : String → Survey → Survey) (n : Node)
    (parts : List Look) (u : Use) (v : Survey) : Survey :=
  let part := fun (s : Slot) => ((n.kind.slots.idxOf? s).bind (parts[·]?)).getD Look.nothing
  let go := fun (s : Slot) => (part s).go
  let annotated := fun (text : Option String) (v : Survey) =>
    if (v.hint.headD false || v.typeHint.headD false) && v.plain == 0 then
      (text.filter (! ·.isEmpty)).map (quoted · v)
    else none
  leave n <| match n.kind with
  | .importStatement | .importFrom => bindImport n v
  | .member =>
    match v.dotted with
    | none :: outer =>
      let v := go .value .load { v with dotted := some n :: outer }
      { v with dotted := none :: v.dotted.drop 1 }
    | _ => go .value .load v
  | .call =>
    let v := { v with dotted := none :: v.dotted }
    let names := v.scopes.qualified at_ v.here n
    let args := (part .args).inner
    let given := fun (fs : List (Use → Survey → Survey)) (v : Survey) => fs.foldl (fun v f => f u v) v
    let hinted := fun (fs : List (Use → Survey → Survey)) (v : Survey) =>
      let v := given fs { v with hint := true :: v.hint }
      { v with hint := v.hint.drop 1 }
    let v :=
      if names.contains "typing.NewType" || names.contains "typing.TypeVar" then
        hinted (args.drop 1) (go .func u v)
      else if names.contains "typing.cast" then
        given (args.drop 1) (hinted (args.take 1) (go .func u v))
      else Look.all parts u v
    { v with dotted := v.dotted.drop 1 }
  | .typeHint =>
    let v := Look.all parts u { v with typeHint := true :: v.typeHint }
    { v with typeHint := v.typeHint.drop 1 }
  | .subscript =>
    let names := v.scopes.qualified at_ v.here (n.get .value)
    let isHint := names.any fun q => Text.begins "typing." q || Text.begins "typing_extensions." q
    let isPlain := names.contains "typing.Literal" || names.contains "typing_extensions.Literal"
    let v := if isHint then { v with hint := true :: v.hint } else v
    let v := if isPlain then { v with plain := v.plain + 1 } else v
    let v := Look.all parts .load v
    let v := if isPlain then { v with plain := v.plain - 1 } else v
    if isHint then { v with hint := v.hint.drop 1 } else v
  | .simpleString => (annotated (Literal.value? n.text) v).getD v
  | .concatenatedString => (annotated (Literal.ofNode? n) v).getD (Look.all parts u v)
  | .name =>
    match u with
    | .store => v.define n n
    | .load => v.use n.text n.mark
  | .assign => go .value u (go .targets .store v)
  | .annAssign => go .value u (go .typeHint u (go .target .store v))
  | .augAssign | .namedExpr => go .value u (go .target .store v)
  | .asName => go .name .store v
  | .del => go .target .load v
  | .functionDef =>
    let v := (v.define (n.get .name) n).note (n.get .name)
    let v := v.within .function fun v => go .body .load (go .params .load v)
    go .returns .load (go .decorators .load v)
  | .lambda => v.within .function fun v => go .body .load (go .params .load v)
  | .param =>
    let name := n.get .name
    let v := (v.define name name).note name
    v.inScope (v.scopes.frame v.here).parent fun v => go .typeHint .load (go .default .load v)
  | .arg => go .value u v
  | .classDef =>
    let v := (v.define (n.get .name) n).note (n.get .name)
    let v := go .keywords .load (go .bases .load (go .decorators .load v))
    v.within .classBody fun v => (go .body .load v).setScope (n.get .body) none
  | .global => if v.here == Scopes.moduleScope then v else v.redirectAll (n.list .names) Scopes.moduleScope
  | .nonlocal =>
    if v.here == Scopes.moduleScope then
      let why := Fault.unsupported "nonlocal declaration not allowed at module level"
      { v with fault := some (v.fault.getD why) }
    else v.redirectAll (n.list .names) (v.scopes.frame v.here).parent
  | .forLoop => go .orelse u (go .body u (go .iter u (go .target .store v).count))
  | .listComp | .setComp | .generatorExp => lookComprehension (part .forIn) [part .elt] u v
  | .dictComp => lookComprehension (part .forIn) [part .key, part .value] u v
  | .compFor => go .innerFor u (go .ifs u (go .iter u (go .target .store v)))
  | _ => Look.all parts u v

mutual

def survey (at_ : Nat → Option Node) (quoted : String → Survey → Survey) : Node → Look
  | .mk k t ps m =>
    let parts := surveys at_ quoted ps
    { node := .mk k t ps m
      go :=
        if k == .seq then Look.all parts
        else if k.isFiller then fun _ v => v
        else look at_ quoted (.mk k t ps m) parts
      inner := parts.map (·.go) }

def surveys (at_ : Nat → Option Node) (quoted : String → Survey → Survey) : List Node → List Look
  | [] => []
  | p :: rest => survey at_ quoted p :: surveys at_ quoted rest

end

/-- Look at the text of an annotation; what cannot be read is passed over. `fuel` bounds how deep
quoted texts hold quoted texts. -/
def surveyText (at_ : Nat → Option Node) : Nat → String → Survey → Survey
  | 0, _, v => v
  | fuel + 1, text, v =>
    match Node.ofModule? text with
    | some module => (survey at_ (surveyText at_ fuel) module.cleared).go .load v
    | none => v

/-- Settle which name a use asks for: the longest beginning of its dotted name that is bound. -/
def settle (s : Scopes) (number : Nat) (p : Pending) : Access :=
  let names := (p.dotted.map Node.dottedNames).getD []
  match names.find? fun e => s.contains p.scope e.1 with
  | some (name, node) => ⟨name, p.scope, p.index, if p.node.isNone then none else node.mark, number⟩
  | none => ⟨(names.getLast?.map (·.1)).getD p.name, p.scope, p.index, p.node, number⟩

private def longestLiteral : Nat :=
  n.nodes.foldl (fun acc m => if m.kind == .simpleString then max acc m.text.length else acc) 0

def Scopes.ofModule (module : Node) : Except Fault Scopes :=
  let nodes := module.nodes.toArray
  let at_ := fun (m : Nat) => nodes[m]?
  let start : Survey := { scopes := {
    frames := #[{ level := .builtin, parent := 0 }, { level := .module, parent := 0 }]
    bindings := #[]
    scopeOf := Array.replicate nodes.size none } }
  let v := (survey at_ (surveyText at_ (longestLiteral module)) module).go .load start
  match v.fault with
  | some f => .error f
  | none => .ok { v.scopes with accesses := v.pending.mapIdx fun i p => settle v.scopes i p }

end Mender.Scope
