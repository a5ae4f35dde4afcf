import Mender.Scope.Gather

/-!
# What is known about a module

`Facts` holds, for every node of a numbered module, its position, the node around it and its scope.
Questions are asked by mark: an edited node has none, and nothing is known about it.
-/

namespace Mender.Scope

open Syntax

/-- What is known about the nodes of a module, by their marks. -/
structure Facts where
  module : Node
  nodes : Array Node
  spans : Array Span
  parents : Array (Option Nat)
  scopes : Scopes
  /-- why nothing is known about scopes -/
  fault : Option Fault

namespace Facts

mutual

def parentMarks (parent : Option Nat) : Node → List (Option Nat)
  | .mk k _ ps m => if k.isFiller then parentMarksOf parent ps else parent :: parentMarksOf m ps

def parentMarksOf (parent : Option Nat) : List Node → List (Option Nat)
  | [] => []
  | p :: ps => parentMarks parent p ++ parentMarksOf parent ps

end

def of (module : Node) : Facts :=
  let scopes := Scopes.ofModule module
  { module := module
    nodes := module.nodes.toArray
    spans := module.spans
    parents := (parentMarks none module).toArray
    scopes := match scopes with
      | .ok s => s
      | .error _ => ⟨#[], #[], #[], #[]⟩
    fault := match scopes with
      | .ok _ => none
      | .error f => some f }

variable (statement : Node) (f : Facts) (n : Node) (name : String)

def node? (mark : Nat) : Option Node := f.nodes[mark]?

/-- Where a node stands. -/
def span : Except Fault Span :=
  match n.mark.bind (f.spans[·]?) with
  | some s => .ok s
  | none => .error .unknownNode

def line (f : Facts) (n : Node) : Except Fault Nat := return (← f.span n).start.line

def parent? : Option Node := n.mark.bind fun m => (f.parents.getD m none).bind f.node?

def parent : Except Fault Node :=
  match f.parent? n with
  | some p => .ok p
  | none => .error .unknownNode

def scope (f : Facts) (n : Node) : Except Fault Nat :=
  match f.scopes.scope? n with
  | some s => .ok s
  | none => .error .unknownNode

/-! ## Bindings -/

/-- The bindings that a node may refer to: those of the first access in its scope that goes by its
name. -/
def assignments : Except Fault (List Binding) := do
  let scope ← f.scope n
  match f.scopes.accessesOf scope n with
  | a :: _ => return f.scopes.referents a
  | [] => return []

def single? : Except Fault (Option Binding) := do
  match ← f.assignments n with
  | [b] => return some b
  | _ => return none

def accesses : List Access :=
  match f.scopes.scope? n with
  | some scope => f.scopes.accessesOf scope n
  | none => []

def importOf? (b : Binding) : Option Node :=
  match b.origin with
  | .imported m => f.node? m
  | _ => none

def aliasNamed? : Option Node := statement.aliases.find? fun a => a.importedAs? == some name || a.importedName == name

def importBase (asName : Node) : String :=
  if statement.kind == .importStatement then asName.importedName
  else statement.moduleName ++ "." ++ asName.importedName

def importedName : Except Fault String := do
  match ← f.single? n with
  | some b =>
    match f.importOf? b with
    | some statement =>
      if b.name == n.text then
        match aliasNamed? statement b.name with
        | some a => return importBase statement a
        | none => return n.text
      else return n.text
    | none => return n.text
  | none => return n.text

/-- The full name of an imported thing. -/
def baseName? (f : Facts) : Node → Except Fault (Option String)
  | .mk .name t ps m => some <$> f.importedName (.mk .name t ps m)
  | .mk .member _ [_, value, _, attr, _] _ => do
    match ← f.baseName? value with
    | some name => return if name.isEmpty then none else some (name ++ "." ++ attr.text)
    | none => return none
  | .mk .call _ [_, func, _, _, _, _] _ => f.baseName? func
  | _ => return none

def aliasFor? (f : Facts) (name : String) : Node → Except Fault (Option String)
  | .mk .name t ps m => do
    match ← f.single? (.mk .name t ps m) with
    | some b =>
      match f.importOf? b with
      | some statement =>
        match statement.aliases.find? (·.importedName == name) with
        | some a => return a.importedAs?
        | none => return none
      | none => return none
    | none => return none
  | .mk .member _ [_, value, _, _, _] _ => f.aliasFor? name value
  | .mk .call _ [_, func, _, _, _, _] _ => f.aliasFor? name func
  | _ => return none

def firstImport? (f : Facts) : List Node → Except Fault (Option (Node × Node))
  | [] => return none
  | n :: rest =>
    if n.kind == .name || n.kind == .member then do
      match ← f.single? n with
      | some b =>
        match (f.importOf? b).bind fun s => (aliasNamed? s b.name).map fun a => (s, a) with
        | some found => return some found
        | none => f.firstImport? rest
      | none => f.firstImport? rest
    else f.firstImport? rest

def importedFrom? : Except Fault (Option (Node × Node)) := f.firstImport? n.leftExpressions

/-- The alias of a module that is imported under another name and begins an access. -/
def aliasedModule? : Except Fault (Option String) := do
  match ← f.importedFrom? n with
  | some (statement, a) =>
    if statement.kind == .importStatement && a.importedName == name then return a.importedAs?
    else return none
  | none => return none

def isBuiltinCall (call : Node) : Except Fault Bool := do
  match ← f.single? call with
  | some b => return b.origin == .builtin && (call.get .func).kind == .name
  | none => return false

/-- The names in the nodes that bind something at the top level. -/
def usedNames : List String :=
  let tops := f.scopes.bindings.toList.filter (·.scope == Scopes.moduleScope)
  tops.flatMap fun b =>
    let mark := match b.origin with
      | .imported m => some m
      | .defined m => some m
      | .builtin => none
    match mark.bind f.node? with
    | some n => (n.nodes.filter (·.kind == .name)).map (·.text)
    | none => []

/-! ## Surroundings -/

/-- The node and all nodes around it, innermost first; `fuel` bounds their number. -/
def pathTo (f : Facts) : Nat → Node → List Node
  | 0, n => [n]
  | fuel + 1, n =>
    n :: match f.parent? n with
      | some p => f.pathTo fuel p
      | none => []

def path : List Node := f.pathTo f.nodes.size n

def parentOfKind? (k : Kind) (n : Node) : Option Node := (f.parent? n).filter (·.kind == k)

def valueOf? : Except Fault (Option Node) := do
  let p ← f.parent n
  let value := match p.kind with
    | .annAssign | .assign | .namedExpr => p.get .value
    | .withItem => p.get .item
    | _ => Node.absent
  return if value.identical n then some p else none

/-- The assignment of which the expression is a target behind which an equals sign stands. -/
def targetOf? : Except Fault (Option Node) := do
  let p ← f.parent n
  if p.kind == .assignTarget then
    let g ← f.parent p
    return if [Kind.annAssign, .assign, .withItem, .namedExpr].contains g.kind then some g else none
  else return none

def calledAttribute? : Option Node :=
  (f.parentOfKind? .member n).bind fun a => (f.parentOfKind? .call a).map fun _ => a.get .attr

def functionAround? : Option Node := (f.path n).find? (·.kind == .functionDef)

def isUnder (outer : Node) : Bool := (f.path n).any (·.identical outer)

def assignedValue? : Option Node :=
  match n.kind with
  | .annAssign | .assign | .namedExpr => some (n.get .value)
  | .withItem => some (n.get .item)
  | _ => none

/-- Follow a name through assignments of names to the expression it stands for; `fuel` bounds the
number of names met, and more of them than the module has make a circle. -/
def resolveNameTo (f : Facts) : Nat → Node → Except Fault (Option Node)
  | 0, _ => .error .endless
  | fuel + 1, n => do
    match ← f.single? n with
    | none => return none
    | some b =>
      let node ← match b.origin with
        | .builtin => .error .noSuchPart
        | .imported m | .defined m => match f.node? m with
          | some n => .ok n
          | none => .error .unknownNode
      match ← f.targetOf? node with
      | none => return none
      | some assignment =>
        match assignedValue? assignment with
        | some value =>
          if value.kind == .name then f.resolveNameTo fuel value
          else return if value.isPresent then some value else none
        | none => return none

def resolve : Except Fault Node := do
  if n.kind == .name then
    match ← f.resolveNameTo (f.nodes.size + 1) n with
    | some e => return e
    | none => return n
  else return n

end Facts

end Mender.Scope
