import Mender.Codemod.Basic

/-!
# Idioms

Small corrections of how things are said in Python: what is deprecated, what does nothing, and what means
something else than it seems to.
-/

namespace Mender.Codemod

open Syntax Node

/-! ## Deprecated names -/

def settledFeatures : List String :=
  ["print_function", "unicode_literals", "division", "absolute_import", "generators", "nested_scopes",
    "with_statement", "generator_stop"]

def openFeatures : List String := ["annotations"]

def openAliases (aliases : List Node) : List Node := aliases.filter fun a => ! settledFeatures.contains (a.get .name).text

namespace Task

def dropSettledFeatures (t : Task) : Work.Result :=
  t.command {
    leave := fun old new => do
      if old.kind != .importFrom then return .keep new
      if (old.get .module).kind != .name || (old.get .module).text != "__future__" then return .keep new
      if (old.get .names).kind == .importStar then
        t.report old
        let names := openFeatures.map fun f => make .importAlias [(.name, ofName f)]
        return .keep (← (old.setList .names names).sound)
      t.report old
      match openAliases old.aliases with
      | [] => return .drop
      | names => return .keep (← (new.setList .names names).sound) }

def splitAbstractProperties (t : Task) : Work.Result :=
  t.withScopes (t.command {
    leave := fun old new => do
      if old.kind != .decorator then return .keep new
      if (← t.facts.baseName? (old.get .decorator)) != some "abc.abstractproperty" then return .keep old
      require "abc"
      t.release old
      t.report old
      return .splice [make .decorator [(.decorator, ofName "property"), (.trailing, new.get .trailing)],
        make .decorator [(.decorator, ofDotted "abc.abstractmethod")]] })

end Task

/-! ## Texts without anything to format -/

def plainText? (n : Node) : Option Node :=
  match n.kind, n.list .parts with
  | .formattedString, [.mk .formattedStringText text _ _] =>
    if Text.holds "\x7b\x7b" text || Text.holds "\x7d\x7d" text then none
    else
      let start := String.ofList ((n.get .start).text.toList.filter fun c => c != 'f' && c != 'F')
      some (make .simpleString [] (start ++ text ++ (n.get .finish).text))
  | _, _ => none

namespace Task

variable (t : Task)

def plainTexts : Work.Result :=
  t.command {
    leave := fun old new => do
      match plainText? new with
      | some plain =>
        t.report old
        return .keep plain
      | none => return .keep new }

/-! ## Comparing with what is not a number -/

def nanSides? (left target : Node) : Except Fault (Option (Node × Node)) := do
  let op := (target.get .operator).kind
  if op != .equal && op != .notEqual then return none
  let right := target.get .comparator
  let leftName ← t.facts.baseName? left
  let rightName ← t.facts.baseName? right
  if leftName == some "numpy.nan" then return some (left, right)
  else if rightName == some "numpy.nan" then return some (right, left)
  else return none

def askForNan : Work.Result :=
  t.withScopes (t.command {
    leave := fun old new => do
      if old.kind != .comparison then return .keep new
      if ! (← t.allows old) then return .keep new
      let [target] := old.list .comparisons | return .keep new
      let some (nan, other) ← t.nanSides? (old.get .left) target | return .keep new
      t.report old
      let module ← match ← t.facts.aliasFor? "numpy" nan with
        | some asName => pure asName
        | none =>
          require "numpy"
          t.release nan
          pure "numpy"
      let call ← Edit.setArgs (← Edit.expression (module ++ ".isnan()")) [Edit.arg other]
      let parens := [(Slot.lpar, old.get .lpar), (.rpar, old.get .rpar)]
      if (target.get .operator).kind == .notEqual then
        return .keep (← (make .unaryOperation ([(.operator, fresh .logicalNot), (.expression, call)] ++ parens)).sound)
      else return .keep (← (call.setAll parens).sound) })

end Task

/-! ## Exceptions that are made and forgotten -/

def isNameLike (n : Node) : Bool := n.kind == .name || n.kind == .member

def forgotten? (line : Node) : Option (Node × Node) :=
  match line.list .body with
  | [s] =>
    let value := s.get .value
    if s.kind != .expr then none
    else if isNameLike value then some (value, value)
    else if value.kind == .call && isNameLike (value.get .func) then some (value.get .func, s)
    else none
  | _ => none

namespace Task

def raiseForgotten (t : Task) : Work.Result :=
  t.withScopes (t.command {
    leave := fun old new => do
      if old.kind != .simpleStatementLine then return .keep new
      let some (name, exc) := forgotten? old | return .keep new
      let some full ← t.facts.baseName? name | return .keep new
      if ! Exceptions.names.contains full then return .keep new
      t.report old
      return .keep (← (new.setList .body [make .raise [(.exc, exc)]]).sound) })

end Task

/-! ## Lists that are made only to be gone through -/

def onceThrough : List String := ["any", "all", "sum", "min", "max"]

/-- The generator for a list comprehension that is the only argument of a call. -/
def asGenerator (comp : Node) : Node :=
  make .generatorExp [(.lpar, seq []), (.elt, comp.get .elt), (.forIn, comp.get .forIn), (.rpar, seq [])]

namespace Task

def generators (t : Task) : Pass Notes where
  leave old new := do
    if old.kind != .call then return .keep new
    let func := old.get .func
    if func.kind != .name || ! onceThrough.contains func.text then return .keep old
    if ! (← t.facts.isBuiltinCall old) then return .keep old
    match old.list .args with
    | [] => throw .outOfRange
    | first :: _ =>
      let value := first.get .value
      if value.kind != .listComp then return .keep old
      t.report old
      return .keep (← Edit.setArgs new [Edit.arg (asGenerator value)])

/-- Functions that go through their argument once get a generator. -/
def useGenerators (t : Task) : Work.Result := t.withScopes (t.command t.generators)

end Task

end Mender.Codemod
