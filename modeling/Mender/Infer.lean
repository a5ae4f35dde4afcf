import Mender.Syntax.Literal

/-!
# What an expression is worth

Simple facts about the value of an expression that follow from its shape alone.
-/

namespace Mender

open Syntax

variable (n : Node)

inductive BaseType where
  | number | list | string | bytes
  deriving DecidableEq, Repr, Inhabited

namespace BaseType

def numberFunctions : List String := ["int", "float", "abs", "len"]

/-- The type of an expression, if its shape settles it. Of a sum one operand settles it; of a
conditional both branches have to agree. -/
def infer? : Node → Option BaseType
  | .mk .integer _ _ _ | .mk .imaginary _ _ _ | .mk .float _ _ _ => some .number
  | .mk .call _ [_, .mk .name f _ _, _, _, _, _] _ =>
    if numberFunctions.contains f then some .number
    else if f == "str" then some .string
    else none
  | .mk .list _ _ _ | .mk .listComp _ _ _ => some .list
  | .mk .formattedString _ _ _ => some .string
  | .mk .simpleString t _ _ =>
    if (Literal.parts t).mark.toList.contains 'b' then some .bytes else some .string
  | .mk .concatenatedString _ [_, left, _, _, _] _ => infer? left
  | .mk .binaryOperation _ [_, left, .mk .add _ _ _, right, _] _ =>
    match infer? left with
    | some t => some t
    | none => infer? right
  | .mk .ifExp _ [_, body, _, _, _, _, _, orelse, _] _ =>
    if infer? body = infer? orelse then infer? body else none
  | _ => none

end BaseType

inductive Known where
  | text (s : String)
  | truth (b : Bool)
  deriving DecidableEq, Repr

/-- The value of a text literal or a name. Names spelled like truth values in any case are truth
values; all else is the empty text. -/
def literalValue : Known :=
  match n.kind with
  | .simpleString => .text (Literal.parts n.text).raw
  | .name =>
    let low := Text.lower n.text
    if low == "true" then .truth true
    else if low == "false" then .truth false
    else .text n.text
  | _ => .text ""

def targets : List Node :=
  match n.kind with
  | .annAssign => [n.get .target]
  | .assign => (n.list .targets).map (·.get .target)
  | .namedExpr => [n.get .target]
  | .withItem => if (n.get .asname).isPresent then [(n.get .asname).get .name] else []
  | _ => []

def assignsTrue : Bool := n.kind == .assign && (n.get .value).kind == .name && (n.get .value).text == "True"

end Mender
