import Mender.Syntax.Literal
import Mender.Syntax.Walk

/-!
# Tidying up texts
-/

namespace Mender.Edit

open Syntax

variable (n : Node)

def isEmptyText : Bool :=
  match n.kind with
  | .simpleString => (Literal.parts n.text).raw.isEmpty
  | .formattedString => (n.list .parts).isEmpty
  | _ => false

def emptyText : Node := Node.make .simpleString [] "\"\""

def withoutEmptySide : Node :=
  let left := n.get .left
  let right := n.get .right
  if isEmptyText left then if isEmptyText right then emptyText else right
  else if isEmptyText right then left
  else n

def emptyTexts : Pass Unit where
  leave old new :=
    match old.kind with
    | .formattedStringExpression =>
      let e := old.get .expression
      if e.kind == .simpleString && isEmptyText e then pure .drop else pure (.keep new)
    | .binaryOperation | .concatenatedString => pure (.keep (withoutEmptySide new))
    | _ => pure (.keep new)

def dropEmptyTexts : Except Fault Node := emptyTexts.apply n

def isPlainFString : Bool :=
  n.kind == .formattedString && (n.get .parts).kind == .seq &&
    (n.list .parts).all fun (p : Node) => p.kind == .formattedStringText

def textParts : Pass Unit where
  leave old new :=
    if isPlainFString old then do
      let text := String.join ((old.list .parts).map Node.text)
      return .keep (← (new.setList .parts [Node.leaf .formattedStringText text]).sound)
    else pure (.keep new)

/-- Make the text of each f-string without expressions one part. -/
def joinTextParts : Except Fault Node := textParts.apply n

end Mender.Edit
