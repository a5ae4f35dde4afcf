import Mender.Codemod.Basic

/-!
# Locks that guard nothing

A lock made in the head of a `with` statement is a new one each time and guards nothing. It gets a variable
of its own in front of the statement. The variable is named after the function that makes the lock, with a
number behind it if the name is taken.
-/

namespace Mender.Codemod

open Syntax

def numberedName (base : String) (i : Nat) : String := base ++ "_" ++ toString i

/-- A name that is not taken: the base name, or the one with the least number from 1 on that is free. Among
one more numbers than there are taken names one is always free. -/
def freshName (taken : List String) (base : String) : String :=
  if taken.contains base then
    (((List.range (taken.length + 1)).map fun i => numberedName base (i + 1)).find?
      (! taken.contains ·)).getD base
  else base

def managerName (item : Node) : Except Fault String :=
  let maker := item.get .item
  if ! maker.has .func then .error .noSuchPart
  else match Edit.functionName? maker with
    | some f => .ok (Text.lower f.text)
    | none => .ok ""

namespace Task

def lockNames (t : Task) : Pass Notes where
  leave old new := do
    match old.kind with
    | .call | .assign =>
      if ← t.selects old then t.report old
      return .keep new
    | .withStatement =>
      match old.list .items, new.list .items with
      | [item], [newItem] =>
        if ! (← t.selects item) then return .keep old
        let base ← managerName item
        let text := freshName (t.facts.usedNames ++ (← get).newNames) base
        modify fun s => { s with newNames := s.newNames ++ [text] }
        let name ← Edit.name text
        let target := Node.make .assignTarget [(.target, name)]
        let assign := Node.make .assign [(.targets, Node.seq [target]), (.value, newItem.get .item)]
        let guard := Node.make .withItem [(.item, name), (.asname, newItem.get .asname)]
        return .splice [Node.make .simpleStatementLine [(.body, Node.seq [assign])], ← (new.setList .items [guard]).sound]
      | _, _ => return .keep old
    | _ => return .keep new

/-- The codemod. -/
def nameLocks (t : Task) : Work.Result := t.withScopes (t.command t.lockNames)

end Task

end Mender.Codemod
