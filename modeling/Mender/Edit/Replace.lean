import Mender.Syntax.Walk

/-!
# Replacing nodes

A list of replacements says what becomes of single nodes of a numbered module: another node, nothing,
several nodes, or the same node with some of its runs changed. All are carried out in one pass, from
the bottom up, so a node that holds replaced nodes is changed with its new parts.
-/

namespace Mender.Edit

open Syntax

inductive PlaceChange where
  | set (s : Slot) (part : Node)
  | append (s : Slot) (items : List Node)
  | insertFirst (s : Slot) (items : List Node)

inductive Replacement where
  | whole (e : Edit)
  | changed (cs : List PlaceChange)

def PlaceChange.apply (n : Node) : PlaceChange → Except Fault Node
  | .set s part => if n.has s then .ok (n.set s part) else .error .misfit
  | .append s items => extend n s (· ++ items)
  | .insertFirst s items => extend n s (items ++ ·)
where
  extend (n : Node) (s : Slot) (f : List Node → List Node) : Except Fault Node :=
    if ! n.has s then .error .noSuchPart
    else if (n.get s).kind == .seq then .ok (n.setList s (f (n.list s)))
    else .error .misfit

variable (rs : List (Nat × Replacement))

def replacementOf? (n : Node) : Option Replacement := n.mark.bind fun m => (rs.reverse.find? (·.1 == m)).map (·.2)

def replacing : Pass Unit where
  leave old new :=
    match replacementOf? rs old with
    | none => pure (.keep new)
    | some (.whole e) => pure e
    | some (.changed cs) => do
      let n ← cs.foldlM (fun n c => c.apply n) new
      return .keep (← n.sound)

/-- Carry out all replacements. -/
def replaceAll (module : Node) : Except Fault Node := (replacing rs).apply module

end Mender.Edit
