import Mender.Infer
import Mender.Sql.Quote

/-!
# Expressions inside SQL literals

A query is a list of leaves: texts and expressions whose values are put together. An SQL literal that begins
in one leaf and ends in another has the leaves between them for its content. If one of these can be
anything, its value can end the literal and go on with SQL of its own.
-/

namespace Mender.Sql

open Syntax

/-- A piece of a query: a node, and for texts the letters that mark the literal with its raw text. -/
structure Leaf where
  node : Node
  text : Option (String × List Char)

namespace Leaf

def isRaw (mark : String) : Bool := mark.toList.contains 'r'

variable (l : Leaf)

def isText : Bool :=
  match l.text with
  | some (mark, _) => ! mark.toList.contains 'b'
  | none => false

def quoteCount : Nat :=
  match l.text with
  | some (mark, raw) => if l.isText then (quoteSpans (isRaw mark) raw).length else 0
  | none => 0

/-- May an SQL literal begin in the leaf, given how many quotes of it belong to literals already? -/
def opens (parity : Nat) : Bool := l.isText && l.quoteCount % 2 == parity

def closes : Bool := l.quoteCount != 0

def isInjectable : Bool := (BaseType.infer? l.node).isNone

end Leaf

/-- An SQL literal: the leaf where it begins, those inside, and the leaf where it ends. -/
structure Injection where
  start : Leaf
  middle : List Leaf
  stop : Leaf

/-- The SQL literals with content that can be anything. A leaf in which one literal ends and another begins
is looked at twice: `parity` is 1 for a fresh leaf and 0 for one whose first quote has ended a literal. -/
def injectionsFrom (parity : Nat) : List Leaf → List Injection
  | [] => []
  | start :: rest =>
    if ! start.opens parity then injectionsFrom parity rest
    else
      let middle := rest.takeWhile (! ·.closes)
      match h : rest.drop middle.length with
      | [] => []
      | stop :: later =>
        let found := if middle.any (·.isInjectable) then [⟨start, middle, stop⟩] else []
        found ++ if stop.opens 0 then injectionsFrom 0 (stop :: later) else injectionsFrom 1 later
termination_by leaves => leaves.length
decreasing_by
  · simp
  all_goals
    have := congrArg List.length h
    simp only [List.length_drop, List.length_cons] at this ⊢
    omega

/-- The SQL literals of a query with content that can be anything. -/
def injections (query : List Leaf) : List Injection := injectionsFrom 1 query

end Mender.Sql
