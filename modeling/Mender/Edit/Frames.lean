import Mender.Syntax.Node

/-!
# Statements and the blocks they stand in

Statements stand in the blocks of a module, or in the blocks of other statements.
-/

namespace Mender.Edit

open Syntax

def isFrame (k : Kind) : Bool :=
  [.module, .indentedBlock, .simpleStatementLine, .simpleStatementSuite, .ifStatement, .elseClause, .whileLoop,
    .forLoop, .tryStatement, .exceptHandler, .finallyClause, .withStatement, .functionDef, .classDef].contains k

def isStatement (k : Kind) : Bool :=
  [.pass, .break, .continue, .returnStatement, .expr, .del, .assert, .assign, .annAssign, .augAssign, .raise, .global,
    .nonlocal, .importStatement, .importFrom, .ifStatement, .whileLoop, .forLoop, .tryStatement, .withStatement,
    .functionDef, .classDef].contains k

def isBlockPlace (s : Slot) : Bool := [.body, .orelse, .handlers, .finalbody].contains s

def isRunPlace (f : Fill) : Bool := f == .none || f == .body

mutual

/-- The nodes that stand in the blocks of a tree, in the order of the source. -/
def standing : Node → List Node
  | .mk k t ps m => .mk k t ps m :: if isFrame k then standingOf k.shape ps else []

def standingOf : List (Slot × Fill) → List Node → List Node
  | (s, f) :: places, .mk k t ps m :: rest =>
    (if ! isBlockPlace s then [] else if isRunPlace f then if k = .seq then standingRun ps else []
      else if k.isFiller then [] else standing (.mk k t ps m)) ++ standingOf places rest
  | _, _ => []

def standingRun : List Node → List Node
  | [] => []
  | n :: ns => standing n ++ standingRun ns

end

end Mender.Edit
