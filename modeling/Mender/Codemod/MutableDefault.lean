import Mender.Codemod.Basic

/-!
# Mutable defaults

A default that can change is shared by all calls of its function. It becomes `None`, and the function makes
a new value when it gets none: `p = D if p is None else p`.
-/

namespace Mender.Codemod

open Syntax Node

variable (n param : Node)

def isCallOf (names : List String) (n : Node) : Bool :=
  n.kind == .call && (n.get .func).kind == .name && names.contains (n.get .func).text

def isMutableDefault : Bool := [Kind.list, .dict, .set].contains n.kind || isCallOf ["set", "list", "dict"] n

/-- What stands for a mutable default in the body: the default itself, or the empty list or dictionary for
a call that makes one. -/
def freshDefault : Node :=
  if isCallOf ["list", "dict"] n && (n.list .args).isEmpty then
    fresh (if (n.get .func).text == "list" then .list else .dict)
  else n

def isOptional (typeHint : Node) : Bool :=
  let e := typeHint.get .typeHint
  e.kind == .subscript && (e.get .value).kind == .name && (e.get .value).text == "Optional"

def optionalAnnotation (old new : Node) : Node :=
  if ! old.isPresent then absent
  else if isOptional old then new
  else
    let index := make .index [(.value, new.get .typeHint)]
    new.set .typeHint (make .subscript [(.value, ofName "Optional"),
      (.slice, seq [make .subscriptElement [(.slice, index)]])])

def optionalParam (old new : Node) : Except Fault Node :=
  (new.setAll [(.default, ofName "None"), (.typeHint, optionalAnnotation (old.get .typeHint) (new.get .typeHint))]).sound

def defaultStatement : Node :=
  let name := param.get .name
  let isNone := make .comparison [(.left, name), (.comparisons, seq
    [make .comparisonTarget [(.operator, fresh .identical), (.comparator, ofName "None")]])]
  let value := make .ifExp [(.body, freshDefault (param.get .default)), (.test, isNone), (.orelse, name)]
  let assign := make .assign
    [(.targets, seq [make .assignTarget [(.target, name)]]), (.value, value)]
  make .simpleStatementLine [(.body, seq [assign])]

def isDocLine (line : Node) : Bool :=
  match line.kind, line.list .body with
  | .simpleStatementLine, [s] => s.kind == .expr && (s.get .value).kind == .simpleString
  | _, _ => false

/-- A body with new statements behind the text that documents the function. -/
def withDefaults (statements body : List Node) : List Node :=
  match body with
  | line :: rest => if isDocLine line then line :: statements ++ rest else statements ++ body
  | [] => statements

def isAbstract (function : Node) : Bool :=
  (function.list .decorators).any fun d => (d.get .decorator).kind == .name && (d.get .decorator).text == "abstractmethod"

def hasMutableDefault : Bool := (param.get .default).isPresent && isMutableDefault (param.get .default)

/-- Parameters, before and after the nodes in them were edited, with `None` for mutable defaults. -/
def renewedParams (olds news : List Node) : Except Fault (List Node) :=
  (olds.zip news).mapM fun (o, n) => if hasMutableDefault o then optionalParam o n else pure n

def checkBody (added : List Node) (function : Node) : Except Fault Unit :=
  if ! added.isEmpty && (function.get .body).kind != .indentedBlock then .error .noSuchPart else .ok ()

/-- The function with other regular parameters and with statements that make the defaults of some. -/
def renewedFunction (params added : List Node) (function : Node) : Except Fault Node := do
  let newParams ← ((function.get .params).setList .params params).sound
  let body := function.get .body
  let newBody ← if added.isEmpty then pure body
    else (body.setList .body (withDefaults (added.map defaultStatement) (body.list .body))).sound
  (function.setAll [(.params, newParams), (.body, newBody)]).sound

namespace Task

variable (t : Task)

def noteDefaults (function : Node) (changed : List Node) : Work Unit := do
  if ! changed.isEmpty then t.report function
  if changed.any fun p => (p.get .typeHint).isPresent then require "typing" (some "Optional")

def renewing : Pass Notes where
  leave old new := do
    if old.kind != .functionDef then return .keep new
    let olds := (old.get .params).list .params
    let params ← renewedParams olds ((new.get .params).list .params)
    let changed := olds.filter hasMutableDefault
    let added := if isAbstract old then [] else changed
    checkBody added new
    t.noteDefaults old changed
    return .keep (← renewedFunction params added new)

/-- Defaults that can change are made anew in each call. -/
def renewDefaults : Work.Result := t.command t.renewing

end Task

end Mender.Codemod
