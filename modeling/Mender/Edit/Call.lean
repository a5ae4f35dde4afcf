import Mender.Syntax.Literal
import Mender.Syntax.Name
import Mender.Syntax.Read

/-!
# Editing calls

The small edits of which most fixes are made: an argument gets another value, a call gets another
argument or another target. New expressions are given as text.
-/

namespace Mender.Edit

open Syntax Node

variable (text : String) (call : Node) (args : List Node) (keyword value : String)

def expression : Except Fault Node :=
  match ofExpression? text with
  | some n => if n.kind == .starredElement then .error (.unexpected "") else .ok n
  | none => .error .unreadable

def statement : Except Fault Node := (ofStatement? text).elim (.error .unreadable) .ok

def name : Except Fault Node := (ofName text).sound

def tightEqual : Node := .mk .assignEqual "" [blank "", blank ""] none

def arg (value : Node) : Node := make .arg [(.value, value)]

def keywordArg (equal value : Node) : Except Fault Node := do
  let keyword ← name keyword
  (make .arg [(.keyword, keyword), (.equal, equal), (.value, value)]).sound

/-- A wish for an argument. -/
structure NewArg where
  keyword : String
  value : String
  addIfMissing : Bool
  deriving DecidableEq, Repr

/-- An argument with the given value: plain, or with a keyword. The equals sign of an argument that it
replaces is kept. -/
def makeArg (keyword : Option String := none) (existing : Option Node := none) : Except Fault Node := do
  match keyword with
  | none => return arg (← expression value)
  | some keyword =>
    let _ ← name keyword
    let equal := match existing with
      | some a => a.get .equal
      | none => tightEqual
    keywordArg keyword equal (← expression value)

/-- Is it a keyword argument of this name? -/
def hasKeyword (a : Node) : Bool := (a.get .keyword).kind == .name && (a.get .keyword).text == keyword

def takeWish (a : Node) : List NewArg → Option (NewArg × List NewArg)
  | [] => none
  | w :: ws =>
    if hasKeyword w.keyword a then some (w, ws)
    else (takeWish a ws).map fun (found, rest) => (found, w :: rest)

def replaceMatching : List Node → List NewArg → Except Fault (List Node × List NewArg)
  | [], wishes => return ([], wishes)
  | a :: rest, wishes =>
    match takeWish a wishes with
    | some (w, wishes') => do
      let new ← makeArg w.value (some w.keyword) (some a)
      let (news, left) ← replaceMatching rest wishes'
      return (new :: news, left)
    | none => do
      let (news, left) ← replaceMatching rest wishes
      return (a :: news, left)

/-- The arguments of a call after the wishes came true: those with a wished keyword get the value, and
the others that are to be added follow at the end. -/
def replaceArgs (wishes : List NewArg) : Except Fault (List Node) := do
  let (news, left) ← replaceMatching args wishes
  let added ← (left.filter (·.addIfMissing)).mapM fun w => makeArg w.value (some w.keyword)
  return news ++ added

def setArgs : Except Fault Node :=
  if call.has .args then (call.setList .args args).sound else .error .misfit

def addArg : Except Fault Node := do
  if ! call.has .args then .error .noSuchPart
  let _ ← name keyword
  let new ← keywordArg keyword tightEqual (← expression value)
  setArgs call (call.list .args ++ [new])

inductive CallName where
  | text (s : String)
  | node (n : Node)

/-- The name of the function that a call calls: the last part of a dotted name, else what the
function's node has for a value. -/
def callName : Except Fault CallName :=
  let func := call.get .func
  match func.kind with
  | .member => .ok (.text (func.get .attr).text)
  | .name | .integer | .float | .imaginary | .simpleString => .ok (.text func.text)
  | _ => if func.has .value then .ok (.node (func.get .value)) else .error .noSuchPart

def functionName? : Option Node :=
  let func := call.get .func
  match func.kind with
  | .name => some func
  | .member => some (func.get .attr)
  | _ => none

def retarget (target : String) (func : Option String := none)
    (args : Option (List Node) := none) : Except Fault Node := do
  if call.kind != .call then .error (.unexpected "")
  let attr ← match func.filter (! ·.isEmpty) with
    | some f => expression f
    | none => match ← callName call with
      | .text s => name s
      | .node _ => .error .misfit
  let target ← expression target
  let args := match args with
    | some (a :: as) => a :: as
    | _ => call.list .args
  (make .call [(.func, make .member [(.value, target), (.attr, attr)]), (.args, seq args)]).sound

def setValue (n : Node) (value : String) : Except Fault Node := do
  let value ← expression value
  if n.has .value then (n.set .value value).sound else .error .misfit

end Mender.Edit
