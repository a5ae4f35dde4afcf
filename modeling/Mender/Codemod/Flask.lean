import Mender.Codemod.Basic
import Mender.Edit.Replace
import Mender.Infer

/-!
# Flask sessions and answers

The first codemod keeps track of the variable that holds the application and looks at what is set in its
configuration, in the order of the module.

The second one looks at what the functions for routes return. A text made by `json.dumps` is sent as such
only if the answer says so.
-/

namespace Mender.Codemod

open Syntax Scope Edit Node

variable (app : String) (assign : Node) (n dict : Node) (ns : List Node)

/-! ## Sessions -/

inductive SessionKey where
  | httpOnly | secure | sameSite
  deriving DecidableEq, Repr

namespace SessionKey

def ofName? : String → Option SessionKey
  | "SESSION_COOKIE_HTTPONLY" => some .httpOnly
  | "SESSION_COOKIE_SECURE" => some .secure
  | "SESSION_COOKIE_SAMESITE" => some .sameSite
  | _ => none

def isSafe : SessionKey → Known → Bool
  | .httpOnly, .truth b | .secure, .truth b => b
  | .sameSite, .text s => s == "Lax" || s == "Strict"
  | _, _ => false

def safeValue : SessionKey → Node
  | .httpOnly | .secure => ofName "True"
  | .sameSite => make .simpleString [] "\"Lax\""

def ofArg? (a : Node) : Option SessionKey := if (a.get .keyword).kind == .name then ofName? (a.get .keyword).text else none

end SessionKey

def isConfigOf : Bool :=
  n.kind == .member && (n.get .value).kind == .name && (n.get .value).text == app && (n.get .attr).text == "config"

def isConfigUpdate (call : Node) : Bool :=
  let func := call.get .func
  func.kind == .member && (func.get .attr).text == "update" && isConfigOf app (func.get .value)

def firstTarget : Node := ((assign.list .targets).headD absent).get .target

def isConfigItem : Bool :=
  let target := firstTarget assign
  target.kind == .subscript && isConfigOf app (target.get .value)

def secureArg (a : Node) : Except Fault (Node × Bool) :=
  match SessionKey.ofArg? a with
  | some key =>
    if key.isSafe (literalValue (a.get .value)) then .ok (a, false)
    else do return (← (a.set .value key.safeValue).sound, true)
  | none => .ok (a, false)

def secureArgs (args : List Node) : Except Fault (List (Node × Bool)) := args.mapM secureArg

def itemKey? : Except Fault (Option SessionKey) :=
  let slice := ((((firstTarget assign).list .slice).headD absent).get .slice)
  if slice.kind != .index then .error .noSuchPart
  else match literalValue (slice.get .value) with
    | .text s => .ok (SessionKey.ofName? s)
    | .truth _ => .ok none

namespace Task

variable (t : Task)

def appName? (call : Node) : Option String :=
  match t.facts.parent? call with
  | some p =>
    if p.kind == .assign || p.kind == .annAssign then
      match targets p with
      | first :: _ => if first.kind == .name then some first.text else none
      | [] => none
    else none
  | none => none

/-- Session cookies are safe where the configuration says something about them. -/
def secureSessions : Work.Result :=
  t.withScopes (t.commandWith "" {
    leave := fun old new => do
      match old.kind with
      | .call =>
        if (← t.facts.baseName? (old.get .func)) == some "flask.Flask" then
          match t.appName? old with
          | some name => modify fun (notes, _) => (notes, name)
          | none => pure ()
        let (_, app) ← get
        if app.isEmpty || ! isConfigUpdate app old then return .keep new
        let args ← secureArgs (new.list .args)
        if args.any (·.2) then within (t.report old)
        return .keep (← setArgs new (args.map (·.1)))
      | .assign =>
        let (_, app) ← get
        if app.isEmpty || ! isConfigItem app old then return .keep new
        match ← itemKey? new with
        | some key =>
          if key.isSafe (literalValue (new.get .value)) then return .keep new
          within (t.report old)
          return .keep (← (new.set .value key.safeValue).sound)
        | none => return .keep new
      | _ => return .keep new })

end Task

/-! ## Answers -/

def contentType : Node := make .simpleString [] "'Content-Type'"

def jsonType : Node := make .simpleString [] "'application/json'"

def jsonHeader : Node := make .dictElement [(.key, contentType), (.value, jsonType)]

def jsonHeaders : Node := make .dict [(.elements, seq [jsonHeader])]

def hasContentType : Bool :=
  (dict.list .elements).any fun e =>
    e.kind == .starredDictElement || (e.get .key).kind != .simpleString ||
      (Literal.parts (e.get .key).text).raw == "Content-Type"

def isRoute (function : Node) : Bool :=
  (function.list .decorators).any fun d =>
    let e := d.get .decorator
    e.kind == .call && (e.get .func).kind == .member && ((e.get .func).get .attr).text == "route"

def firstValue : Except Fault Node :=
  match ns with
  | n :: _ => .ok (n.get .value)
  | [] => .error .outOfRange

def lastValue : Except Fault Node :=
  match ns.getLast? with
  | some n => .ok (n.get .value)
  | none => .error .outOfRange

/-- A return of JSON without the right header: the node that is to be replaced, and by what. -/
structure JsonReturn where
  old : Node
  new : Node

def withMember (s : Slot) (member : Node) : Except Fault JsonReturn := do
  return ⟨n, ← (n.setList s (n.list s ++ [member])).sound⟩

def fixHeaders : Except Fault (Option JsonReturn) :=
  if hasContentType dict then .ok none else some <$> withMember dict .elements jsonHeader

namespace Task

variable (t : Task) (n : Node) (tuple : Node)

def isJsonDumps : Except Fault Bool := do
  let e ← t.facts.resolve n
  if e.kind != .call then return false
  return (← t.facts.baseName? e) == some "json.dumps"

def jsonResponse? : Except Fault (Option Node) := do
  let e ← t.facts.resolve n
  if e.kind != .call then return none
  match e.list .args with
  | [] => return none
  | a :: _ =>
    if (← t.facts.baseName? e) != some "flask.make_response" then return none
    let first := a.get .value
    let first ← if first.kind == .tuple then firstValue (first.list .elements) else pure first
    if ← t.isJsonDumps first then return some e else return none

def dictOf? : Except Fault (Option Node) := do
  let e ← t.facts.resolve n
  return if e.kind == .dict then some e else none

def tupleHeaders? : Except Fault (Option Node) := do
  t.dictOf? (← lastValue (tuple.list .elements))

def fixTuple : Except Fault (Option JsonReturn) := do
  match ← t.tupleHeaders? tuple with
  | some dict => fixHeaders dict
  | none => some <$> withMember tuple .elements (make .element [(.value, jsonHeaders)])

def fixResponse (call : Node) : Except Fault (Option JsonReturn) := do
  let first ← firstValue (call.list .args)
  if first.kind == .tuple then t.fixTuple first
  else
    match ← t.dictOf? (← lastValue (call.list .args)) with
    | some dict => fixHeaders dict
    | none => some <$> withMember call .args (arg jsonHeaders)

def isJsonTuple : Except Fault Bool := do
  if n.kind != .tuple then return false
  let first ← firstValue (n.list .elements)
  if ← t.isJsonDumps first then return true
  return (← t.jsonResponse? first).isSome

def jsonReturn? : Except Fault (Option JsonReturn) := do
  let value := n.get .value
  if n.kind != .returnStatement || ! value.isPresent then return none
  if ! ((t.facts.functionAround? n).map isRoute).getD false then return none
  if ← t.isJsonDumps value then
    return some ⟨value, make .tuple [(.elements, seq
      [make .element [(.value, value)], make .element [(.value, jsonHeaders)]])]⟩
  match ← t.jsonResponse? value with
  | some call => t.fixResponse call
  | none => if ← t.isJsonTuple value then t.fixTuple value else return none

def jsonReturns : Except Fault (List JsonReturn) := do
  let found ← t.module.nodesAfter.mapM t.jsonReturn?
  return found.filterMap id

def setJsonType : Work.Result :=
  t.withScopes do
    match (← t.jsonReturns).getLast? with
    | none => return (t.module, {})
    | some r =>
      let ((), notes) ← (t.report r.old).run {}
      let mark := (r.old.mark).getD 0
      return (← replaceAll [(mark, .whole (.keep r.new))] t.module, notes)

end Task

end Mender.Codemod
