import Mender.Finding
import Mender.Json.Read

/-!
# Reports of scanners

Scanners write their findings as SARIF documents. Of such a document only the rule and the places of each
result are of interest. A result names its rule directly, where the part behind the last dot counts, or
by a place in the list of rules of one of the tool's extensions.
-/

namespace Mender

namespace Json

variable (j : Json) (key : String)

def member : Except Fault Json :=
  match j with
  | .obj _ => (j.get? key).elim (.error (.unknownKey key)) .ok
  | _ => .error .misfit

/-- The place in a list of `n` items that an index means. Indices below zero count from the end. -/
def place? (n : Nat) (i : Int) : Option Nat :=
  let k := if i < 0 then i + n else i
  if 0 ≤ k ∧ k < n then some k.toNat else none

def item (index : Json) : Except Fault Json :=
  let number := match index with
    | .int i => some i
    | .bool b => some (if b then 1 else 0)
    | _ => none
  match j, number with
  | .arr js, some i => ((place? js.length i).bind (js[·]?)).elim (.error .outOfRange) .ok
  | .str s, some i => ((place? s.length i).bind (s.toList[·]?)).elim (.error .outOfRange) fun c => .ok (.str c.toString)
  | .obj ms, none =>
    match index with
    | .str key => (Json.obj ms).member key
    | .arr _ | .obj _ => .error .misfit
    | _ => .error .unknownNode
  | .obj _, some _ => .error .unknownNode
  | _, _ => .error .misfit

/-- The items of a list, the names of an object's members, or the characters of a text. -/
def elements : Except Fault (List Json) :=
  match j with
  | .arr js => .ok js
  | .obj ms => .ok (ms.map fun m => .str m.1)
  | .str s => .ok (s.toList.map fun c => .str c.toString)
  | _ => .error .misfit

/-- Does an object have a member, a list an item, or a text a part of this name? -/
def mentions : Except Fault Bool :=
  match j with
  | .obj _ => .ok (j.get? key).isSome
  | .arr js => .ok (js.any fun x => match x with
    | .str s => s == key
    | _ => false)
  | .str s => .ok (Text.holds key s)
  | _ => .error .misfit

end Json

namespace Sarif

def rule (result run : Json) : Except Fault Json := do
  if ← result.mentions "ruleId" then
    match ← result.member "ruleId" with
    | .str s => return .str ((Text.pieces '.' s).getLastD "")
    | _ => .error .noSuchPart
  else if ← result.mentions "rule" then
    let named ← result.member "rule"
    let tool ← (← named.member "toolComponent").member "index"
    let index ← named.member "index"
    let extension ← (← (← run.member "tool").member "extensions").item tool
    (← (← extension.member "rules").item index).member "id"
  else return .null

def location (j : Json) : Except Fault Location := do
  let place ← j.member "physicalLocation"
  let uri ← (← place.member "artifactLocation").member "uri"
  let file ← match uri with
    | .str s => pure (Path.plain s)
    | _ => .error .misfit
  let startLine ← (← place.member "region").member "startLine"
  let startColumn ← (← place.member "region").member "startColumn"
  let snippet ← (← (← place.member "region").member "snippet").member "text"
  let endLine ← (← place.member "region").member "endLine"
  let endColumn ← (← place.member "region").member "endColumn"
  return ⟨file, .ofJson startLine, .ofJson startColumn, .ofJson endLine, .ofJson endColumn, snippet⟩

/-- A value that counts as nothing cannot name a rule. -/
def isNothing : Json → Bool
  | .null | .bool false | .int 0 | .str "" | .arr [] | .obj [] => true
  | .float f => f == 0
  | _ => false

/-- One result of a report. The name of its rule should be a text; findings cannot be kept under a list or an object. -/
def finding (result run : Json) : Except Fault Finding := do
  let rule ← rule result run
  if isNothing rule then throw (.badValue "Could not extract rule id from sarif result.")
  let locations ← (← (← result.member "locations").elements).mapM location
  match rule with
  | .str s => return ⟨s, locations⟩
  | .arr _ | .obj _ => if locations.isEmpty then return ⟨rule.render, locations⟩ else .error .misfit
  | j => return ⟨j.render, locations⟩

def ofJson (doc : Json) : Except Fault Findings := do
  let runs ← (← doc.member "runs").elements
  runs.foldlM (fun s run => do
    let results ← (← run.member "results").elements
    results.foldlM (fun (s : Findings) result => return s.add (← finding result run)) s) {}

def ofText (text : String) : Except Fault Findings :=
  (Json.parse? text).elim (.error (.badDocument "JSONDecodeError")) ofJson

end Sarif

end Mender
