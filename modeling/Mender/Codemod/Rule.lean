import Mender.Fault
import Mender.Yaml.Read
import Mender.Yaml.Write

/-!
# Rules for the scanner

A codemod that works on findings has a rule that tells the scanner what to look for. `Rule.complete` fills in
what every rule must have, and writes the rule as the scanner reads it.
-/

namespace Mender.Rule

open Yaml

variable (name : String)

/-- What a rule has if it says nothing else; it is named after its codemod. -/
def defaults : List (String × Value) :=
  [("id", .text name), ("message", .text "Semgrep found a match"), ("severity", .text "WARNING"),
    ("languages", .list [.text "python"])]

def fill (es : List (Value × Value)) : List (Value × Value) :=
  (defaults name).foldl (fun es (key, v) =>
    if es.any (·.1.sameKey (.text key)) then es else es ++ [(.text key, v)]) es

def single (document : Value) : Except Fault (List (Value × Value)) :=
  match document with
  | .map _ =>
    match document.get? "rules" with
    | none => .error (.unknownKey "rules")
    | some (.list [.map es]) => .ok es
    | some (.list [_]) => .error .noSuchPart
    | some (.list _) => .error (.unexpected "")
    | some (.map [_]) => .error .unknownNode
    | some (.map _) => .error (.unexpected "")
    | some (.text s) => .error (if s.length == 1 then .noSuchPart else .unexpected "")
    | some _ => .error .misfit
  | _ => .error .misfit

def complete (text : String) : Except Fault String := do
  let document ← match Yaml.read text with
    | .ok v => pure v
    | .error p => .error (.badDocument p.label)
  let rule ← single document
  match document with
  | .map es => return Yaml.write (.map (Value.put es (.text "rules") (.list [.map (fill name rule)])))
  | _ => .error .misfit

end Mender.Rule
