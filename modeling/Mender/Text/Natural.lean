import Mender.Text.Number
import Mender.Text.Sort

/-!
# Natural order

Names are put in the order in which people read them: case does not count, and runs of digits are
compared as numbers. A name is cut into texts and numbers (`naturalKey`), and keys are compared part by
part. A text and a number have no order; `sortNaturally` refuses names whose keys meet in that way.
-/

namespace Mender.Text

inductive KeyPart where
  | text (s : String)
  | number (n : Int)
  deriving DecidableEq, Repr

/-- Runs of numerals beyond ASCII that are no decimal digits, such as superscripts, by the first and the last one. -/
private def numeralRuns : List (Nat × Nat) :=
  [(178, 179), (185, 185), (4969, 4977), (6618, 6618), (8304, 8304), (8308, 8313), (8320, 8329), (9312, 9320),
    (9332, 9340), (9352, 9360), (9450, 9450), (9461, 9469), (9471, 9471), (10102, 10110), (10112, 10120), (10122, 10130),
    (68160, 68163), (69216, 69224), (69714, 69722), (127232, 127242)]

/-- Is the character a digit in any script, raised or circled ones included? -/
def isNumeral (c : Char) : Bool := (decimalValue? c).isSome || numeralRuns.any fun r => r.1 ≤ c.toNat && c.toNat ≤ r.2

/-- Cut a name into runs of ASCII digits and what stands between them. The list begins and ends with
what is between, so texts and digits take turns. -/
def cutDigits : List Char → List (List Char)
  | [] => [[]]
  | c :: rest =>
    match cutDigits rest with
    | between :: more =>
      if ! c.isDigit then (c :: between) :: more
      else
        match between, more with
        | [], digits :: more => [] :: (c :: digits) :: more
        | _, _ => [] :: [c] :: between :: more
    | [] => [[c]]

def keyPart (cs : List Char) : Except Fault KeyPart :=
  let s := String.ofList cs
  if ! cs.isEmpty && cs.all isNumeral then .number <$> int s else .ok (.text (lower s))

def naturalKey (s : String) : Except Fault (List KeyPart) := (cutDigits s.toList).mapM keyPart

def compareKeys : List KeyPart → List KeyPart → Option Ordering
  | [], [] => some .eq
  | [], _ :: _ => some .lt
  | _ :: _, [] => some .gt
  | a :: as, b :: bs =>
    if a = b then compareKeys as bs
    else match a, b with
      | .text s, .text t => some (if s < t then .lt else .gt)
      | .number m, .number n => some (if m < n then .lt else .gt)
      | _, _ => none

/-- Put things in the natural order of their names, those of equal keys in the order given. -/
def sortNaturally {α : Type} (name : α → String) (xs : List α) : Except Fault (List α) := do
  let keyed ← xs.mapM fun x => return (← naturalKey (name x), x)
  if keyed.any fun a => keyed.any fun b => (compareKeys a.1 b.1).isNone then .error .misfit
  else
    let sorted := sortBy (fun a b => compareKeys a.1 b.1 != some .gt) keyed
    return sorted.map (·.2)

end Mender.Text
