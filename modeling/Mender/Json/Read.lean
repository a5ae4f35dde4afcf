import Mender.Json.Value
import Mender.Text.Letter

/-!
# Reading JSON

`Json.parse?` reads a document. Of members of one name the last value counts, at the place of the
first. The words `NaN`, `Infinity` and `-Infinity` are numbers.
-/

namespace Mender.Json

private def isBlank (c : Char) : Bool := c == ' ' || c == '\t' || c == '\n' || c == '\r'

private def skip (cs : List Char) : List Char := cs.dropWhile isBlank

/-- The rest of a string behind its opening quote. Two units that make up one character are joined; a
unit that stands alone stands for no character and is replaced. -/
def stringTail : List Char → List Char → Option (String × List Char)
  | '"' :: rest, acc => some (String.ofList acc.reverse, rest)
  | '\\' :: 'u' :: a :: b :: c :: d :: '\\' :: 'u' :: e :: f :: g :: h :: rest, acc =>
    match Text.hexNumber? [a, b, c, d], Text.hexNumber? [e, f, g, h] with
    | some hi, some lo =>
      if 0xD800 ≤ hi ∧ hi < 0xDC00 ∧ 0xDC00 ≤ lo ∧ lo < 0xE000 then
        stringTail rest (Char.ofNat (0x10000 + (hi - 0xD800) * 0x400 + (lo - 0xDC00)) :: acc)
      else
        stringTail ('\\' :: 'u' :: e :: f :: g :: h :: rest) (single hi :: acc)
    | some hi, none => stringTail ('\\' :: 'u' :: e :: f :: g :: h :: rest) (single hi :: acc)
    | none, _ => none
  | '\\' :: 'u' :: a :: b :: c :: d :: rest, acc =>
    (Text.hexNumber? [a, b, c, d]).bind fun n => stringTail rest (single n :: acc)
  | '\\' :: c :: rest, acc => (if c == '/' then some c else Text.escapeFor? c).bind fun d => stringTail rest (d :: acc)
  | c :: rest, acc => if c.toNat < 32 then none else stringTail rest (c :: acc)
  | [], _ => none
termination_by cs => cs.length
where
  single (n : Nat) : Char := if 0xD800 ≤ n ∧ n < 0xE000 then Char.ofNat 0xFFFD else Char.ofNat n

private def natOf (ds : List Char) : Nat := ds.foldl (fun n c => n * 10 + (c.toNat - 48)) 0

def number? (cs : List Char) : Option (Json × List Char) :=
  let (neg, cs) := match cs with
    | '-' :: rest => (true, rest)
    | _ => (false, cs)
  let whole := match cs with
    | '0' :: _ => ['0']
    | _ => cs.takeWhile Char.isDigit
  if whole.isEmpty then
    if "Infinity".toList.isPrefixOf cs then
      some (.float (if neg then -(1.0 / 0.0) else 1.0 / 0.0), cs.drop 8)
    else none
  else
    let rest := cs.drop whole.length
    let (frac, rest) := match rest with
      | '.' :: r =>
        let ds := r.takeWhile Char.isDigit
        if ds.isEmpty then ([], rest) else (ds, r.drop ds.length)
      | _ => ([], rest)
    let (expo, rest) : Option Int × List Char := match rest with
      | e :: r =>
        if e == 'e' || e == 'E' then
          let (minus, r') := match r with
            | '-' :: r' => (true, r')
            | '+' :: r' => (false, r')
            | _ => (false, r)
          let ds := r'.takeWhile Char.isDigit
          if ds.isEmpty then (none, rest)
          else (some (if minus then -(natOf ds : Int) else natOf ds), r'.drop ds.length)
        else (none, rest)
      | [] => (none, rest)
    if frac.isEmpty ∧ expo.isNone then
      let n : Int := natOf whole
      some (.int (if neg then -n else n), rest)
    else
      let m := natOf (whole ++ frac)
      let e : Int := expo.getD 0 - frac.length
      let f := Float.ofScientific m (e < 0) e.natAbs
      some (.float (if neg then -f else f), rest)

mutual

def value? : Nat → List Char → Option (Json × List Char)
  | 0, _ => none
  | fuel + 1, cs =>
    match cs with
    | '"' :: rest => (stringTail rest []).map fun (s, r) => (.str s, r)
    | '[' :: rest =>
      match skip rest with
      | ']' :: r => some (.arr [], r)
      | r => (items? fuel r).map fun (js, r) => (.arr js, r)
    | '\x7b' :: rest =>
      match skip rest with
      | '\x7d' :: r => some (.obj [], r)
      | r => (members? fuel r []).map fun (ms, r) => (.obj ms, r)
    | 'n' :: 'u' :: 'l' :: 'l' :: r => some (.null, r)
    | 't' :: 'r' :: 'u' :: 'e' :: r => some (.bool true, r)
    | 'f' :: 'a' :: 'l' :: 's' :: 'e' :: r => some (.bool false, r)
    | 'N' :: 'a' :: 'N' :: r => some (.float (0.0 / 0.0), r)
    | cs => number? cs

def items? : Nat → List Char → Option (List Json × List Char)
  | 0, _ => none
  | fuel + 1, cs => do
    let (j, r) ← value? fuel cs
    match skip r with
    | ',' :: r => (items? fuel (skip r)).map fun (js, r) => (j :: js, r)
    | ']' :: r => some ([j], r)
    | _ => none

def members? : Nat → List Char → List (String × Json) → Option (List (String × Json) × List Char)
  | fuel + 1, '"' :: rest, acc => do
    let (key, r) ← stringTail rest []
    match skip r with
    | ':' :: r =>
      let (v, r) ← value? fuel (skip r)
      let acc := Json.insert acc key v
      match skip r with
      | ',' :: r => members? fuel (skip r) acc
      | '\x7d' :: r => some (acc, r)
      | _ => none
    | _ => none
  | _, _, _ => none

end

def parse? (s : String) : Option Json :=
  let cs := s.toList
  ((value? (cs.length + 1) (skip cs)).filter fun (_, rest) => (skip rest).isEmpty).map (·.1)

end Mender.Json
