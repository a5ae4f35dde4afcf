import Mender.Text.Decimal
import Mender.Text.Search

/-!
# YAML values

A rule of the scanner is a document in YAML. A plain word of such a document stands for a truth value, a number
or nothing at all if it looks like one (`Yaml.ofWord`), and for a text otherwise.
-/

namespace Mender.Yaml

variable (cs : List Char) (s : String)

inductive Value where
  | null
  | truth (b : Bool)
  | integer (i : Int)
  | float (f : Float)
  | moment (s : String)
  | text (s : String)
  | list (items : List Value)
  | map (entries : List (Value × Value))
  deriving Inhabited

namespace Value

def get? (v : Value) (key : String) : Option Value :=
  match v with
  | .map es => (es.find? fun e => match e.1 with
      | .text s => s == key
      | _ => false).map (·.2)
  | _ => none

def sameKey : Value → Value → Bool
  | .null, .null => true
  | .truth a, .truth b => a == b
  | .integer a, .integer b => a == b
  | .moment a, .moment b => a == b
  | .text a, .text b => a == b
  | _, _ => false

def put (es : List (Value × Value)) (key value : Value) : List (Value × Value) :=
  if es.any (·.1.sameKey key) then es.map fun e => if e.1.sameKey key then (e.1, value) else e
  else es ++ [(key, value)]

end Value

/-! ## Words -/

private def digitsOf : List Char := cs.filter (· != '_')

private def valueIn (base : Nat) (cs : List Char) : Nat :=
  (digitsOf cs).foldl (fun n c => n * base + (if c.isDigit then c.toNat - 48 else c.toLower.toNat - 87)) 0

private def isOneOf (set : String) (c : Char) : Bool := set.contains c

def signed : Int × List Char :=
  match cs with
  | '-' :: r => (-1, r)
  | '+' :: r => (1, r)
  | r => (1, r)

def sixties? : Option Nat :=
  match (Text.piecesOf ':' cs).map String.ofList with
  | first :: rest =>
    let ok := fun (p : String) => match p.toList with
      | [a] => a.isDigit
      | [a, b] => '0' ≤ a && a ≤ '5' && b.isDigit
      | _ => false
    let head := first.toList
    if ! rest.isEmpty && rest.all ok && (head.head?.any fun c => '1' ≤ c && c ≤ '9') &&
        head.all (isOneOf "0123456789_") then
      some (rest.foldl (fun n p => n * 60 + valueIn 10 p.toList) (valueIn 10 head))
    else none
  | [] => none

def integer? : Option Int :=
  let (sign, cs) := signed s.toList
  let whole? : Option Nat := match cs with
    | '0' :: 'b' :: ds => if ! ds.isEmpty && ds.all (isOneOf "01_") then some (valueIn 2 ds) else none
    | '0' :: 'x' :: ds =>
      if ! ds.isEmpty && ds.all (isOneOf "0123456789abcdefABCDEF_") then some (valueIn 16 ds) else none
    | ['0'] => some 0
    | '0' :: ds => if ds.all (isOneOf "01234567_") then some (valueIn 8 ds) else none
    | d :: ds =>
      if d.isDigit && ds.all (isOneOf "0123456789_") then some (valueIn 10 cs) else sixties? cs
    | [] => none
  whole?.map (sign * ·)

private def scientific (digits : Nat) (power : Int) : Float :=
  if power < 0 then Float.ofScientific digits true power.natAbs else Float.ofScientific digits false power.natAbs

def float? : Option Float :=
  let (sign, cs) := signed s.toList
  let signedTo := fun (f : Float) => if sign < 0 then -f else f
  if [".inf", ".Inf", ".INF"].contains (String.ofList cs) then some (signedTo (1.0 / 0.0))
  else if [".nan", ".NaN", ".NAN"].contains s then some (0.0 / 0.0)
  else
    let whole := cs.takeWhile (isOneOf "0123456789_")
    match cs.drop whole.length with
    | '.' :: rest =>
      let fraction := rest.takeWhile (isOneOf "0123456789_")
      let startsWell := match whole with
        | c :: _ => c.isDigit
        | [] => sign == 1 && s.startsWith "." && (fraction.head?.any Char.isDigit)
      let power? : Option Int := match rest.drop fraction.length with
        | [] => some 0
        | e :: p =>
          let (psign, ds) := signed p
          if (e == 'e' || e == 'E') && (p.head? == some '-' || p.head? == some '+') && ! ds.isEmpty &&
              ds.all Char.isDigit then some (psign * valueIn 10 ds) else none
      if startsWell then power?.map fun p =>
        signedTo (scientific (valueIn 10 (whole ++ fraction)) (p - (digitsOf fraction).length))
      else none
    | _ => none

def isMoment : Bool :=
  match s.toList with
  | [a, b, c, d, '-', e, f, '-', g, h] => [a, b, c, d, e, f, g, h].all Char.isDigit
  | _ => false

def isOneOfWords (words : List String) (s : String) : Bool := words.any fun w => [w, w.capitalize, w.toUpper].contains s

def ofWord : Value :=
  if isOneOfWords ["yes", "true", "on"] s then .truth true
  else if isOneOfWords ["no", "false", "off"] s then .truth false
  else if isOneOfWords ["~", "null", ""] s then .null
  else ((integer? s).map Value.integer <|> (float? s).map Value.float).getD (if isMoment s then .moment s else .text s)

def isReserved : Bool :=
  match ofWord s with
  | .text _ => s == "<<" || s == "="
  | _ => true

end Mender.Yaml
