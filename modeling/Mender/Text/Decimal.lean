/-!
# The shortest decimal of a binary fraction

A double is a number `m · 2 ^ q`. The reals that round to it form an interval, and the decimal to be
written is the one with the fewest digits in that interval, the nearest of those if there are several.
-/

namespace Mender.Text

open String

variable (m : Nat) (q : Int) (edge closed : Bool) (a : Nat) (i : Int) (b : Nat)

structure Decimal where
  digits : Nat
  exponent : Int
  deriving DecidableEq, Repr

/-- Compare `a · 10 ^ i` with `b / 2`, `b` in units of `2 ^ q`: is the first smaller than the second
(or equal, if `closed`)? All powers are cleared, so the comparison is exact. -/
private def atMost (q : Int) : Bool :=
  let l := 2 * a * Nat.pow 10 i.toNat * Nat.pow 2 (-q).toNat
  let r := b * Nat.pow 10 (-i).toNat * Nat.pow 2 q.toNat
  if closed then l ≤ r else l < r

private def atLeast (q : Int) : Bool := ! atMost (! closed) a i b q

private def floorAt : Nat := (m * Nat.pow 2 q.toNat * Nat.pow 10 (-i).toNat) / (Nat.pow 2 (-q).toNat * Nat.pow 10 i.toNat)

/-- Does `a · 10 ^ i` round to `m · 2 ^ q`? Below a power of two the neighbours lie closer. -/
private def roundsTo : Bool :=
  let even := m % 2 == 0
  atMost even a i (2 * m + 1) q && if edge then atLeast even (2 * a) i (4 * m - 1) q else atLeast even a i (2 * m - 1) q

private def isNearer : Bool := atLeast true (2 * a + 1) i (4 * m) q

/-- Try the grid of `10 ^ i` and, as long as no point of it rounds to the number, finer ones. -/
private def search (m : Nat) (q : Int) (edge : Bool) : Nat → Int → Decimal
  | 0, i => ⟨floorAt m q i, i⟩
  | fuel + 1, i =>
    let a := floorAt m q i
    let low := roundsTo m q edge a i && a != 0
    let high := roundsTo m q edge (a + 1) i
    if low && (! high || isNearer m q a i) then ⟨a, i⟩
    else if high then ⟨a + 1, i⟩
    else search m q edge fuel (i - 1)

def shortest : Decimal :=
  let size := (Nat.toDigits 10 (floorAt m q 0)).length
  let start : Int := if floorAt m q 0 = 0 then 0 else size
  search m q edge 400 start

private def trimZeros : Nat → Decimal → Decimal
  | 0, d => d
  | fuel + 1, d =>
    if d.digits != 0 && d.digits % 10 == 0 then trimZeros fuel ⟨d.digits / 10, d.exponent + 1⟩ else d

/-- A decimal as text: a point always, an exponent of two digits at least where there is one. -/
def Decimal.show (d : Decimal) : String :=
  let d := trimZeros 400 d
  let ds := Nat.toDigits 10 d.digits
  let top : Int := ds.length + d.exponent - 1
  if -4 ≤ top ∧ top < 16 then
    if d.exponent ≥ 0 then
      ofList (ds ++ List.replicate d.exponent.toNat '0') ++ ".0"
    else if top ≥ 0 then
      let k := (top + 1).toNat
      ofList (ds.take k) ++ "." ++ ofList (ds.drop k)
    else "0." ++ ofList (List.replicate (-top - 1).toNat '0' ++ ds)
  else
    let e := Nat.toDigits 10 top.natAbs
    let e := if e.length < 2 then '0' :: e else e
    let tail := match ds.drop 1 with
      | [] => ""
      | rest => "." ++ ofList rest
    ofList (ds.take 1) ++ tail ++ "e" ++ (if top < 0 then "-" else "+") ++ ofList e

/-- A double as text that reads back as the same double. -/
def showFloat (f : Float) : String :=
  if f.isNaN then "NaN"
  else
    let bits := f.toBits.toNat
    let sign := if bits ≥ Nat.pow 2 63 then "-" else ""
    let expo : Nat := bits / Nat.pow 2 52 % 2048
    let frac : Nat := bits % Nat.pow 2 52
    if expo = 2047 then sign ++ "Infinity"
    else if expo = 0 ∧ frac = 0 then sign ++ "0.0"
    else if expo = 0 then sign ++ (shortest frac (-1074) false).show
    else sign ++ (shortest (Nat.pow 2 52 + frac) (Int.ofNat expo - 1075) (frac == 0 && 1 < expo)).show

end Mender.Text
