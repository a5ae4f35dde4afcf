/-!
# Measured times

A `Timer` adds up the seconds that were spent on each of several things, and tells them in whole milliseconds.
-/

namespace Mender

def wholePart (f : Float) : Int :=
  let bits := f.toBits.toNat
  let power := bits / Nat.pow 2 52 % 2048
  let fraction := bits % Nat.pow 2 52
  let digits := if power == 0 then fraction else fraction + Nat.pow 2 52
  let size : Nat :=
    if 1075 ≤ power then digits * Nat.pow 2 (power - 1075) else digits / Nat.pow 2 (1075 - max power 1)
  if bits / Nat.pow 2 63 == 1 then -(size : Int) else size

structure Timer where
  times : List (String × Float) := []
  deriving Inhabited

namespace Timer

variable (t : Timer) (key : String)

def seconds : Float := ((t.times.find? (·.1 == key)).map (·.2)).getD 0

def add (s : Float) : Timer :=
  if t.times.any (·.1 == key) then
    ⟨t.times.map fun e => if e.1 == key then (key, e.2 + s) else e⟩
  else ⟨t.times ++ [(key, 0 + s)]⟩

def aggregate (other : Timer) : Timer := other.times.foldl (fun t (key, s) => t.add key s) t

def milliseconds : Int := wholePart (t.seconds key * 1000)

end Timer

end Mender
