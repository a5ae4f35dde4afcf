import Mender.Fault
import Mender.Text.Quote

/-!
# Whole numbers

Whole numbers are written with decimal digits of any script, an optional sign in front, single
underscores between digits, and blanks around.
-/

namespace Mender.Text

variable (s : String) (cs : List Char)

def trimLeft : List Char := cs.dropWhile isSpace

def trimRight : List Char := (cs.reverse.dropWhile isSpace).reverse

def trim : String := String.ofList (trimRight (trimLeft s.toList))

/-- The number that a run of digits stands for; `after` tells whether a digit stands in front. -/
def digitsValue? (acc : Nat) (after : Bool) : List Char → Option Nat
  | [] => if after then some acc else none
  | '_' :: rest => if after then digitsValue? acc false rest else none
  | c :: rest =>
    match decimalValue? c with
    | some d => digitsValue? (acc * 10 + d) true rest
    | none => none

def int? : Option Int :=
  match trimRight (trimLeft s.toList) with
  | '+' :: rest => (digitsValue? 0 false rest).map Int.ofNat
  | '-' :: rest => (digitsValue? 0 false rest).map fun n => - (n : Int)
  | cs => (digitsValue? 0 false cs).map Int.ofNat

def int (s : String) : Except Fault Int :=
  match int? s with
  | some i => .ok i
  | none => .error (.badValue ("invalid literal for int() with base 10: " ++ quoted s))

end Mender.Text
