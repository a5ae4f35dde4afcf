import Mender.Text.Decimal

/-!
# JSON values

A document is held with the members of its objects in the order in which they were first written.
`Json.render` writes it in ASCII, with `", "` and `": "` between its parts.
-/

namespace Mender

open String

inductive Json where
  | null
  | bool (b : Bool)
  | int (i : Int)
  | float (f : Float)
  | str (s : String)
  | arr (items : List Json)
  | obj (members : List (String × Json))
  deriving Inhabited

namespace Json

def strs (ss : List String) : Json := .arr (ss.map .str)

def nat (n : Nat) : Json := .int n

def opt {α : Type} (f : α → Json) : Option α → Json
  | some a => f a
  | none => .null

def get? (j : Json) (key : String) : Option Json :=
  match j with
  | .obj ms => (ms.find? (·.1 == key)).map (·.2)
  | _ => none

/-- Add a member, or replace the one of the same name where it stands. -/
def insert (ms : List (String × Json)) (key : String) (value : Json) : List (String × Json) :=
  if ms.any (·.1 == key) then ms.map fun m => if m.1 == key then (key, value) else m
  else ms ++ [(key, value)]

/-! ## Writing -/

private def hexDigits (width n : Nat) : String :=
  let ds := Nat.toDigits 16 n
  ofList (List.replicate (width - ds.length) '0' ++ ds)

/-- A character inside a string. Characters beyond ASCII are written as one or two UTF-16 units. -/
def escapeChar (c : Char) : String :=
  match c with
  | '"' => "\\\""
  | '\\' => "\\\\"
  | '\n' => "\\n"
  | '\r' => "\\r"
  | '\t' => "\\t"
  | '\x08' => "\\b"
  | '\x0c' => "\\f"
  | c =>
    let n := c.toNat
    if 32 ≤ n ∧ n < 127 then c.toString
    else if n = 127 then c.toString
    else if n < 0x10000 then "\\u" ++ hexDigits 4 n
    else
      "\\u" ++ hexDigits 4 (0xD800 + (n - 0x10000) / 0x400) ++
      "\\u" ++ hexDigits 4 (0xDC00 + (n - 0x10000) % 0x400)

def quote (s : String) : String := "\"" ++ join (s.toList.map escapeChar) ++ "\""

mutual

def render : Json → String
  | .null => "null"
  | .bool true => "true"
  | .bool false => "false"
  | .int i => toString i
  | .float f => Text.showFloat f
  | .str s => quote s
  | .arr items => "[" ++ intercalate ", " (renderAll items) ++ "]"
  | .obj members => "\x7b" ++ intercalate ", " (renderMembers members) ++ "\x7d"

def renderAll : List Json → List String
  | [] => []
  | j :: js => render j :: renderAll js

def renderMembers : List (String × Json) → List String
  | [] => []
  | (k, v) :: ms => (quote k ++ ": " ++ render v) :: renderMembers ms

end

/-- The line end and blanks in front of a part of a document at a depth. -/
def lineAt (depth : Nat) : String := "\n" ++ ofList (List.replicate (2 * depth) ' ')

mutual

/-- A document as text with every part on a line of its own, at a depth. -/
def prettyAt (depth : Nat) : Json → String
  | .arr (j :: js) =>
    "[" ++ intercalate "," ((prettyAll (depth + 1) (j :: js)).map (lineAt (depth + 1) ++ ·)) ++ lineAt depth ++ "]"
  | .obj (m :: ms) =>
    "\x7b" ++ intercalate "," ((prettyMembers (depth + 1) (m :: ms)).map (lineAt (depth + 1) ++ ·)) ++
      lineAt depth ++ "\x7d"
  | j => render j

def prettyAll (depth : Nat) : List Json → List String
  | [] => []
  | j :: js => prettyAt depth j :: prettyAll depth js

def prettyMembers (depth : Nat) : List (String × Json) → List String
  | [] => []
  | (k, v) :: ms => (quote k ++ ": " ++ prettyAt depth v) :: prettyMembers depth ms

end

/-- A document as text with every part on a line of its own. -/
def pretty (j : Json) : String := prettyAt 0 j

end Json

end Mender
