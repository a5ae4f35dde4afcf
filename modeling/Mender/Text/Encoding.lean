/-!
# Encodings

Text files do not say how their characters are encoded. `Text.decode?` reads what can be read with confidence:
files with a byte order mark, files in ASCII, and files that are valid UTF-8 and use it often enough not to be
taken for something else.
-/

namespace Mender.Text

open String

/-- The numbers that pairs of bytes stand for, or nothing if a byte is left over. -/
def pairs? (little : Bool) : List UInt8 → Option (List Nat)
  | [] => some []
  | a :: b :: rest =>
    (pairs? little rest).map fun ns => (if little then b.toNat * 256 + a.toNat else a.toNat * 256 + b.toNat) :: ns
  | [_] => none

def ofUnits? : List Nat → Option (List Char)
  | [] => some []
  | [u] => if 0xd800 ≤ u ∧ u < 0xe000 then none else some [Char.ofNat u]
  | u :: v :: rest =>
    if 0xd800 ≤ u ∧ u < 0xdc00 then
      if 0xdc00 ≤ v ∧ v < 0xe000 then
        (ofUnits? rest).map (Char.ofNat (0x10000 + (u - 0xd800) * 0x400 + (v - 0xdc00)) :: ·)
      else none
    else if 0xdc00 ≤ u ∧ u < 0xe000 then none
    else (ofUnits? (v :: rest)).map (Char.ofNat u :: ·)

/-- The characters that groups of four bytes stand for. -/
def ofQuads? (little : Bool) : List UInt8 → Option (List Char)
  | [] => some []
  | a :: b :: c :: d :: rest =>
    let n := if little then ((d.toNat * 256 + c.toNat) * 256 + b.toNat) * 256 + a.toNat
      else ((a.toNat * 256 + b.toNat) * 256 + c.toNat) * 256 + d.toNat
    if n < 0xd800 ∨ (0xdfff < n ∧ n < 0x110000) then (ofQuads? little rest).map (Char.ofNat n :: ·)
    else none
  | _ => none

/-- Does the text hold something that announces another encoding within ASCII? -/
def hasShift : List Char → Bool
  | '~' :: '\x7b' :: _ => true
  | c :: rest => c == '\x1b' || hasShift rest
  | [] => false

def isAscii (s : String) : Bool := s.toList.all fun c => c.toNat < 128

/-- How many characters beyond ASCII make it certain that a text is UTF-8. -/
def certainty : Nat := 4

/-- The text that bytes stand for, if that can be told with confidence. -/
def decode? (bytes : ByteArray) : Option String :=
  match bytes.toList with
  | [] => none
  | 0xef :: 0xbb :: 0xbf :: rest => fromUTF8? (ByteArray.mk rest.toArray)
  | 0xff :: 0xfe :: 0 :: 0 :: rest => (ofQuads? true rest).map ofList
  | 0 :: 0 :: 0xfe :: 0xff :: rest => (ofQuads? false rest).map ofList
  | 0xff :: 0xfe :: rest => ((pairs? true rest).bind ofUnits?).map ofList
  | 0xfe :: 0xff :: rest => ((pairs? false rest).bind ofUnits?).map ofList
  | _ =>
    (fromUTF8? bytes).bind fun s =>
      if isAscii s then if hasShift s.toList then none else some s
      else if certainty ≤ (s.toList.filter fun c => 128 ≤ c.toNat).length then some s
      else none

end Mender.Text
