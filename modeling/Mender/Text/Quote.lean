import Mender.Text.Printable

/-!
# Quoted texts

A text is shown between quotes so that it can be read back: single quotes unless the text holds single
and no double ones, a backslash in front of what would end the quotation, and numbers for characters
that cannot be shown.
-/

namespace Mender.Text

def hexOf (width n : Nat) : String :=
  let ds := Nat.toDigits 16 n
  String.ofList (List.replicate (width - ds.length) '0' ++ ds)

def quotedChar (mark c : Char) : String :=
  if c == mark || c == '\\' then "\\" ++ c.toString
  else if c == '\n' then "\\n"
  else if c == '\r' then "\\r"
  else if c == '\t' then "\\t"
  else if isPrintable c then c.toString
  else if c.toNat < 0x100 then "\\x" ++ hexOf 2 c.toNat
  else if c.toNat < 0x10000 then "\\u" ++ hexOf 4 c.toNat
  else "\\U" ++ hexOf 8 c.toNat

def quoteMark (s : String) : Char := if s.toList.contains '\'' && ! s.toList.contains '"' then '"' else '\''

def quoted (s : String) : String :=
  let mark := quoteMark s
  mark.toString ++ String.join (s.toList.map (quotedChar mark)) ++ mark.toString

def quotedList (ss : List String) : String := "[" ++ String.intercalate ", " (ss.map quoted) ++ "]"

end Mender.Text
