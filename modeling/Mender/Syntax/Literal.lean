import Mender.Syntax.Assemble

/-!
# Text literals

A text literal is its marker letters, a quote of one or three characters, its raw text and the quote
again. `Literal.value?` is the text that the literal stands for.
-/

namespace Mender.Syntax.Literal

structure Parts where
  mark : String
  quote : String
  raw : String
  deriving Repr, DecidableEq

def parts (text : String) : Parts :=
  let cs := text.toList
  let mark := cs.takeWhile Text.isWordChar
  let rest := cs.drop mark.length
  let quote := match Token.quote? rest with
    | some (q, body) => if q.length == 3 && body.length ≥ 3 then q else rest.take 1
    | none => []
  let inner := rest.drop quote.length
  { mark := String.ofList (mark.map Char.toLower)
    quote := String.ofList quote
    raw := String.ofList (inner.take (inner.length - quote.length)) }

def stripQuotes (s : String) : String :=
  let cs := s.toList.dropWhile (· == '"')
  String.ofList ((cs.reverse.dropWhile (· == '"')).reverse)

private def isOctalDigit (c : Char) : Bool := '0' ≤ c && c ≤ '7'

/-- Resolve the escapes of a text. Fails on an escape that is cut short or names a character. -/
def unescape : List Char → Option (List Char)
  | [] => some []
  | '\\' :: '\r' :: '\n' :: rest => unescape rest
  | '\\' :: '\n' :: rest => unescape rest
  | '\\' :: '\r' :: rest => unescape rest
  | '\\' :: 'x' :: rest => coded 2 rest
  | '\\' :: 'u' :: rest => coded 4 rest
  | '\\' :: 'U' :: rest => coded 8 rest
  | '\\' :: 'N' :: _ => none
  | '\\' :: c :: rest =>
    if isOctalDigit c then
      let more := (rest.take 2).takeWhile isOctalDigit
      let n := (c :: more).foldl (fun n d => n * 8 + (d.toNat - 48)) 0
      (unescape (rest.drop more.length)).map (Char.ofNat n :: ·)
    else
      match simple c with
      | some d => (unescape rest).map (d :: ·)
      | none => (unescape rest).map fun r => '\\' :: c :: r
  | c :: rest => (unescape rest).map (c :: ·)
termination_by cs => cs.length
decreasing_by all_goals (simp only [List.length_cons, List.length_drop]; omega)
where
  simple : Char → Option Char
    | '\'' => some '\''
    | 'a' => some '\x07'
    | 'v' => some '\x0b'
    | c => Text.escapeFor? c
  coded (k : Nat) (cs : List Char) : Option (List Char) :=
    if (cs.take k).length < k then none
    else
      match Text.hexNumber? (cs.take k), unescape (cs.drop k) with
      | some n, some rest => some (Char.ofNat n :: rest)
      | _, _ => none
  termination_by cs.length + 1
  decreasing_by exact Nat.lt_succ_of_le (List.length_drop ▸ Nat.sub_le ..)

def value? (text : String) : Option String :=
  let p := parts text
  if p.mark.toList.contains 'b' then none
  else if p.mark.toList.contains 'r' then some p.raw
  else (unescape p.raw.toList).map String.ofList

def ofNode? : Node → Option String
  | .mk .simpleString t _ _ => value? t
  | .mk .concatenatedString _ [_, left, _, right, _] _ =>
    match ofNode? left, ofNode? right with
    | some a, some b => some (a ++ b)
    | _, _ => none
  | _ => none

end Mender.Syntax.Literal
