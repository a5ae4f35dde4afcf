import Mender.Text.Quote
import Mender.Yaml.Value

/-!
# Writing YAML

`Yaml.write` writes a document with one entry a line and the entries of a map in order. A text is written as it
is where that is clear, in single quotes where it must be kept apart from other values, and in double quotes if
it has characters that need an escape. Lines are broken at the first blank beyond the width of a line.
-/

namespace Mender.Yaml

variable (c : Char) (indent : Nat) (isKey : Bool) (v : Value) (s : String)

def lineWidth : Nat := 80

/-! ## Choosing quotes -/

/-- Characters behind which a colon or a hash has a meaning, and in front of which a colon has. -/
def endsWord : Option Char → Bool
  | none => true
  | some c => " \t\r\n".contains c

/-- Would the text be taken for something else if it were written plain? `before` is the character in front. -/
def hasIndicator : Option Char → List Char → Bool
  | _, [] => false
  | before, c :: cs =>
    (match before with
      | none => "#,[]\x7b\x7d&*!|>'\"%@\x60".contains c || ((c == '?' || c == ':' || c == '-') && endsWord cs.head?)
      | some _ => (c == ':' && endsWord cs.head?) || (c == '#' && endsWord before)) ||
    hasIndicator (some c) cs

def isSpecial : Bool := ! (c == '\n' || (' ' ≤ c && c ≤ '~'))

def hasPair (a b : Char) : List Char → Bool
  | c :: d :: cs => (c == a && d == b) || hasPair a b (d :: cs)
  | _ => false

def isMultiline : Bool := s.contains '\n'

def isPlain : Bool :=
  let cs := s.toList
  let edge := fun (c : Option Char) => c == some ' ' || c == some '\n'
  ! isReserved s && ! s.startsWith "---" && ! s.startsWith "..." && ! hasIndicator none cs &&
    ! cs.any isSpecial && ! isMultiline s && ! edge cs.head? && ! edge cs.getLast?

def isQuotable : Bool :=
  let cs := s.toList
  ! cs.any isSpecial && ! hasPair ' ' '\n' cs && ! hasPair '\n' ' ' cs

/-! ## Texts -/

/-- Some text, and the column at which it ends. -/
structure Ink where
  chars : List Char
  col : Nat

variable (i : Ink)

def Ink.put (cs : List Char) : Ink := ⟨i.chars ++ cs, i.col + cs.length⟩

def Ink.line (indent : Nat) : Ink := ⟨i.chars ++ '\n' :: List.replicate indent ' ', indent⟩

def runs : List Char → List (List Char)
  | [] => []
  | c :: cs =>
    match runs cs with
    | (d :: ds) :: rest => if kind c == kind d then (c :: d :: ds) :: rest else [c] :: (d :: ds) :: rest
    | rest => [c] :: rest
where
  kind (c : Char) : Nat := if c == ' ' then 0 else if c == '\n' then 1 else 2

/-- Write the runs of a text. A single blank may become a line end, and line ends are doubled. -/
def fill (indent : Nat) (quoted canBreak : Bool) : Bool → List (List Char) → Ink → Ink
  | _, [], i => i
  | isFirst, r :: rs, i =>
    let next := match r with
      | ' ' :: more =>
        if more.isEmpty && lineWidth < i.col && canBreak && ! (quoted && (isFirst || rs.isEmpty))
        then i.line indent else i.put r
      | '\n' :: _ => (⟨i.chars ++ '\n' :: r ++ List.replicate indent ' ', indent⟩ : Ink)
      | _ => if quoted then i.put (r.flatMap fun c => if c == '\'' then ['\'', '\''] else [c]) else i.put r
    fill indent quoted canBreak false rs next

def escapes : List (Char × Char) :=
  [('\x00', '0'), ('\x07', 'a'), ('\x08', 'b'), ('\t', 't'), ('\n', 'n'), ('\x0b', 'v'), ('\x0c', 'f'),
    ('\r', 'r'), ('\x1b', 'e'), ('"', '"'), ('\\', '\\'), ('\u0085', 'N'), (' ', '_'), (' ', 'L'),
    (' ', 'P')]

def escaped : List Char :=
  match escapes.find? (·.1 == c) with
  | some (_, e) => ['\\', e]
  | none =>
    if ' ' ≤ c && c ≤ '~' then [c]
    else
      let n := c.toNat
      let hex := fun width => (Text.hexOf width n).toUpper.toList
      if n ≤ 0xff then '\\' :: 'x' :: hex 2
      else if n ≤ 0xffff then '\\' :: 'u' :: hex 4
      else '\\' :: 'U' :: hex 8

/-- Write a text inside double quotes. `held` are characters that wait for the next place where the line may be
broken, in front of a blank or behind an escape; `first` tells if nothing was read yet. -/
def escapeFill (indent : Nat) (canBreak : Bool) : Bool → List Char → List Char → Ink → Ink
  | _, held, [], i => i.put held
  | first, held, c :: cs, i =>
    let isPlainChar := escaped c == [c]
    let atPlace := ! first && ! cs.isEmpty && (c == ' ' || ! isPlainChar || held.isEmpty)
    let (held, i) := if isPlainChar then (held, i) else ([], (i.put held).put (escaped c))
    let reach := if isPlainChar then i.col + held.length else i.col - 1
    let now := if isPlainChar then [c] else []
    if atPlace && lineWidth < reach && canBreak then
      let i := (i.put (held ++ ['\\'])).line indent
      let next := if isPlainChar then some c else cs.head?
      escapeFill indent canBreak false now cs (if next == some ' ' then i.put ['\\'] else i)
    else escapeFill indent canBreak false (held ++ now) cs i

def putText : Ink :=
  let cs := s.toList
  if isPlain s then fill indent false (! isKey) true (runs cs) i
  else if isQuotable s && ! (isKey && isMultiline s) then
    (fill indent true (! isKey) true (runs cs) (i.put ['\''])).put ['\'']
  else (escapeFill indent (! isKey) true [] cs (i.put ['"'])).put ['"']

def floatText (f : Float) : String :=
  if f.isNaN then ".nan"
  else if f == 1.0 / 0.0 then ".inf"
  else if f == -(1.0 / 0.0) then "-.inf"
  else
    let s := Text.showFloat f
    if s.contains '.' then s else s.replace "e" ".0e"

def putScalar : Ink :=
  let put := fun (s : String) => i.put s.toList
  match v with
  | .null => put "null"
  | .truth b => put (toString b)
  | .integer n => put (toString n)
  | .float f => put (floatText f)
  | .moment s => put s
  | .text s => putText indent isKey s i
  | .list _ => put "[]"
  | .map _ => put "\x7b\x7d"

/-! ## Documents -/

/-- The entries of a map in the order of their keys, if the keys can be compared. -/
def inOrder (es : List (Value × Value)) : List (Value × Value) :=
  let texts := es.mapM fun e => match e.1 with
    | .text s => some s
    | _ => none
  let numbers := es.mapM fun e => match e.1 with
    | .integer n => some n
    | .truth b => some (if b then 1 else 0)
    | _ => none
  match texts, numbers with
  | some texts, _ => ((texts.zip es).mergeSort fun a b => decide (a.1 ≤ b.1)).map (·.2)
  | none, some numbers => ((numbers.zip es).mergeSort fun a b => decide (a.1 ≤ b.1)).map (·.2)
  | none, none => es

mutual

def arranged : Value → Value
  | .list vs => .list (arrangedItems vs)
  | .map es => .map (inOrder (arrangedEntries es))
  | v => v

def arrangedItems : List Value → List Value
  | [] => []
  | v :: vs => arranged v :: arrangedItems vs

def arrangedEntries : List (Value × Value) → List (Value × Value)
  | [] => []
  | (k, v) :: es => (k, arranged v) :: arrangedEntries es

end

mutual

/-- Write a value behind a key or a dash. `indent` is the column of the map or list that it belongs to. -/
def putValue (indent : Nat) (behindKey : Bool) (i : Ink) : Value → Ink
  | .list (v :: vs) =>
    if behindKey then putItems indent false (v :: vs) i
    else putItems (indent + 2) true (v :: vs) (i.put [' '])
  | .map (e :: es) => putEntries (indent + 2) (! behindKey) (e :: es) (if behindKey then i else i.put [' '])
  | v => putScalar (indent + 2) false v (i.put [' '])

/-- Write the items of a list at a column; the first one may go on where the line is. -/
def putItems (indent : Nat) (onLine : Bool) : List Value → Ink → Ink
  | [], i => i
  | v :: vs, i =>
    let i := if onLine then i else i.line indent
    putItems indent false vs (putValue indent false (i.put ['-']) v)

/-- Write the entries of a map at a column; the first one may go on where the line is. -/
def putEntries (indent : Nat) (onLine : Bool) : List (Value × Value) → Ink → Ink
  | [], i => i
  | (k, v) :: es, i =>
    let i := if onLine then i else i.line indent
    putEntries indent false es (putValue indent true ((putScalar (indent + 2) true k i).put [':']) v)

end

def write : String :=
  let ink : Ink := ⟨[], 0⟩
  let done := match arranged v with
    | .list (v :: vs) => putItems 0 true (v :: vs) ink
    | .map (e :: es) => putEntries 0 true (e :: es) ink
    | v => putScalar 2 false v ink
  String.ofList done.chars ++ "\n"

end Mender.Yaml
