import Mender.Text.Letter
import Mender.Yaml.Value

/-!
# Reading YAML

`Yaml.read` reads a document. Its structure is in the columns at which its entries begin, or in brackets.
-/

namespace Mender.Yaml

open Value

variable (inFlow : Bool)

inductive Problem where
  /-- the characters make no sense here -/
  | scan
  /-- the parts do not fit together -/
  | parse
  /-- a part is named that there is not -/
  | compose
  deriving DecidableEq, Repr, Inhabited

def Problem.label : Problem → String
  | .scan => "ScannerError"
  | .parse => "ParserError"
  | .compose => "ComposerError"

/-- A place in a text: what is left of it, and the column. -/
structure Spot where
  rest : List Char
  col : Nat

variable (s : Spot)

/-- The place behind some characters of the line. -/
def Spot.drop (n : Nat) : Spot := ⟨s.rest.drop n, s.col + n⟩

def skipFrom (inComment : Bool) : List Char → Nat → Spot
  | '\n' :: cs, _ => skipFrom false cs 0
  | c :: cs, col =>
    if inComment || c == ' ' then skipFrom inComment cs (col + 1)
    else if c == '#' then skipFrom true cs (col + 1)
    else ⟨c :: cs, col⟩
  | [], col => ⟨[], col⟩

def Spot.next : Spot := skipFrom false s.rest s.col

/-- Is there a line end between two places, the first of which has the longer rest? -/
def crossesLine (a b : Spot) : Bool := (a.rest.take (a.rest.length - b.rest.length)).contains '\n'

def isBreak : List Char → Bool
  | [] => true
  | c :: _ => c == ' ' || c == '\t' || c == '\n'

/-! ## Scalars -/

/-- Blanks and line ends inside a scalar: a single line end is a blank, and of more the first is dropped. -/
def folded (blanks : List Char) (lines : Nat) : List Char :=
  match lines with
  | 0 => blanks.reverse
  | 1 => [' ']
  | n + 1 => List.replicate n '\n'

def escapeFor? : Char → Option Char
  | '0' => some '\x00' | 'a' => some '\x07' | '\t' => some '\t' | 'v' => some '\x0b' | 'e' => some '\x1b'
  | ' ' => some ' ' | '/' => some '/' | 'N' => some '\u0085' | '_' => some '\u00a0' | 'L' => some '\u2028'
  | 'P' => some '\u2029' | c => Text.escapeFor? c

def escapeWidth? : Char → Option Nat
  | 'x' => some 2 | 'u' => some 4 | 'U' => some 8 | _ => none

/-- A text up to its closing quote. `acc` holds what was read, the last character first; `blanks` and `lines`
are the blanks and line ends that were read since. -/
def quotedTail (mark : Char) : Nat → Spot → List Char → List Char → Nat → Except Problem (List Char × Spot)
  | 0, _, _, _, _ => .error .scan
  | fuel + 1, s, acc, blanks, lines =>
    let flushed := (folded blanks lines).reverse ++ acc
    match s.rest with
    | [] => .error .scan
    | '\n' :: cs => quotedTail mark fuel ⟨cs, 0⟩ acc [] (lines + 1)
    | c :: cs =>
      if c == mark then
        if mark == '\'' && cs.head? == some '\'' then quotedTail mark fuel (s.drop 2) ('\'' :: flushed) [] 0
        else .ok (flushed.reverse, s.drop 1)
      else if c == ' ' || c == '\t' then
        quotedTail mark fuel (s.drop 1) acc (if lines == 0 then c :: blanks else []) lines
      else if c == '\\' && mark == '"' then
        match cs with
        | '\n' :: cs => quotedTail mark fuel ⟨cs.dropWhile fun c => c == ' ' || c == '\t', 0⟩ flushed [] 0
        | e :: cs =>
          match escapeWidth? e with
          | some width =>
            match Text.hexNumber? (cs.take width) with
            | some n =>
              if cs.length < width then .error .scan
              else quotedTail mark fuel (s.drop (2 + width)) (Char.ofNat n :: flushed) [] 0
            | none => .error .scan
          | none =>
            match escapeFor? e with
            | some x => quotedTail mark fuel (s.drop 2) (x :: flushed) [] 0
            | none => .error .scan
        | [] => .error .scan
      else quotedTail mark fuel (s.drop 1) (c :: flushed) [] 0

def startsPlain : List Char → Bool
  | [] => false
  | c :: cs =>
    ! " \t\n-?:,[]\x7b\x7d#&*!|>'\"%@\x60".contains c || (! isBreak cs && (c == '-' || (! inFlow && (c == '?' || c == ':'))))

def plainLine (inFlow : Bool) (before : Char) : List Char → List Char
  | [] => []
  | c :: cs =>
    let endsKey := c == ':' && (isBreak cs || (inFlow && (cs.head?.any fun d => ",[]\x7b\x7d".contains d)))
    if c == '\n' || c == '\t' || endsKey || (c == '#' && before == ' ') || (inFlow && ",?[]\x7b\x7d".contains c)
    then [] else c :: plainLine inFlow c cs

def plainPart : List Char × Spot :=
  let cs := plainLine inFlow 'a' s.rest
  let kept := (cs.reverse.dropWhile (· == ' ')).reverse
  (kept, s.drop kept.length)

/-- The lines that continue a plain text. They begin behind the column of the block. -/
def plainMore (inFlow : Bool) (block : Int) : Nat → List Char → Spot → List Char × Spot
  | 0, acc, s => (acc, s)
  | fuel + 1, acc, s =>
    let gap := s.rest.takeWhile fun c => c == ' ' || c == '\n'
    let breaks := (gap.filter (· == '\n')).length
    let col := (gap.reverse.takeWhile (· == ' ')).length
    let rest := s.rest.drop gap.length
    let starts := ! rest.isEmpty && rest.head? != some '#' && ! (plainLine inFlow 'a' rest).isEmpty
    if breaks == 0 || ! starts || (! inFlow && (col : Int) ≤ block) then (acc, s)
    else
      let (part, s) := plainPart inFlow ⟨rest, col⟩
      plainMore inFlow block fuel (acc ++ folded [] breaks ++ part) s

/-! ## Texts in blocks -/

/-- The lines of a block of text below a column, each without its indentation, and the place behind it. -/
def blockLines (col : Nat) : Nat → List Char → List (List Char) → List (List Char) × List Char
  | 0, cs, acc => (acc.reverse, cs)
  | fuel + 1, cs, acc =>
    let line := cs.takeWhile (· != '\n')
    let rest := cs.drop (line.length + 1)
    let isBlank := line.all (· == ' ')
    if cs.isEmpty then (acc.reverse, cs)
    else if isBlank && line.length ≤ col then blockLines col fuel rest ([] :: acc)
    else if col ≤ (line.takeWhile (· == ' ')).length then blockLines col fuel rest (line.drop col :: acc)
    else (acc.reverse, cs)

/-- The column of a block of text: that of its first line that is not blank, or of a longer blank line. -/
def blockColumn (least : Nat) (cs : List Char) : Nat :=
  let gap := cs.takeWhile fun c => c == ' ' || c == '\n'
  ((Text.piecesOf '\n' gap).map (·.length)).foldl max least

/-- Join the lines of a block that is folded: a line end between two lines of text is a blank. -/
def joinFolded : List (List Char) → List Char
  | [] => []
  | [l] => l
  | l :: rest =>
    let isText := fun (l : List Char) => ! (l.head?.any fun c => c == ' ' || c == '\t')
    let empty := (rest.takeWhile (·.isEmpty)).length
    match rest.drop empty with
    | [] => l ++ List.replicate empty '\n'
    | m :: _ =>
      let gap := if isText l && isText m then (if empty == 0 then [' '] else List.replicate empty '\n')
        else List.replicate (empty + 1) '\n'
      l ++ gap ++ joinFolded (rest.drop empty)
termination_by ls => ls.length
decreasing_by simp only [List.length_drop, List.length_cons]; omega

def blockText (block : Int) (s : Spot) : Except Problem (String × Spot) :=
  let isFolded := s.rest.head? == some '>'
  let header := (s.rest.drop 1).takeWhile (· != '\n')
  let marks := header.takeWhile fun c => c == '+' || c == '-' || c.isDigit
  let after := header.drop marks.length
  let body := s.rest.drop (header.length + 2)
  if ! (isBreak after && ((after.dropWhile (· == ' ')).head?.all (· == '#'))) || 2 < marks.length then .error .scan
  else
    let least := (block + 1).toNat
    let least := if least < 1 then 1 else least
    let col := match marks.find? Char.isDigit with
      | some d => least + (d.toNat - 48) - 1
      | none => blockColumn least body
    let (lines, rest) := blockLines col (body.length + 1) body []
    let trailing := (lines.reverse.takeWhile (·.isEmpty)).length
    let kept := lines.take (lines.length - trailing)
    let text := if isFolded then joinFolded kept else ((kept.map fun l => l ++ ['\n']).flatten).dropLast
    let ending := if marks.contains '-' then [] else if marks.contains '+' then
        List.replicate (trailing + (if kept.isEmpty then 0 else 1)) '\n'
      else if kept.isEmpty then [] else ['\n']
    .ok (String.ofList (text ++ ending), ⟨rest, 0⟩)

/-! ## Structure -/

def isDash (cs : List Char) : Bool := cs.head? == some '-' && isBreak (cs.drop 1)

def lineScalar : Except Problem (Value × Spot) :=
  match s.rest with
  | '"' :: _ => quotedText '"'
  | '\'' :: _ => quotedText '\''
  | cs =>
    if startsPlain inFlow cs then
      let (part, t) := plainPart inFlow s
      .ok (ofWord (String.ofList part), t)
    else .error (if (cs.head?.any fun c => ",]\x7d".contains c) then .parse
      else if cs.head? == some '*' then .compose else .scan)
where
  quotedText (mark : Char) : Except Problem (Value × Spot) := do
    let (cs, t) ← quotedTail mark (s.rest.length + 1) (s.drop 1) [] [] 0
    return (.text (String.ofList cs), t)

def endsKey : Bool :=
  match s.rest.dropWhile (· == ' ') with
  | ':' :: cs => isBreak cs
  | _ => false

def afterColon : Spot := s.drop ((s.rest.takeWhile (· == ' ')).length + 1)

mutual

def flowValue : Nat → Spot → Except Problem (Value × Spot)
  | 0, _ => .error .scan
  | fuel + 1, s => do
    match s.rest with
    | '[' :: _ => flowItems fuel (s.drop 1) []
    | '\x7b' :: _ => flowEntries fuel (s.drop 1) []
    | c :: _ =>
      if c == '"' || c == '\'' then lineScalar true s
      else
        let (v, t) ← lineScalar true s
        let (part, _) := plainPart true s
        let (cs, t') := plainMore true 0 t.rest.length part t
        if cs.length == part.length then return (v, t) else return (ofWord (String.ofList cs), t')
    | [] => .error .parse

/-- The items of a list up to its closing bracket. An item may be a single entry of a map. -/
def flowItems : Nat → Spot → List Value → Except Problem (Value × Spot)
  | 0, _, _ => .error .scan
  | fuel + 1, s, acc => do
    let s := s.next
    match s.rest with
    | ']' :: _ => return (.list acc.reverse, s.drop 1)
    | [] => .error .parse
    | _ =>
      let (v, s) ← flowValue fuel s
      let s := s.next
      let (v, s) ← if s.rest.head? == some ':' then do
          let (w, s) ← flowValue fuel (s.drop 1).next
          pure (map [(v, w)], s.next)
        else pure (v, s)
      match s.rest with
      | ',' :: _ => flowItems fuel (s.drop 1) (v :: acc)
      | ']' :: _ => return (.list (v :: acc).reverse, s.drop 1)
      | _ => .error .parse

/-- The entries of a map up to its closing brace. A key may stand alone. -/
def flowEntries : Nat → Spot → List (Value × Value) → Except Problem (Value × Spot)
  | 0, _, _ => .error .scan
  | fuel + 1, s, acc => do
    let s := s.next
    match s.rest with
    | '\x7d' :: _ => return (.map acc, s.drop 1)
    | [] => .error .parse
    | _ =>
      let (k, s) ← flowValue fuel s
      let s := s.next
      let (v, s) ← (match s.rest with
        | ':' :: _ => do
          let t := (s.drop 1).next
          match t.rest with
          | ',' :: _ | '\x7d' :: _ => pure (null, t)
          | _ =>
            let (w, s) ← flowValue fuel t
            pure (w, s.next)
        | _ => pure (.null, s))
      let acc := put acc k v
      match s.rest with
      | ',' :: _ => flowEntries fuel (s.drop 1) acc
      | '\x7d' :: _ => return (.map acc, s.drop 1)
      | _ => .error .parse

end

mutual

/-- The value that begins here. `block` is the column of the block that it belongs to, and `mayNest` tells if it
can be a block of its own. -/
def value : Nat → Int → Bool → Spot → Except Problem (Value × Spot)
  | 0, _, _, _ => .error .scan
  | fuel + 1, block, mayNest, s => do
    match s.rest with
    | [] => return (.null, s)
    | '|' :: _ | '>' :: _ =>
      let (t, s) ← blockText block s
      return (.text t, s)
    | '[' :: _ | '\x7b' :: _ => flowValue fuel s
    | '&' :: _ =>
      let name := s.rest.takeWhile fun c => c != ' ' && c != '\n'
      let t := (s.drop name.length).next
      value fuel block (mayNest || crossesLine s t) t
    | _ =>
      if isDash s.rest then
        if mayNest then items fuel s.col s [] else .error .scan
      else
        let (v, t) ← lineScalar false s
        if endsKey t && ! crossesLine s t then
          if mayNest then entries fuel s.col s [] else .error .scan
        else if s.rest.head? == some '"' || s.rest.head? == some '\'' then return (v, t)
        else
          let (part, _) := plainPart false s
          let (cs, t') := plainMore false block t.rest.length part t
          if endsKey t' then .error .scan
          else if cs.length == part.length then return (v, t)
          else return (ofWord (String.ofList cs), t')

def items : Nat → Nat → Spot → List Value → Except Problem (Value × Spot)
  | 0, _, _, _ => .error .scan
  | fuel + 1, col, s, acc => do
    let t := (s.drop 1).next
    let (v, t) ← if t.rest.isEmpty || (crossesLine s t && t.col ≤ col) then pure (null, t)
      else value fuel col true t
    let t' := t.next
    if t'.rest.isEmpty || t'.col < col then return (.list (v :: acc).reverse, t')
    else if t'.col == col && isDash t'.rest then items fuel col t' (v :: acc)
    else if t'.col == col then return (.list (v :: acc).reverse, t')
    else .error .parse

def entries : Nat → Nat → Spot → List (Value × Value) → Except Problem (Value × Spot)
  | 0, _, _, _ => .error .scan
  | fuel + 1, col, s, acc => do
    let (k, t) ← lineScalar false s
    if ! endsKey t || crossesLine s t then .error .scan
    let t := afterColon t
    let u := t.next
    let isBelow := crossesLine t u
    let (v, u) ← if u.rest.isEmpty then pure (null, u)
      else if ! isBelow then value fuel col false u
      else if isDash u.rest && u.col == col then items fuel col u []
      else if col < u.col then value fuel col true u
      else pure (null, u)
    let acc := put acc k v
    let u' := u.next
    if u'.rest.isEmpty || u'.col < col then return (.map acc, u')
    else if u'.col == col && ! isDash u'.rest then entries fuel col u' acc
    else .error .parse

end

def plainEnds : List Char → List Char
  | '\r' :: '\n' :: cs => '\n' :: plainEnds cs
  | '\r' :: cs => '\n' :: plainEnds cs
  | c :: cs => c :: plainEnds cs
  | [] => []

def read (text : String) : Except Problem Value := do
  let start : Spot := Spot.next ⟨plainEnds text.toList, 0⟩
  let start := match start.rest with
    | '-' :: '-' :: '-' :: cs => if isBreak cs then (start.drop 3).next else start
    | _ => start
  if start.rest.isEmpty then return .null
  let (v, s) ← value (start.rest.length + 2) (-1) true start
  match s.next.rest with
  | [] => return v
  | '.' :: '.' :: '.' :: _ => return v
  | '-' :: '-' :: '-' :: _ => .error .compose
  | _ => .error .parse

end Mender.Yaml
