import Mender.Text.Number
import Mender.Toml.Value

/-!
# Reading TOML

`Toml.read` reads a document, or says why it cannot be read. Line ends are expected to be single line feeds.
-/

namespace Mender.Toml

open Char

variable (c q : Char) (cs : List Char)

def isSpaceChar : Bool := c == ' ' || c == '\t'

def isGap : Bool := isSpaceChar c || c == '\n' || c == '\r'

def skipSpaces : List Char := cs.dropWhile isSpaceChar

def isControl : Bool := c.toNat == 0x7f || (c.toNat ≤ 0x1f && c != '\t')

def endsWord : Bool := isGap c || c == '#' || c == ',' || c == ']' || c == '\x7d'

/-! ## Texts -/

def numberedChar? (width : Nat) (cs : List Char) : Option (Char × List Char) :=
  let ds := cs.take width
  if ds.length < width then none
  else (Text.hexNumber? ds).bind fun n =>
    if n < 0xd800 ∨ (0xdfff < n ∧ n < 0x110000) then some (ofNat n, cs.drop width) else none

/-- What stands behind a backslash. Over several lines it also hides the blanks up to the next character, if a
line end is among them. -/
def escaped (many : Bool) : List Char → Except Problem (List Char × List Char)
  | [] => .error .unexpectedEnd
  | c :: rest =>
    if many && isGap c then
      let gap := (c :: rest).takeWhile isGap
      let rest := (c :: rest).dropWhile isGap
      if rest.isEmpty then .error .unexpectedEnd
      else if gap.contains '\n' then .ok ([], rest) else .error .badEscape
    else
      match Text.escapeFor? c with
      | some d => if rest.isEmpty then .error .unexpectedEnd else .ok ([d], rest)
      | none =>
        if c == 'u' || c == 'U' then
          match numberedChar? (if c == 'u' then 4 else 8) rest with
          | some (d, rest) => .ok ([d], rest)
          | none => .error .badCharacter
        else .error .badEscape

def quoteRun : Nat := (cs.takeWhile (· == q)).length

def textBody (q : Char) (many : Bool) : Nat → List Char → Except Problem (List Char × List Char)
  | 0, _ => .error .unexpectedEnd
  | fuel + 1, cs =>
    match cs with
    | [] => .error .controlChar
    | c :: rest =>
      if isControl c && ! (many && (c == '\n' || c == '\r')) then .error .controlChar
      else if c == q then
        if ! many then .ok ([], rest)
        else
          let n := quoteRun q cs
          if n < 3 then do
            let (s, r) ← textBody q many fuel (cs.drop n)
            return (List.replicate n q ++ s, r)
          else if 6 ≤ n then .error .badEscape
          else .ok (List.replicate (n - 3) q, cs.drop n)
      else if q == '"' && c == '\\' then
        if rest.isEmpty then .error .unexpectedEnd
        else do
          let (e, rest) ← escaped many rest
          let (s, r) ← textBody q many fuel rest
          return (e ++ s, r)
      else if rest.isEmpty then .error .unexpectedEnd
      else do
        let (s, r) ← textBody q many fuel rest
        return (c :: s, r)

/-- A text in quotes, and whether it may run over several lines. -/
def quotedText : Except Problem ((List Char × Bool) × List Char) :=
  match cs.drop 1 with
  | [] => .error .unexpectedEnd
  | c :: rest =>
    if c != q then do
      let (s, r) ← textBody q false (rest.length + 2) (c :: rest)
      return ((s, false), r)
    else
      match rest with
      | d :: body =>
        if d != q then .ok (([], false), d :: body)
        else if body.isEmpty then .error .unexpectedEnd
        else do
          let body := match body with
            | '\n' :: inner => inner
            | '\r' :: '\n' :: inner => inner
            | _ => body
          if body.isEmpty then .error .unexpectedEnd
          let (s, r) ← textBody q true (body.length + 1) body
          return ((s, true), r)
      | [] => .ok (([], false), [])

/-! ## Keys -/

def key : Nat → List Char → Except Problem (List String × List Char)
  | 0, _ => .error .emptyKey
  | fuel + 1, cs => do
    let cs := skipSpaces cs
    let (part, rest) ← match cs.head? with
      | some q =>
        if q == '"' || q == '\'' then quotedPart q cs else barePart cs
      | none => barePart cs
    match rest with
    | '.' :: rest =>
      let (parts, rest) ← key fuel rest
      return (part :: parts, rest)
    | _ => return ([part], rest)
where
  quotedPart (q : Char) (cs : List Char) : Except Problem (String × List Char) := do
    let ((s, many), rest) ← quotedText q cs
    if many then .error .unexpectedChar
    return (String.ofList s, skipSpaces rest)
  barePart (cs : List Char) : Except Problem (String × List Char) :=
    let run := cs.takeWhile fun c => c.isAlphanum || c == '-' || c == '_' || isSpaceChar c
    let name := (run.reverse.dropWhile isSpaceChar).reverse
    if name.isEmpty then .error .emptyKey
    else if name.contains ' ' then .error .malformed
    else .ok (String.ofList name, cs.drop run.length)

/-! ## Numbers and dates -/

/-- Take out underscores that stand between two digits. -/
def joinDigits (isDigit : Char → Bool) : List Char → List Char
  | a :: '_' :: b :: rest =>
    if isDigit a && isDigit b then a :: joinDigits isDigit (b :: rest)
    else a :: joinDigits isDigit ('_' :: b :: rest)
  | a :: rest => a :: joinDigits isDigit rest
  | [] => []
termination_by cs => cs.length

def digitsIn? (base : Nat) (cs : List Char) : Option Nat :=
  if cs.isEmpty then none
  else cs.foldl (fun n c => n.bind fun n => (Text.hexValue? c).bind fun d =>
    if d < base then some (n * base + d) else none) (some 0)

/-- Is this a decimal number with a point or an exponent, or one that is no number or infinite? -/
def isFloat : Bool :=
  let whole := cs.takeWhile isDigit
  let rest := cs.drop whole.length
  let (part, rest) := match rest with
    | '.' :: r => r.span isDigit
    | _ => ([], rest)
  let mantissa := ! whole.isEmpty || ! part.isEmpty
  let power := match rest with
    | [] => true
    | e :: r =>
      let r := match r with
        | '+' :: r | '-' :: r => r
        | _ => r
      e == 'e' && ! r.isEmpty && r.all isDigit
  (mantissa && power) || ["inf", "infinity", "nan"].contains (String.ofList cs)

def number? (raw : List Char) : Option Value :=
  let (sign, cs) := match raw with
    | '+' :: r => (['+'], r)
    | '-' :: r => (['-'], r)
    | _ => ([], raw)
  let begins := fun (s : String) => s.toList.isPrefixOf cs
  let based := begins "0o" || begins "0x" || begins "0b"
  if 1 < cs.length && ((begins "0" && ! based && ! begins "0." && ! begins "0e") || (! sign.isEmpty && begins ".")) then none
  else if based && ! sign.isEmpty then none
  else
    let (isDigit, base) : (Char → Bool) × Nat :=
      if begins "0b" then (fun c => c == '0' || c == '1', 2)
      else if begins "0o" then (fun c => '0' ≤ c && c ≤ '7', 8)
      else if begins "0x" then (fun c => (Text.hexValue? c).isSome, 16)
      else (isDigit, 10)
    let clean := (joinDigits isDigit cs).map toLower
    let mantissa := clean.takeWhile (· != 'e')
    if clean.contains '_' || clean.getLast? == some '.' || (base != 16 && mantissa.getLast? == some '.') then none
    else
      match digitsIn? base (if based then clean.drop 2 else clean) with
      | some n => some (.integer (if sign == ['-'] then -(n : Int) else n))
      | none =>
        if isFloat clean then some (.float (String.ofList (sign ++ clean))) else none

def twoDigits? : List Char → Option (Nat × List Char)
  | a :: b :: rest =>
    if a.isDigit && b.isDigit then
      some ((a.toNat - '0'.toNat) * 10 + (b.toNat - '0'.toNat), rest)
    else none
  | _ => none

def isDay (year month day : Nat) : Bool :=
  let leap := (year % 4 == 0 && year % 100 != 0) || year % 400 == 0
  let days := [31, if leap then 29 else 28, 31, 30, 31, 30, 31, 31, 30, 31, 30, 31]
  0 < day && day ≤ days.getD (month - 1) 0 && 0 < month && 0 < year

def expect? : List Char → Option (List Char)
  | d :: rest => if d == c then some rest else none
  | [] => none

def date? : Option (Bool × List Char) := do
  let ys := cs.takeWhile isDigit
  let year ← digitsIn? 10 ys
  let (month, rest) ← twoDigits? (← expect? '-' (cs.drop ys.length))
  let (day, rest) ← twoDigits? (← expect? '-' rest)
  return (ys.length == 4 && isDay year month day, rest)

def time? : Option (Bool × List Char) := do
  let (hour, rest) ← twoDigits? cs
  let (minute, rest) ← twoDigits? (← expect? ':' rest)
  let (second, rest) ← twoDigits? (← expect? ':' rest)
  let rest ← match rest with
    | '.' :: r => if (r.takeWhile isDigit).isEmpty then none else some (r.dropWhile isDigit)
    | _ => some rest
  return (hour < 24 && minute < 60 && second < 60, rest)

def isOffset : List Char → Bool
  | [] => true
  | ['z'] | ['Z'] => true
  | sign :: rest =>
    (sign == '+' || sign == '-' || sign == '|') && (do
      let (hour, rest) ← twoDigits? rest
      let (minute, rest) ← twoDigits? (← expect? ':' rest)
      return hour < 24 && minute < 60 && rest.isEmpty).getD false

/-- What a word that begins with a digit may be. -/
inductive Moment where
  | both (right : Bool) | date (right : Bool) | time (right : Bool)

def moment? : Option Moment :=
  match date? cs with
  | some (right, []) => some (.date right)
  | some (right, rest) =>
    let rest := match rest with
      | 'T' :: r | 't' :: r | ' ' :: r => r
      | _ => rest
    ((time? rest).filter (isOffset ·.2)).map fun (right', _) => .both (right && right')
  | none => ((time? cs).filter (isOffset ·.2)).map fun (right, rest) => .time (right && rest.isEmpty)

def word : Except Problem (Value × List Char) :=
  let raw := cs.takeWhile (! endsWord ·)
  let rest := cs.drop raw.length
  let moment := fun (time : List Char) => .ok (.moment (String.ofList (raw ++ time)), rest.drop time.length)
  match moment? raw with
  | some (.both right) => if right then moment [] else .error .badMoment
  | some (.time right) => if right then moment [] else .error .badTime
  | some (.date right) =>
    let more := rest.takeWhile fun c => ! (endsWord c && c != ' ')
    let time := (more.reverse.dropWhile isSpaceChar).reverse
    if ! right then .error .badDate
    else if time.isEmpty then moment []
    else
      match moment? (raw ++ time) with
      | some (.both true) => moment time
      | _ => .error .badDate
  | none =>
    match number? raw with
    | some v => .ok (v, rest)
    | none => .error .badNumber

/-! ## Tables -/

def define (entries : List (String × Value)) (keys : List String) (v : Value) : Except Problem (List (String × Value)) :=
  match keys with
  | [] => .ok entries
  | [k] => if entries.any (·.1 == k) then .error .keyTaken else .ok (entries ++ [(k, v)])
  | k :: ks =>
    match entries.find? (·.1 == k) with
    | none => do return entries ++ [(k, .table (← define [] ks v))]
    | some (_, .table inner) => do
      let inner ← define inner ks v
      return entries.map fun e => if e.1 == k then (k, .table inner) else e
    | some _ => .error .keyTaken

/-- Change the table that a header names, `change` telling how. Tables on the way are made as needed, and of
tables under one name the last is meant. -/
def atTable (entries : List (String × Value)) (keys : List String)
    (change : List (String × Value) → Except Problem (List (String × Value))) :
    Except Problem (List (String × Value)) :=
  match keys with
  | [] => change entries
  | k :: ks =>
    let put := fun (v : Value) => entries.map fun e => if e.1 == k then (k, v) else e
    match entries.find? (·.1 == k) with
    | none => do return entries ++ [(k, .table (← atTable [] ks change))]
    | some (_, .table inner) => do return put (.table (← atTable inner ks change))
    | some (_, .tables items) =>
      match items.getLast? with
      | some (.table inner) => do
        return put (.tables (items.dropLast ++ [.table (← atTable inner ks change)]))
      | _ => .error .keyTaken
    | some _ => .error .keyTaken

/-! ## Values -/

def expectWord (w : String) (v : Value) (cs : List Char) : Except Problem (Value × List Char) :=
  if w.toList.isPrefixOf cs then .ok (v, cs.drop w.length) else .error .unexpectedChar

/-- Skip the blanks and the sign between a key and its value. -/
def assignment : Except Problem (List Char) :=
  let run := cs.takeWhile fun c => isSpaceChar c || c == '='
  match run.count '=' with
  | 1 => .ok (cs.drop run.length)
  | _ => .error .unexpectedChar

def commentText : Except Problem (List Char × List Char) :=
  let body := cs.takeWhile (· != '\n')
  if body.any isControl then .error .controlChar else .ok (body, cs.drop body.length)

mutual

def value (size : Nat) : Nat → List Char → Except Problem (Value × List Char)
  | 0, _ => .error .malformed
  | fuel + 1, cs =>
    match cs with
    | [] => .error .unexpectedChar
    | c :: rest =>
      if c == '"' || c == '\'' then do
        let ((s, _), rest) ← quotedText c cs
        return (.text (String.ofList s), rest)
      else if c == 't' then expectWord "true" (.truth true) cs
      else if c == 'f' then expectWord "false" (.truth false) cs
      else if c == '[' then
        if rest.isEmpty then .error .unexpectedEnd
        else do
          let (ps, rest) ← pieces size fuel false rest
          return (.array (size - cs.length) (size - rest.length) ps, rest)
      else if c == '\x7b' then
        if rest.isEmpty then .error .unexpectedEnd
        else do
          let (es, rest) ← inlineEntries size fuel true [] rest
          return (.table es, rest)
      else if c == '+' || c == '-' || ["inf", "nan"].contains (String.ofList (cs.takeWhile (! endsWord ·))) then
        let raw := cs.takeWhile (! endsWord ·)
        match number? raw with
        | some v => .ok (v, cs.drop raw.length)
        | none => .error .badNumber
      else if c.isDigit then word cs
      else .error .unexpectedChar

/-- The pieces of an array behind its bracket; `after` tells whether a member came last. -/
def pieces (size : Nat) : Nat → Bool → List Char → Except Problem (List Piece × List Char)
  | 0, _, _ => .error .malformed
  | fuel + 1, after, cs =>
    let gap := cs.takeWhile isGap
    let rest := cs.drop gap.length
    let isNote := rest.head? == some '#'
    if gap.contains '\n' || (! isNote && ! gap.isEmpty) then do
      let (ps, r) ← pieces size fuel after rest
      return (.blank (String.ofList gap) :: ps, r)
    else if isNote then do
      let (s, rest) ← commentText rest
      let (ps, r) ← pieces size fuel after rest
      return (.comment (String.ofList (gap ++ s)) :: ps, r)
    else
      let close : Except Problem (List Piece × List Char) :=
        match rest with
        | ',' :: next =>
          if ! after then .error .unexpectedChar
          else if next.isEmpty then .error .unexpectedEnd
          else do
            let (ps, r) ← pieces size fuel false next
            return (.comma :: ps, r)
        | ']' :: next => .ok ([], next)
        | _ => .error .unexpectedChar
      if after then close
      else
        match value size fuel rest with
        | .ok (v, next) => do
          let raw := rest.take (rest.length - next.length)
          let (ps, r) ← pieces size fuel true next
          return (.item (String.ofList raw) v :: ps, r)
        | .error .unexpectedChar => close
        | .error p => .error p

/-- The entries of a table in braces; `first` tells whether none has come yet. -/
def inlineEntries (size : Nat) : Nat → Bool → List (String × Value) → List Char →
    Except Problem (List (String × Value) × List Char)
  | 0, _, _, _ => .error .malformed
  | fuel + 1, first, entries, cs => do
    let cs := skipSpaces cs
    if first && cs.head? == some '\x7d' then return (entries, cs.drop 1)
    if cs.head? == some ',' || cs.head? == some '\x7d' then .error .unexpectedChar
    let (k, cs) ← key (cs.length + 1) cs
    let (v, cs) ← value size fuel (← assignment cs)
    let entries ← define entries k v
    match skipSpaces cs with
    | ',' :: rest => if rest.isEmpty then .error .unexpectedEnd else inlineEntries size fuel false entries rest
    | '\x7d' :: rest => return (entries, rest)
    | _ => .error .unexpectedChar

end

/-! ## Documents -/

def lineRest : Except Problem (List Char) :=
  match cs.dropWhile fun c => isSpaceChar c || c == '\r' with
  | [] => .ok []
  | '\n' :: rest => .ok rest
  | '#' :: rest => do
    let (_, rest) ← commentText ('#' :: rest)
    return rest.drop 1
  | _ => .error .unexpectedChar

/-- Where the reader stands: the document so far, the table that keys go to, and the tables that have had a
header of their own. -/
structure State where
  entries : List (String × Value) := []
  table : List String := []
  opened : List (List String) := []

variable (s : State) (keys : List String)

def State.enter : Except Problem State := do
  if s.opened.contains keys then .error .malformed
  let entries ← (atTable s.entries keys .ok).mapError fun _ => .malformed
  return { s with entries, table := keys, opened := s.opened ++ [keys] }

def State.enterNext : Except Problem State := do
  let add := fun (es : List (String × Value)) =>
    let k := keys.getLast?.getD ""
    match es.find? (·.1 == k) with
    | none => .ok (es ++ [(k, .tables [.table []])])
    | some (_, .tables items) => .ok (es.map fun e => if e.1 == k then (k, .tables (items ++ [.table []])) else e)
    | some _ => .error Problem.keyTaken
  let entries ← (atTable s.entries keys.dropLast add).mapError fun _ => .malformed
  return { s with entries, table := keys, opened := s.opened.filter fun o => ! keys.isPrefixOf o }

/-- A key that is there already is a fault of its own inside of tables only. -/
def State.taken (p : Problem) : Problem := if p == .keyTaken && s.table.isEmpty then .malformed else p

def lines (size : Nat) : Nat → State → List Char → Except Problem State
  | 0, s, _ => .ok s
  | fuel + 1, s, cs =>
    match cs.dropWhile fun c => isSpaceChar c || c == '\r' with
    | [] => .ok s
    | '\n' :: rest => lines size fuel s rest
    | '#' :: rest => do lines size fuel s (← lineRest ('#' :: rest))
    | '[' :: rest => do
      if rest.isEmpty then .error .unexpectedEnd
      let (many, rest) := match rest with
        | '[' :: inner => (true, inner)
        | _ => (false, rest)
      if rest.isEmpty then .error .unexpectedEnd
      let (keys, rest) ← match key (rest.length + 1) rest with
        | .error .emptyKey => .error .emptyTableName
        | other => other
      match rest with
      | [] => .error .unexpectedEnd
      | ']' :: rest =>
        let rest ← lineRest (if many then rest.drop 1 else rest)
        let s ← if many then s.enterNext keys else s.enter keys
        lines size fuel s rest
      | _ => .error .unexpectedChar
    | start => do
      let (k, cs) ← key (start.length + 1) start
      let (v, cs) ← value size (size + 1) (← assignment cs)
      let rest ← lineRest cs
      let entries ← (atTable s.entries s.table (define · k v)).mapError s.taken
      lines size fuel { s with entries } rest

def read (s : String) : Except Problem Value := do
  let cs := s.toList
  let final ← lines cs.length (cs.length + 1) {} cs
  return .table final.entries

end Mender.Toml
