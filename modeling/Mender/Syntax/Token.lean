import Mender.Syntax.Trivia
import Mender.Text.Letter

/-!
# Tokens

A text is cut into tokens, each with what stands in front of it. Nothing of the text is dropped:
what is no token is the gap before one, the lines before the first token of a line, or the rest of
a line after its last one.

Indentation becomes tokens of its own (`indent`, `dedent`), and so does the end of a logical line.
An f-string is not one token: it opens, its text and the expressions in it follow, and it closes.
-/

namespace Mender.Syntax

open Trivia String Char

inductive TokenKind where
  | name | number | string | openFormat | formatText | closeFormat | mark
  | newline | indent | dedent | finish
  deriving DecidableEq, Repr, Inhabited

structure Token where
  kind : TokenKind
  text : String := ""
  gap : Node := Node.blank ""
  /-- the lines without code in front of the first token of a line; the last lines of the block
  that a `dedent` ends -/
  lines : List Node := []
  rest : Node := Node.absent
  deriving Inhabited

def reserved : List String :=
  ["False", "None", "True", "and", "as", "assert", "async", "await", "break", "class", "continue",
    "def", "del", "elif", "else", "except", "finally", "for", "from", "global", "if", "import",
    "in", "is", "lambda", "nonlocal", "not", "or", "pass", "raise", "return", "try", "while",
    "with", "yield"]

namespace Token

variable (cs : List Char)

/-! ## Numbers -/

/-- Digits that may be parted by single underscores: `d (_? d)*` with the rest of the text. -/
def digitRun (p : Char → Bool) : List Char → List Char × List Char
  | '_' :: d :: rest =>
    if p d then
      let (ds, r) := digitRun p rest
      ('_' :: d :: ds, r)
    else ([], '_' :: d :: rest)
  | d :: rest =>
    if p d then
      let (ds, r) := digitRun p rest
      (d :: ds, r)
    else ([], d :: rest)
  | [] => ([], [])

def digits (p : Char → Bool) (cs : List Char) : Option (List Char × List Char) :=
  match cs with
  | d :: _ => if p d then some (digitRun p cs) else none
  | [] => none

private def isBinary (c : Char) : Bool := c == '0' || c == '1'
private def isOctal (c : Char) : Bool := '0' ≤ c && c ≤ '7'

private def exponent : Option (List Char × List Char) :=
  match cs with
  | e :: rest =>
    if e == 'e' || e == 'E' then
      match rest with
      | s :: rest' =>
        if s == '+' || s == '-' then
          (digits isDigit rest').map fun (d, r) => (e :: s :: d, r)
        else (digits isDigit rest).map fun (d, r) => (e :: d, r)
      | [] => none
    else none
  | [] => none

def float? : Option (List Char × List Char) :=
  let withExponent := fun (m : List Char) (r : List Char) =>
    match exponent r with
    | some (e, r) => (m ++ e, r)
    | none => (m, r)
  match digits isDigit cs with
  | some (whole, '.' :: rest) =>
    match digits isDigit rest with
    | some (frac, r) => some (withExponent (whole ++ '.' :: frac) r)
    | none => some (withExponent (whole ++ ['.']) rest)
  | some (whole, rest) => (exponent rest).map fun (e, r) => (whole ++ e, r)
  | none =>
    match cs with
    | '.' :: rest => (digits isDigit rest).map fun (frac, r) => withExponent ('.' :: frac) r
    | _ => none

private def letterJ : List Char → Option (Char × List Char)
  | c :: rest => if c == 'j' || c == 'J' then some (c, rest) else none
  | [] => none

def imaginary? : Option (List Char × List Char) := withJ (digits isDigit cs) <|> withJ (float? cs)
where
  withJ (number : Option (List Char × List Char)) : Option (List Char × List Char) :=
    number.bind fun (d, r) => (letterJ r).map fun (j, r) => (d ++ [j], r)

private def based (low high : Char) (p : Char → Bool) (cs : List Char) : Option (List Char × List Char) :=
  match cs with
  | '0' :: x :: rest =>
    if x == low || x == high then
      match digitRun p rest with
      | ([], _) => none
      | (ds, r) => some ('0' :: x :: ds, r)
    else none
  | _ => none

def integer? : Option (List Char × List Char) :=
  based 'x' 'X' (Text.hexValue? · |>.isSome) cs <|> based 'b' 'B' isBinary cs <|> based 'o' 'O' isOctal cs <|>
    match cs with
    | '0' :: _ => digits (· == '0') cs
    | _ => digits isDigit cs

def number? : Option (List Char × List Char) := imaginary? cs <|> float? cs <|> integer? cs

/-! ## Strings -/

def isStringMark : Bool := [[], ['b'], ['r'], ['u'], ['b', 'r'], ['r', 'b']].contains (cs.map toLower)

def isFormatMark : Bool := [['f'], ['f', 'r'], ['r', 'f']].contains (cs.map toLower)

def quote? : List Char → Option (List Char × List Char)
  | '"' :: '"' :: '"' :: rest => some (['"', '"', '"'], rest)
  | '\'' :: '\'' :: '\'' :: rest => some (['\'', '\'', '\''], rest)
  | '"' :: rest => some (['"'], rest)
  | '\'' :: rest => some (['\''], rest)
  | _ => none

/-- The text up to the closing quote, a backslash hiding the character after it. -/
def upToQuote (quote : List Char) : List Char → Option (List Char × List Char)
  | [] => none
  | '\\' :: c :: rest =>
    if quote.isPrefixOf ('\\' :: c :: rest) then some ([], '\\' :: c :: rest)
    else (upToQuote quote rest).map fun (s, r) => ('\\' :: c :: s, r)
  | c :: rest =>
    if quote.isPrefixOf (c :: rest) then some ([], c :: rest)
    else (upToQuote quote rest).map fun (s, r) => (c :: s, r)

/-- Does a line end come before the closing quote, with no backslash before it? -/
def breaksLine : List Char → Bool
  | [] => false
  | '\\' :: '\r' :: '\n' :: _ => false
  | '\\' :: '\n' :: _ => false
  | '\\' :: '\r' :: _ => false
  | '\\' :: _ :: rest => breaksLine rest
  | c :: rest => c == '\n' || c == '\r' || breaksLine rest

/-- The string behind its opening quote: its text with the closing quote. A string in single quotes
goes over the end of its first line only behind a backslash. -/
def stringBody (quote : List Char) (cs : List Char) : Option (List Char × List Char) :=
  match upToQuote quote cs with
  | some (s, r) =>
    if quote.length = 1 ∧ breaksLine s then none else some (s ++ quote, r.drop quote.length)
  | none => none

/-! ## Marks -/

/-- The operators and delimiters, longer ones before their beginnings. -/
private def marks : List (List Char) :=
  ["**=", "//=", ">>=", "<<=", "...", "**", "//", ">>", "<<", "->", ":=", "+=", "-=", "*=", "/=",
    "%=", "&=", "@=", "|=", "^=", "!=", "==", "<=", ">=", "+", "-", "*", "/", "%", "&", "@", "|",
    "^", "!", "=", "<", ">", "~", "(", ")", "[", "]", "\x7b", "\x7d", ":", ";", ".", ","].map
    toList

def mark? : Option (List Char × List Char) := (marks.find? fun m => m.isPrefixOf cs).map fun m => (m, cs.drop m.length)

/-! ## F-strings -/

/-- An f-string that is open: its quote, how many brackets are open in it, and how many of them are
past the colon of a format specification. -/
structure Frame where
  quote : List Char
  depth : Nat := 0
  specs : Nat := 0

variable (f : Frame)

def Frame.inExpression : Bool := f.specs < f.depth

def Frame.enter : Frame := { f with depth := f.depth + 1 }

def Frame.exit : Frame :=
  if f.depth ≤ 1 then { f with depth := 0, specs := 0 } else { f with depth := f.depth - 1 }

/-- Is this the name of a character: words of letters, digits and hyphens, one blank between them? -/
def isCharacterName : Bool := (cs.splitOn ' ').all fun w => ! w.isEmpty && w.all fun c => c.isAlphanum || c == '-'

def characterName? : List Char → Option (List Char × List Char)
  | '\x7b' :: rest =>
    let name := rest.takeWhile (· != '\x7d')
    match rest.drop name.length with
    | '\x7d' :: rest' =>
      if isCharacterName name then some ('\x7b' :: name ++ ['\x7d'], rest') else none
    | _ => none
  | _ => none

/-- What stands behind a backslash in an f-string and belongs to its text: one character, a line end or the
name of a character. In a format specification a backslash hides line ends only, and stands for itself. -/
def escapeRun? (many spec : Bool) (cs : List Char) : Option (List Char × List Char) :=
  if spec && many then some ([], cs)
  else
    match cs with
    | '\r' :: '\n' :: rest => if many then some (['\r'], '\n' :: rest) else some (['\r', '\n'], rest)
    | '\r' :: rest => some (['\r'], rest)
    | '\n' :: rest => some (['\n'], rest)
    | 'N' :: rest =>
      if spec then some ([], 'N' :: rest)
      else (characterName? rest).map fun (name, r) => ('N' :: name, r)
    | c :: rest => if spec then some ([], c :: rest) else some ([c], rest)
    | [] => if spec then some ([], []) else none

/-- The text of an f-string up to the next brace. Doubled braces and escaped characters are text outside of
format specifications. -/
def formatRun (many spec : Bool) : List Char → List Char × List Char
  | '\x7b' :: '\x7b' :: rest =>
    if spec then ([], '\x7b' :: '\x7b' :: rest)
    else
      let (s, r) := formatRun many spec rest
      ('\x7b' :: '\x7b' :: s, r)
  | '\x7d' :: '\x7d' :: rest =>
    if spec then ([], '\x7d' :: '\x7d' :: rest)
    else
      let (s, r) := formatRun many spec rest
      ('\x7d' :: '\x7d' :: s, r)
  | '\\' :: rest =>
    match escapeRun? many spec rest with
    | some (e, rest') =>
      if rest'.length ≤ rest.length then
        let (s, r) := formatRun many spec rest'
        ('\\' :: e ++ s, r)
      else ([], '\\' :: rest)
    | none => ([], '\\' :: rest)
  | c :: rest =>
    if c == '\x7b' || c == '\x7d' || (! many && (c == '\n' || c == '\r')) then ([], c :: rest)
    else
      let (s, r) := formatRun many spec rest
      (c :: s, r)
  | [] => ([], [])
termination_by cs => cs.length

variable (frames : List Frame)

def upToQuotes (cs : List Char) : List Char := frames.foldl (fun cs f => ((upToQuote f.quote cs).map Prod.fst).getD cs) cs

/-- The text of the innermost open f-string: it ends at a brace or where an open f-string closes. -/
def formatText (cs : List Char) : List Char × List Char :=
  match frames with
  | [] => ([], cs)
  | f :: _ =>
    let (s, _) := formatRun (f.quote.length == 3) (f.specs != 0) cs
    let s := upToQuotes frames.reverse s
    (s, cs.drop s.length)

/-! ## The scanner -/

structure State where
  /-- the indentations of the open blocks, innermost first -/
  indents : List (List Char) := []
  /-- open brackets outside of f-strings -/
  depth : Nat := 0
  /-- open f-strings, innermost first -/
  frames : List Frame := []
  fresh : Bool := true

/-- The width of an indentation: its characters, form feeds at its start not counted. -/
def indentWidth : Nat := (cs.dropWhile (· == '\x0c')).length

variable (s : State)

def State.indent : List Char := s.indents.headD []

private def lastLine (b : List Char) : List Char := (b.reverse.takeWhile fun c => c != '\n' && c != '\r').reverse

/-- Close blocks until the indentation `width` is reached: the tokens, the blocks that stay open and
the lines that no closed block keeps. Fails if the width lies between two blocks. -/
def closeBlocks (usual : String) (width : Nat) :
    List (List Char) → List Trivia.BareLine → Option (List Token × List (List Char) × List Trivia.BareLine)
  | [], lines => some ([], [], lines)
  | block :: outer, lines =>
    if width < indentWidth block then
      if width > indentWidth (outer.headD []) then none
      else
        let (footer, rest) := splitFooter block lines
        (closeBlocks usual width outer rest).map fun (ts, bs, ls) =>
          ({ kind := .dedent, lines := footer.map (·.node usual block) } :: ts, bs, ls)
    else some ([], block :: outer, lines)

def lexeme? : Option (TokenKind × List Char × List Char) :=
  let word := cs.takeWhile Text.isWordChar
  let rest := cs.drop word.length
  match quote? rest with
  | some (q, body) =>
    if isStringMark word then (stringBody q body).map fun (s, r) => (.string, word ++ q ++ s, r)
    else if isFormatMark word then some (.openFormat, word ++ q, body)
    else plain word rest
  | none => plain word rest
where
  plain (word rest : List Char) : Option (TokenKind × List Char × List Char) :=
    match number? cs with
    | some (n, r) => some (.number, n, r)
    | none =>
      if word.isEmpty then (mark? cs).map fun (m, r) => (.mark, m, r)
      else some (.name, word, rest)

/-- The part of the line that open f-strings leave to the next token. -/
private def reach (cs : List Char) : List Char := upToQuotes frames (cs.takeWhile fun c => c != '\n' && c != '\r')

/-- Account for a bracket or the colon of a format specification. -/
private def note (m : List Char) : State :=
  let opens := m == ['('] || m == ['['] || m == ['\x7b']
  let closes := m == [')'] || m == [']'] || m == ['\x7d']
  match s.frames with
  | f :: fs =>
    if opens then { s with frames := f.enter :: fs }
    else if closes then { s with frames := f.exit :: fs }
    else if m == [':'] && f.depth == f.specs + 1 then
      { s with frames := { f with specs := f.specs + 1 } :: fs }
    else s
  | [] =>
    if opens then { s with depth := s.depth + 1 }
    else if closes then { s with depth := s.depth - 1 }
    else s

def nextInLine (gap : Node) (cs : List Char) : Option (Token × State × List Char) :=
  if s.frames.any (fun f => f.quote.isPrefixOf cs) then none
  else
    let cut := if s.frames.isEmpty then cs else reach s.frames cs
    match lexeme? cut with
    | none =>
      -- a string in three quotes may hold the quote of an f-string around it
      match lexeme? cs with
      | some (.string, t, rest) =>
        if ((quote? (t.dropWhile Text.isWordChar)).map (·.1.length)) == some 3 then
          some ({ kind := .string, text := ofList t, gap := gap }, s, rest)
        else none
      | _ => none
    | some (kind, t, _) =>
      let t := if kind == .mark && t == [':', '='] && s.frames.head?.any
          (fun f => f.depth == f.specs + 1) then [':'] else t
      let rest := cs.drop t.length
      let token : Token := { kind := kind, text := ofList t, gap := gap }
      let s := { s with fresh := false }
      match kind with
      | .openFormat =>
        let quote := t.dropWhile Text.isWordChar
        some (token, { s with frames := { quote := quote } :: s.frames }, rest)
      | .mark => some (token, note s t, rest)
      | _ => some (token, s, rest)

/-- Does a gap hold a comment or, outside three quotes, a line end? No expression in an f-string
may. -/
private def badGap (gap : Node) : Bool :=
  gap.kind == .parenthesizedWhitespace && (frames.any (fun f => f.quote.length == 1) ||
      gap.nodes.any fun n => n.kind == .comment)

/-- Scan a text; `usual` is the line end of the module and `fuel` bounds the number of tokens. -/
def scanTo (usual : String) : Nat → State → List Char → List Token → Option (List Token)
  | 0, _, _, _ => none
  | fuel + 1, s, cs, done =>
    if s.frames.isEmpty && s.depth == 0 then
      if s.fresh then
        -- the start of a logical line
        let (lines, rest) := bareLines cs
        let (b, rest) := blank rest
        let rest := if (comment? rest).any (·.2.isEmpty) then [] else rest
        if rest.isEmpty then
          (closeBlocks usual 0 s.indents lines).map fun (ts, _, ls) =>
            (done.reverse ++ ts) ++ [{ kind := .finish, lines := ls.map (·.node usual []) }]
        else
          let indent := lastLine b
          let width := indentWidth indent
          if width > indentWidth s.indent then
            (nextInLine s (Node.blank "") rest).bind fun (t, s, rest) =>
              let relative := ofList (indent.drop s.indent.length)
              let t := { t with lines := lines.map (·.node usual indent) }
              scanTo usual fuel { s with indents := indent :: s.indents } rest
                (t :: { kind := .indent, text := relative } :: done)
          else
            (closeBlocks usual width s.indents lines).bind fun (ts, indents, ls) =>
              let base := if ts.isEmpty then s.indent else (s.indents.drop 1).headD []
              (nextInLine s (Node.blank "") rest).bind fun (t, s, rest) =>
                let t := { t with lines := ls.map (·.node usual base) }
                scanTo usual fuel { s with indents := indents } rest (t :: (ts.reverse ++ done))
      else
        match bareLine? cs with
        | some (l, rest) =>
          scanTo usual fuel { s with fresh := true } rest
            ({ kind := .newline, rest := l.trailing usual } :: done)
        | none =>
          let (b, rest) := blank cs
          let rest := if (comment? rest).any (·.2.isEmpty) then [] else rest
          if rest.isEmpty then
            (closeBlocks usual 0 s.indents []).map fun (ts, _, _) => (done.reverse ++ ts) ++ [{ kind := .finish }]
          else
            (nextInLine s (Node.blank (ofList b)) rest).bind fun (t, s, rest) => scanTo usual fuel s rest (t :: done)
    else
      match s.frames with
      | f :: fs =>
        if f.inExpression then
          let (gap, rest) := insideBrackets usual s.indent cs
          if badGap s.frames gap then none
          else (nextInLine s gap rest).bind fun (t, s, rest) => scanTo usual fuel s rest (t :: done)
        else
          let (text, rest) := formatText s.frames cs
          if ! text.isEmpty then
            scanTo usual fuel s rest ({ kind := .formatText, text := ofList text } :: done)
          else if f.quote.isPrefixOf cs then
            scanTo usual fuel { s with frames := fs } (cs.drop f.quote.length)
              ({ kind := .closeFormat, text := ofList f.quote } :: done)
          else
            match cs with
            | c :: rest =>
              if c == '\x7b' || c == '\x7d' then
                scanTo usual fuel (note s [c]) rest ({ kind := .mark, text := ofList [c] } :: done)
              else none
            | [] => none
      | [] =>
        let (gap, rest) := insideBrackets usual s.indent cs
        if rest.isEmpty then none
        else (nextInLine s gap rest).bind fun (t, s, rest) => scanTo usual fuel s rest (t :: done)

def scan? (usual : String) (cs : List Char) : Option (List Token) := scanTo usual (cs.length + 2) {} cs []

end Token

end Mender.Syntax
