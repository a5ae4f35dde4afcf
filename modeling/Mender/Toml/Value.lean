/-!
# TOML values

A TOML document is a table of named values. An array remembers how it is laid out (`Toml.Piece`) and where it
stands in the document, so that it can be extended without touching anything else.
-/

namespace Mender.Toml

inductive Problem where
  /-- a character that cannot stand where it does -/
  | unexpectedChar
  /-- the document ends too early -/
  | unexpectedEnd
  | emptyKey
  | emptyTableName
  | badNumber
  /-- a date with a time that is none -/
  | badMoment
  | badDate
  | badTime
  /-- a character that cannot be escaped -/
  | badEscape
  /-- a number that stands for no character -/
  | badCharacter
  | controlChar
  | keyTaken
  | malformed
  deriving DecidableEq, Repr, Inhabited

def Problem.label : Problem → String
  | .unexpectedChar => "UnexpectedCharError"
  | .unexpectedEnd => "UnexpectedEofError"
  | .emptyKey => "EmptyKeyError"
  | .emptyTableName => "EmptyTableNameError"
  | .badNumber => "InvalidNumberError"
  | .badMoment => "InvalidDateTimeError"
  | .badDate => "InvalidDateError"
  | .badTime => "InvalidTimeError"
  | .badEscape => "InvalidCharInStringError"
  | .badCharacter => "InvalidUnicodeValueError"
  | .controlChar => "InvalidControlChar"
  | .keyTaken => "KeyAlreadyPresent"
  | .malformed => "ParseError"

mutual

inductive Value where
  | text (s : String)
  | integer (i : Int)
  | float (s : String)
  | truth (b : Bool)
  | moment (s : String)
  /-- an array between two places of the document, by its pieces -/
  | array (start stop : Nat) (pieces : List Piece)
  | table (entries : List (String × Value))
  | tables (items : List Value)

inductive Piece where
  | blank (s : String)
  | comma
  | comment (s : String)
  /-- a member with the characters it is written with -/
  | item (raw : String) (value : Value)

end

instance : Inhabited Value := ⟨.truth false⟩

def Piece.value? : Piece → Option Value
  | .item _ v => some v
  | _ => none

def Piece.values (ps : List Piece) : List Value := ps.filterMap Piece.value?

def Value.get? (v : Value) (key : String) : Option Value :=
  match v with
  | .table es => (es.find? (·.1 == key)).map (·.2)
  | _ => none

def Value.text? : Value → Option String
  | .text s => some s
  | _ => none

mutual

def Value.isUniform : Value → Bool
  | .array _ _ ps =>
    (match Piece.values ps with
      | [] => true
      | v :: vs => vs.all (·.ctorIdx == v.ctorIdx)) && Piece.areUniform ps
  | .table es => Value.areUniform es
  | .tables vs => Value.allUniform vs
  | _ => true

def Piece.areUniform : List Piece → Bool
  | [] => true
  | .item _ v :: ps => v.isUniform && Piece.areUniform ps
  | _ :: ps => Piece.areUniform ps

def Value.areUniform : List (String × Value) → Bool
  | [] => true
  | (_, v) :: es => v.isUniform && Value.areUniform es

def Value.allUniform : List Value → Bool
  | [] => true
  | v :: vs => v.isUniform && Value.allUniform vs

end

/-! ## Extending arrays -/

/-- The members of an array in groups: the blank in front of a member, its characters, the comma behind it and
the comment behind that. A group may lack any of them. -/
structure Group where
  indent : String := ""
  item : Option String := none
  hasComma : Bool := false
  comment : Option String := none
  deriving DecidableEq, Repr, Inhabited

namespace Group

variable (g : Group) (gs : List Group)

def text : String := g.indent ++ g.item.getD "" ++ (if g.hasComma then "," else "") ++ g.comment.getD ""

def isBlank : Bool := g.item.isNone && ! g.hasComma && g.comment.isNone

def add (groups : List Group) (p : Piece) : List Group :=
  match p, groups with
  | .blank s, gs => { indent := s } :: gs
  | .comma, g :: gs => { g with hasComma := true } :: gs
  | .comma, [] => [{ hasComma := true }]
  | .comment s, g :: gs => { g with comment := some s } :: gs
  | .comment s, [] => [{ comment := some s }]
  | .item raw _, g :: gs =>
    if g.isBlank then { g with item := some raw } :: gs else { item := some raw } :: g :: gs
  | .item raw _, [] => [{ item := some raw }]

def ofPieces (ps : List Piece) : List Group := (ps.foldl add []).reverse

def cutLast? : Option (List Group × Group × List Group) :=
  let after := (gs.reverse.takeWhile (·.item.isNone)).reverse
  match (gs.take (gs.length - after.length)).reverse with
  | g :: before => some (before.reverse, g, after)
  | [] => none

/-- Append a member. It is indented like the last one, and has a comma behind it if that had one. The first
member of an array over several lines gets a line of its own. -/
def append (raw : String) : List Group :=
  let (body, final) := match gs.reverse with
    | g :: rest => if g.isBlank then (rest.reverse, [g]) else (gs, [])
    | [] => ([], [])
  match cutLast? body with
  | some (before, last, after) =>
    let closed := last.hasComma || after.any (·.hasComma)
    let new : Group :=
      { indent := if last.indent.isEmpty then " " else last.indent
        item := some raw, hasComma := closed }
    let last := if closed then last else { last with hasComma := true }
    before ++ last :: after ++ new :: final
  | none =>
    let indent := if final.any fun g => g.indent.contains '\n' then "\n    " else ""
    body ++ { indent, item := some raw } :: final

end Group

def quote (s : String) : String :=
  "\"" ++ String.join (s.toList.map fun c =>
    match c with
    | '"' => "\\\""
    | '\\' => "\\\\"
    | '\n' => "\\n"
    | '\t' => "\\t"
    | '\r' => "\\r"
    | '\x08' => "\\b"
    | '\x0c' => "\\f"
    | c => c.toString) ++ "\""

end Mender.Toml
