import Mender.Syntax.Node

/-!
# How each kind of node is written

A `Layout` says in which order a node of a kind writes its parts and its fixed words, and which
stretch of that is the node's own position. Blanks, comments and enclosing parentheses are written
but do not belong to the position of the node that carries them.

A part that is left to the printer (`Node.auto`) is written according to where it stands: a comma
between two members of a run, a blank after `return` when a value follows, and so on. The pieces
below name these cases.
-/

namespace Mender.Syntax

/-- How the members of a run are kept apart where a member leaves that to the printer. -/
inductive Separator where
  | none
  /-- `, ` after all members but the last -/
  | comma
  /-- as `comma`, and a lone member is followed by `,` -/
  | tuple
  /-- `; ` after all members but the last -/
  | semicolon
  deriving DecidableEq, Repr

def Separator.after (s : Separator) (i n : Nat) : String :=
  match s with
  | .none => ""
  | .comma => if i + 1 < n then ", " else ""
  | .tuple => if n = 1 then "," else if i + 1 < n then ", " else ""
  | .semicolon => if i + 1 < n then "; " else ""

inductive Piece where
  | lit (s : String)
  | own
  /-- the part at a place; nothing if it is not there -/
  | part (s : Slot)
  /-- the part; `d` if it is left to the printer and the part at `t` is there -/
  | partFor (s t : Slot) (d : String)
  /-- the part; the separator that the enclosing run asks for if it is left to the printer -/
  | separator (s : Slot)
  /-- the part; the lead word that the parent asks for if it is left to the printer -/
  | partOrLead (s : Slot)
  /-- the part, which may use the given lead word -/
  | led (s : Slot) (lead : String)
  /-- the lead word that the parent asks for, `d` if it asks for none -/
  | leadOr (d : String)
  | run (s : Slot) (sep : Separator)
  | ifEmpty (s : Slot) (d : String)
  /-- `d` if the part is left to the printer and one of two runs has members -/
  | partForRuns (s t u : Slot) (d : String)
  | indent
  /-- a line that holds just `pass`, if the run is empty -/
  | passLine (s : Slot)
  deriving Repr

/-- The pieces of a node: those before its position, those inside, those after. The position may be
cut short to the start of the first member at `from?` and to the end of the first part of `upto`
that is there. -/
structure Layout where
  before : List Piece := []
  core : List Piece
  after : List Piece := []
  from? : Option Slot := none
  upto : List Slot := []

instance : Coe String Piece := ⟨.lit⟩
instance : Coe Slot Piece := ⟨.part⟩

namespace Layout

open Slot

/-- All that is written of a node, in order. -/
def pieces (l : Layout) : List Piece := l.before ++ l.core ++ l.after

variable (core : List Piece)

private def parenthesized : Layout where
  before := [.run .lpar .none]
  core := core
  after := [.run .rpar .none]

private def member : Layout where
  core := core
  after := [.separator .comma]

private def small : Layout where
  core := core
  after := [.separator .semicolon]

/-- A compound statement or clause: leading lines, indentation, then the statement, whose position
ends with the last suite that is there. -/
private def compound (upto : List Slot) : Layout where
  before := [.run .leadingLines .none, .indent]
  core := core
  upto := upto

private def besideWord (k : Kind) : Layout where
  core := [.part .before, .lit k.symbol, .part .after]

def of : Kind → Layout
  | .absent | .auto | .seq => { core := [] }
  | .word | .whitespace | .newline | .comment => { core := [.own] }
  | .indentation => { core := [.indent] }
  | .trailingWhitespace => { core := [whitespace, comment, newline] }
  | .emptyLine => { core := [indent, whitespace, comment, newline] }
  | .parenthesizedWhitespace => { core := [firstLine, .run .emptyLines .none, indent, lastLine] }
  | .leftParen => { core := ["(", .part .after] }
  | .leftBracket => { core := ["[", .part .after] }
  | .leftBrace => { core := ["\x7b", .part .after] }
  | .rightParen => { core := [.part .before, ")"] }
  | .rightBracket => { core := [.part .before, "]"] }
  | .rightBrace => { core := [.part .before, "\x7d"] }
  | .importStar => { core := ["*"] }
  | .asName => { core := [beforeAs, "as", afterAs, name] }
  | .plus => { core := ["+", .part .after] }
  | .minus => { core := ["-", .part .after] }
  | .invert => { core := ["~", .part .after] }
  | .logicalNot => { core := ["not", .part .after] }
  | .notEqual => { core := [.part .before, .own, .part .after] }
  | .notWithin => { core := [.part .before, "not", between, "in", .part .after] }
  | .notIdentical => { core := [.part .before, "is", between, "not", .part .after] }
  | .name | .integer | .float | .imaginary | .simpleString => parenthesized [.own]
  | .ellipsis => parenthesized ["..."]
  | .member => parenthesized [value, dot, attr]
  | .call => parenthesized [func, afterFunc, "(", beforeArgs, .run .args .comma, ")"]
  | .arg =>
    { core := [.own, afterStar, keyword, .partFor .equal .keyword " = ", value]
      after := [.separator .comma, afterArg] }
  | .tuple => parenthesized [.run .elements .tuple]
  | .list => parenthesized [lbracket, .run .elements .comma, rbracket]
  | .set | .dict => parenthesized [lbrace, .run .elements .comma, rbrace]
  | .element => member [value]
  | .starredElement =>
    { before := [.run .lpar .none]
      core := ["*", beforeValue, value]
      after := [.run .rpar .none, .separator .comma] }
  | .dictElement => member [key, beforeColon, ":", afterColon, value]
  | .starredDictElement => member ["**", beforeValue, value]
  | .listComp => parenthesized [lbracket, elt, forIn, rbracket]
  | .setComp => parenthesized [lbrace, elt, forIn, rbrace]
  | .dictComp => parenthesized [lbrace, key, beforeColon, ":", afterColon, value, forIn, rbrace]
  | .generatorExp => parenthesized [elt, forIn]
  | .compFor =>
    { before := [.part .before]
      core := [asynchronous, "for", afterKeyword, target, beforeIn, "in", afterIn, iter, .run .ifs .none, innerFor] }
  | .compIf => { before := [.part .before], core := ["if", beforeTest, test] }
  | .asynchronous => { core := ["async", .part .after] }
  | .ifExp => parenthesized [body, beforeIf, "if", afterIf, test, beforeElse, "else", afterElse, orelse]
  | .lambda => parenthesized ["lambda", afterKeyword, params, colon, body]
  | .booleanOperation | .binaryOperation => parenthesized [left, operator, right]
  | .unaryOperation => parenthesized [operator, expression]
  | .comparison => parenthesized [left, .run .comparisons .none]
  | .comparisonTarget => { core := [operator, comparator] }
  | .namedExpr => parenthesized [target, beforeWalrus, ":=", afterWalrus, value]
  | .await => parenthesized ["await", afterKeyword, expression]
  | .yield => parenthesized ["yield", .partFor .afterKeyword .value " ", value]
  | .yieldFrom => { core := [.partOrLead .beforeFrom, "from", afterFrom, item] }
  | .subscript => parenthesized [value, afterValue, lbracket, .run .slice .comma, rbracket]
  | .subscriptElement => member [slice]
  | .index => { core := [value] }
  | .slice => { core := [lower, firstColon, upper, .partFor .secondColon .step ":", step] }
  | .concatenatedString => parenthesized [left, between, right]
  | .formattedString => parenthesized [start, .run .parts .none, finish]
  | .formattedStringText => { core := [.own] }
  | .formattedStringExpression =>
    { core := ["\x7b", beforeExpression, expression, equal, afterExpression, conversion, .led .formatSpec ":", "\x7d"] }
  | .parameters => { core := [.run .posonlyParams .none, posonlyMark, .run .params .none, starArg,
      .run .kwonlyParams .none, starKwarg] }
  | .param =>
    { core := [.own, afterStar, name, .led .typeHint ":", .partFor .equal .default " = ", .part .default]
      after := [.separator .comma, afterParam] }
  | .paramStar => { core := ["*", comma] }
  | .paramSlash => { core := ["/", comma] }
  | .typeHint =>
    { before := [beforeIndicator, .leadOr ":", afterIndicator]
      core := [typeHint] }
  | .pass => small ["pass"]
  | .break => small ["break"]
  | .continue => small ["continue"]
  | .returnStatement => small ["return", .partFor .afterKeyword .value " ", value]
  | .expr => small [value]
  | .del => small ["del", afterKeyword, target]
  | .assert => small ["assert", afterKeyword, test, .partFor .comma .msg ", ", msg]
  | .assign => small [.run .targets .none, value]
  | .assignTarget => { core := [target, beforeEqual, "=", afterEqual] }
  | .annAssign => small [target, .led .typeHint ":", .partFor .equal .value " = ", value]
  | .augAssign => small [target, operator, value]
  | .raise => small ["raise", .partFor .afterKeyword .exc " ", exc, .led .cause " "]
  | .global => small ["global", afterKeyword, .run .names .comma]
  | .nonlocal => small ["nonlocal", afterKeyword, .run .names .comma]
  | .nameItem => member [name]
  | .importStatement => small ["import", afterKeyword, .run .names .comma]
  | .importAlias => member [name, asname]
  | .importFrom => small ["from", afterFrom, .run .relative .none, module, beforeImport, "import", afterImport, lpar,
      .run .names .comma, rpar]
  | .simpleStatementLine =>
    { before := [.run .leadingLines .none, .indent]
      core := [.run .body .semicolon, .ifEmpty .body "pass"]
      after := [trailing]
      upto := [.body] }
  | .simpleStatementSuite =>
    { before := [leadingSpace]
      core := [.run .body .semicolon, .ifEmpty .body "pass"]
      after := [trailing]
      upto := [.body] }
  | .indentedBlock =>
    { before := [header]
      core := [.run .body .none, .passLine .body]
      after := [.run .footer .none]
      from? := some .body
      upto := [.body] }
  | .ifStatement => compound [.leadOr "if", beforeTest, test, afterTest, ":", body, .led .orelse "elif"] [.orelse, .body]
  | .elseClause => compound ["else", beforeColon, ":", body] [.body]
  | .finallyClause => compound ["finally", beforeColon, ":", body] [.body]
  | .whileLoop => compound ["while", afterKeyword, test, beforeColon, ":", body, orelse] [.orelse, .body]
  | .forLoop => compound [asynchronous, "for", afterKeyword, target, beforeIn, "in", afterIn, iter, beforeColon, ":",
      body, orelse] [.orelse, .body]
  | .tryStatement => compound ["try", beforeColon, ":", body, .run .handlers .none, orelse, finalbody] [.finalbody,
      .orelse, .handlers, .body]
  | .exceptHandler => compound ["except", afterKeyword, type, name, beforeColon, ":", body] [.body]
  | .withStatement => compound [asynchronous, "with", afterKeyword, .run .items .comma, beforeColon, ":", body] [.body]
  | .withItem => member [item, asname]
  | .functionDef =>
    { before := [.run .leadingLines .none, .run .decorators .none, .run .linesAfterDecorators .none, .indent]
      core := [asynchronous, "def", afterKeyword, name, afterName, "(", beforeParams, params, ")",
        .led .returns "->", beforeColon, ":", body]
      upto := [.body] }
  | .classDef =>
    { before := [.run .leadingLines .none, .run .decorators .none, .run .linesAfterDecorators .none, .indent]
      core := ["class", afterKeyword, name, afterName, .partForRuns .lpar .bases .keywords "(", .run .bases .none,
        .run .keywords .none, .partForRuns .rpar .bases .keywords ")", beforeColon, ":", body]
      upto := [.body] }
  | .decorator =>
    { before := [.run .leadingLines .none, .indent]
      core := ["@", .part .after, decorator]
      after := [trailing] }
  | .module => { core := [.run .header .none, .run .body .none, .run .footer .none] }
  | k => besideWord k

end Layout

end Mender.Syntax
