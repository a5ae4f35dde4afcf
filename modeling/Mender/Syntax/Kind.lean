/-!
# Kinds of syntax and the places of a node

A Python module is held as a lossless tree: every blank, comment and line end of the text has a
place in it, so the text can be printed back as it was. Two tables fix what such trees look like:

* `Kind` lists what a node can be, from a whole module down to the blank between two words;
* `Kind.shape` gives, for each kind, the named places (`Slot`) of its parts, in the order in which
  the parts are visited, together with what stands there when nothing else is said (`Fill`).

Everything else about trees (reading, printing, rewriting) is generic over these two tables.
-/

namespace Mender.Syntax

inductive Kind where
  /-- an optional part that is not there -/
  | absent
  /-- a separator or blank that is left to the printer -/
  | auto
  | seq
  /-- a bare word that belongs to its parent -/
  | word
  /-- the indentation of the current line -/
  | indentation
  | whitespace | newline | comment | trailingWhitespace | emptyLine | parenthesizedWhitespace
  | leftParen | rightParen | leftBracket | rightBracket | leftBrace | rightBrace
  | comma | semicolon | colon | dot | assignEqual | importStar | asName
  | logicalAnd | logicalOr
  | plus | minus | invert | logicalNot
  | add | subtract | multiply | divide | floorDivide | modulo | power
  | leftShift | rightShift | bitOr | bitAnd | bitXor | matrixMultiply
  | lessThan | greaterThan | equal | lessThanEqual | greaterThanEqual | notEqual
  | within | notWithin | identical | notIdentical
  | addAssign | subtractAssign | multiplyAssign | matrixMultiplyAssign | divideAssign
  | moduloAssign | bitAndAssign | bitOrAssign | bitXorAssign | leftShiftAssign
  | rightShiftAssign | powerAssign | floorDivideAssign
  | name | member | call | arg
  | tuple | list | set | dict | element | starredElement | dictElement | starredDictElement
  | listComp | setComp | dictComp | generatorExp | compFor | compIf | asynchronous
  | ifExp | lambda | booleanOperation | unaryOperation | binaryOperation
  | comparison | comparisonTarget | namedExpr | await | yield | yieldFrom
  | subscript | subscriptElement | index | slice
  | ellipsis | integer | float | imaginary | simpleString | concatenatedString
  | formattedString | formattedStringText | formattedStringExpression
  | parameters | param | paramStar | paramSlash | typeHint
  | pass | break | continue | returnStatement | expr | del | assert
  | assign | assignTarget | annAssign | augAssign | raise | global | nonlocal | nameItem
  | importStatement | importAlias | importFrom
  | simpleStatementLine | simpleStatementSuite | indentedBlock
  | ifStatement | elseClause | whileLoop | forLoop | tryStatement | exceptHandler | finallyClause
  | withStatement | withItem | functionDef | classDef | decorator | module
  deriving DecidableEq, Repr, Inhabited

/-- The named places of the parts of a node. -/
inductive Slot where
  | lpar | rpar | lbracket | rbracket | lbrace | rbrace
  | before | after | between
  | whitespace | comment | newline | indent | firstLine | emptyLines | lastLine
  | value | attr | dot | func | args | star | keyword | equal | comma | semicolon
  | afterFunc | beforeArgs | afterStar | afterArg | beforeValue | afterValue
  | elements | key | beforeColon | afterColon | elt | forIn | asynchronous
  | afterKeyword | target | beforeIn | afterIn | iter | ifs | innerFor | beforeTest | afterTest
  | test | body | beforeIf | afterIf | beforeElse | afterElse | orelse
  | params | colon | left | operator | right | expression | comparisons | comparator
  | beforeWalrus | afterWalrus | beforeFrom | afterFrom | item
  | slice | lower | firstColon | upper | secondColon | step
  | parts | start | finish | beforeExpression | afterExpression | conversion | formatSpec
  | posonlyParams | posonlyMark | starArg | kwonlyParams | starKwarg
  | name | typeHint | default | afterParam | beforeIndicator | afterIndicator
  | msg | targets | beforeEqual | afterEqual | exc | cause | names | asname | beforeAs | afterAs
  | relative | module | beforeImport | afterImport
  | leadingLines | trailing | leadingSpace | header | footer
  | handlers | finalbody | type | items | decorators | linesAfterDecorators
  | afterName | beforeParams | returns | bases | keywords | decorator
  | unit | lineEnd | ending
  deriving DecidableEq, Repr, Inhabited

/-- What stands in a place when nothing else is said. It also tells how the place behaves when its
part is taken out: an optional place becomes empty, a printer's place is given back to the printer,
a run gets shorter, and a needed place cannot do without. -/
inductive Fill where
  /-- has to be given -/
  | needed
  /-- optional, not there by default -/
  | absent
  | auto
  | none
  /-- an empty run of statements; a statement line that lost its statements leaves it too -/
  | body
  | tight
  | space
  /-- a node of the given kind with its own defaults -/
  | one (k : Kind)
  /-- a run of one node of the given kind -/
  | single (k : Kind)
  /-- a word that belongs to the node and is not visited -/
  | word (text : String)
  deriving DecidableEq, Repr

namespace Kind

open Slot

local instance : Coe Slot (Slot × Fill) := ⟨fun s => (s, .needed)⟩

/-- The shape shared by bracketed expressions: parentheses around the given places. -/
private def paren (inner : List (Slot × Fill)) : List (Slot × Fill) := (.lpar, .none) :: inner ++ [(.rpar, .none)]

def shape : Kind → List (Slot × Fill)
  | .absent | .auto | .seq | .word | .indentation => []
  | .whitespace | .newline | .comment => []
  | .trailingWhitespace => [(.whitespace, .tight), (.comment, .absent), (.newline, .one .newline)]
  | .emptyLine => [(.indent, .one .indentation), (.whitespace, .tight), (.comment, .absent), (.newline, .one .newline)]
  | .parenthesizedWhitespace => [(.firstLine, .one .trailingWhitespace), (.emptyLines, .none), (.indent, .absent),
      (.lastLine, .tight)]
  | .leftParen | .leftBracket | .leftBrace => [(.after, .tight)]
  | .rightParen | .rightBracket | .rightBrace => [(.before, .tight)]
  | .comma | .semicolon | .colon | .dot => [(.before, .tight), (.after, .tight)]
  | .importStar => []
  | .asName => [(.beforeAs, .space), (.afterAs, .space), (.name, .needed)]
  | .plus | .minus | .invert => [(.after, .tight)]
  | .logicalNot => [(.after, .space)]
  | .notWithin | .notIdentical => [(.before, .space), (.between, .space), (.after, .space)]
  | .name | .ellipsis | .integer | .float | .imaginary | .simpleString => paren []
  | .member => paren [value, (.dot, .one .dot), attr]
  | .call => paren [func, (.afterFunc, .tight), (.beforeArgs, .tight), (.args, .none)]
  | .arg => [(.afterStar, .tight), (.keyword, .absent), (.equal, .auto), value, (.comma, .auto), (.afterArg, .tight)]
  | .tuple => [(.lpar, .single .leftParen), (.elements, .none), (.rpar, .single .rightParen)]
  | .list => paren [(.lbracket, .one .leftBracket), (.elements, .none), (.rbracket, .one .rightBracket)]
  | .set | .dict => paren [(.lbrace, .one .leftBrace), (.elements, .none), (.rbrace, .one .rightBrace)]
  | .element => [value, (.comma, .auto)]
  | .starredElement => paren [(.beforeValue, .tight), value] ++ [(.comma, .auto)]
  | .dictElement => [key, (.beforeColon, .tight), (.afterColon, .space), value, (.comma, .auto)]
  | .starredDictElement => [(.beforeValue, .tight), value, (.comma, .auto)]
  | .listComp => paren [(.lbracket, .one .leftBracket), elt, forIn, (.rbracket, .one .rightBracket)]
  | .setComp => paren [(.lbrace, .one .leftBrace), elt, forIn, (.rbrace, .one .rightBrace)]
  | .dictComp => paren [(.lbrace, .one .leftBrace), key, (.beforeColon, .tight), (.afterColon, .space), value, forIn,
      (.rbrace, .one .rightBrace)]
  | .generatorExp => [(.lpar, .single .leftParen), elt, forIn, (.rpar, .single .rightParen)]
  | .compFor => [(.before, .space), (.asynchronous, .absent), (.afterKeyword, .space), target, (.beforeIn, .space),
      (.afterIn, .space), iter, (.ifs, .none), (.innerFor, .absent)]
  | .compIf => [(.before, .space), (.beforeTest, .space), test]
  | .asynchronous => [(.after, .space)]
  | .ifExp => paren [body, (.beforeIf, .space), (.afterIf, .space), test, (.beforeElse, .space),
      (.afterElse, .space), orelse]
  | .lambda => paren [(.afterKeyword, .auto), (.params, .one .parameters), (.colon, .one .colon), body]
  | .booleanOperation | .binaryOperation => paren [left, operator, right]
  | .unaryOperation => paren [operator, expression]
  | .comparison => paren [left, (.comparisons, .none)]
  | .comparisonTarget => [operator, comparator]
  | .namedExpr => [(.lpar, .single .leftParen), target, (.beforeWalrus, .space), (.afterWalrus, .space), value,
      (.rpar, .single .rightParen)]
  | .await => paren [(.afterKeyword, .space), expression]
  | .yield => paren [(.afterKeyword, .auto), (.value, .absent)]
  | .yieldFrom => [(.beforeFrom, .auto), (.afterFrom, .space), item]
  | .subscript => paren [value, (.afterValue, .tight), (.lbracket, .one .leftBracket), (.slice, .none),
      (.rbracket, .one .rightBracket)]
  | .subscriptElement => [(.slice, .needed), (.comma, .auto)]
  | .index => [value]
  | .slice => [(.lower, .absent), (.firstColon, .one .colon), (.upper, .absent), (.secondColon, .auto), (.step, .absent)]
  | .concatenatedString => paren [left, (.between, .space), right]
  | .formattedString => [(.lpar, .none), (.start, .word "f\""), (.parts, .none), (.finish, .word "\""), (.rpar, .none)]
  | .formattedStringText => []
  | .formattedStringExpression => [(.beforeExpression, .tight), expression, (.equal, .absent),
      (.afterExpression, .tight), (.conversion, .word ""), (.formatSpec, .absent)]
  | .parameters => [(.posonlyParams, .none), (.posonlyMark, .auto), (.params, .none), (.starArg, .auto),
      (.kwonlyParams, .none), (.starKwarg, .absent)]
  | .param => [(.name, .needed), (.typeHint, .absent), (.equal, .auto), (.default, .absent), (.comma, .auto),
      (.afterStar, .tight), (.afterParam, .tight)]
  | .paramStar => [(.comma, .one .comma)]
  | .paramSlash => [(.comma, .auto)]
  | .typeHint => [(.beforeIndicator, .auto), (.afterIndicator, .space), (.typeHint, .needed)]
  | .pass | .break | .continue => [(.semicolon, .auto)]
  | .returnStatement => [(.afterKeyword, .auto), (.value, .absent), (.semicolon, .auto)]
  | .expr => [value, (.semicolon, .auto)]
  | .del => [(.afterKeyword, .space), target, (.semicolon, .auto)]
  | .assert => [(.afterKeyword, .space), test, (.comma, .auto), (.msg, .absent), (.semicolon, .auto)]
  | .assign => [(.targets, .none), value, (.semicolon, .auto)]
  | .assignTarget => [target, (.beforeEqual, .space), (.afterEqual, .space)]
  | .annAssign => [target, (.typeHint, .needed), (.equal, .auto), (.value, .absent), (.semicolon, .auto)]
  | .augAssign => [target, operator, value, (.semicolon, .auto)]
  | .raise => [(.afterKeyword, .auto), (.exc, .absent), (.cause, .absent), (.semicolon, .auto)]
  | .global | .nonlocal => [(.afterKeyword, .space), (.names, .none), (.semicolon, .auto)]
  | .nameItem => [(.name, .needed), (.comma, .auto)]
  | .importStatement => [(.afterKeyword, .space), (.names, .none), (.semicolon, .auto)]
  | .importAlias => [(.name, .needed), (.asname, .absent), (.comma, .auto)]
  | .importFrom => [(.afterFrom, .space), (.relative, .none), (.module, .absent), (.beforeImport, .space),
      (.afterImport, .space), (.lpar, .absent), names, (.rpar, .absent), (.semicolon, .auto)]
  | .simpleStatementLine => [(.leadingLines, .none), (.body, .none), (.trailing, .one .trailingWhitespace)]
  | .simpleStatementSuite => [(.leadingSpace, .space), (.body, .none), (.trailing, .one .trailingWhitespace)]
  | .indentedBlock => [(.header, .one .trailingWhitespace), (.body, .body), (.footer, .none)]
  | .ifStatement => [(.leadingLines, .none), (.beforeTest, .space), test, (.afterTest, .tight), body, (.orelse, .absent)]
  | .elseClause | .finallyClause => [(.leadingLines, .none), (.beforeColon, .tight), body]
  | .whileLoop => [(.leadingLines, .none), (.afterKeyword, .space), test, (.beforeColon, .tight), body, (.orelse, .absent)]
  | .forLoop => [(.leadingLines, .none), (.asynchronous, .absent), (.afterKeyword, .space), target,
      (.beforeIn, .space), (.afterIn, .space), iter, (.beforeColon, .tight), body, (.orelse, .absent)]
  | .tryStatement => [(.leadingLines, .none), (.beforeColon, .tight), body, (.handlers, .none), (.orelse, .absent),
      (.finalbody, .absent)]
  | .exceptHandler => [(.leadingLines, .none), (.afterKeyword, .space), (.type, .absent), (.name, .absent),
      (.beforeColon, .tight), body]
  | .withStatement => [(.leadingLines, .none), (.asynchronous, .absent), (.afterKeyword, .space), (.items, .none),
      (.beforeColon, .tight), body]
  | .withItem => [item, (.asname, .absent), (.comma, .auto)]
  | .functionDef => [(.leadingLines, .none), (.decorators, .none), (.linesAfterDecorators, .none),
      (.asynchronous, .absent), (.afterKeyword, .space), (.name, .needed), (.afterName, .tight),
      (.beforeParams, .tight), (.params, .one .parameters), (.returns, .absent), (.beforeColon, .tight), body]
  | .classDef => [(.leadingLines, .none), (.decorators, .none), (.linesAfterDecorators, .none),
      (.afterKeyword, .space), (.name, .needed), (.afterName, .tight), (.lpar, .auto), (.bases, .none),
      (.keywords, .none), (.rpar, .auto), (.beforeColon, .tight), body]
  | .decorator => [(.leadingLines, .none), (.after, .tight), (.decorator, .needed), (.trailing, .one .trailingWhitespace)]
  | .module => [(.header, .none), (.body, .body), (.footer, .none), (.unit, .word "    "), (.lineEnd, .word "\n"),
      (.ending, .word "\n")]
  -- operators between two expressions
  | _ => [(.before, .space), (.after, .space)]

def slots (k : Kind) : List Slot := k.shape.map Prod.fst

/-- Nodes that only give structure to their parent; they are no nodes of the module. -/
def isFiller : Kind → Bool
  | .absent | .auto | .seq | .word | .indentation => true
  | _ => false

/-- The text of an operator or mark that is written with one token. -/
def symbol : Kind → String
  | .leftParen => "(" | .rightParen => ")" | .leftBracket => "[" | .rightBracket => "]"
  | .leftBrace => "\x7b" | .rightBrace => "\x7d"
  | .comma => "," | .semicolon => ";" | .colon => ":" | .dot => "." | .assignEqual => "="
  | .importStar => "*"
  | .logicalAnd => "and" | .logicalOr => "or"
  | .plus => "+" | .minus => "-" | .invert => "~" | .logicalNot => "not"
  | .add => "+" | .subtract => "-" | .multiply => "*" | .divide => "/" | .floorDivide => "//"
  | .modulo => "%" | .power => "**" | .leftShift => "<<" | .rightShift => ">>" | .bitOr => "|"
  | .bitAnd => "&" | .bitXor => "^" | .matrixMultiply => "@"
  | .lessThan => "<" | .greaterThan => ">" | .equal => "==" | .lessThanEqual => "<="
  | .greaterThanEqual => ">=" | .notEqual => "!=" | .within => "in" | .identical => "is"
  | .addAssign => "+=" | .subtractAssign => "-=" | .multiplyAssign => "*="
  | .matrixMultiplyAssign => "@=" | .divideAssign => "/=" | .moduloAssign => "%="
  | .bitAndAssign => "&=" | .bitOrAssign => "|=" | .bitXorAssign => "^="
  | .leftShiftAssign => "<<=" | .rightShiftAssign => ">>=" | .powerAssign => "**="
  | .floorDivideAssign => "//="
  | _ => ""

private def writtenAs (ks : List Kind) (s : String) : Option Kind := ks.find? (·.symbol == s)

def binary? : String → Option Kind :=
  writtenAs [.add, .subtract, .multiply, .divide, .floorDivide, .modulo, .power, .leftShift, .rightShift, .bitOr,
    .bitAnd, .bitXor, .matrixMultiply]

def augmented? : String → Option Kind :=
  writtenAs [.addAssign, .subtractAssign, .multiplyAssign, .matrixMultiplyAssign, .divideAssign, .moduloAssign,
    .bitAndAssign, .bitOrAssign, .bitXorAssign, .leftShiftAssign, .rightShiftAssign, .powerAssign, .floorDivideAssign]

/-- The comparison operators of one token. `<>` is an old spelling of `!=`. -/
def compare? : String → Option Kind
  | "<>" => some .notEqual
  | s => writtenAs [.lessThan, .greaterThan, .equal, .lessThanEqual, .greaterThanEqual, .notEqual, .within, .identical] s

/-- The name of a kind of node: the one it has here with a capital letter, for most. -/
def label : Kind → String
  | .absent => "None" | .auto => "MaybeSentinel" | .seq => "list" | .word => "str"
  | .indentation => "bool" | .whitespace => "SimpleWhitespace" | .leftBracket => "LeftSquareBracket"
  | .rightBracket => "RightSquareBracket" | .leftBrace => "LeftCurlyBrace"
  | .rightBrace => "RightCurlyBrace" | .logicalAnd => "And" | .logicalOr => "Or"
  | .invert => "BitInvert" | .logicalNot => "Not" | .within => "In" | .notWithin => "NotIn"
  | .identical => "Is" | .notIdentical => "IsNot" | .member => "Attribute" | .yieldFrom => "From"
  | .typeHint => "Annotation" | .returnStatement => "Return" | .importStatement => "Import"
  | .ifStatement => "If" | .elseClause => "Else" | .whileLoop => "While" | .forLoop => "For"
  | .tryStatement => "Try" | .finallyClause => "Finally" | .withStatement => "With"
  | k => (((reprStr k).splitOn ".").getLastD "").capitalize

end Kind

end Mender.Syntax
