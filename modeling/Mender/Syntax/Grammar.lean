import Mender.Syntax.Token

/-!
# The grammar of Python 3.8

The grammar is data: `Rule.body` gives each rule as a small expression over tokens and other rules
(`Gram`). One function, `Gram.derive`, reads any of it by ordered choice and yields a derivation
(`Tree`). Alternatives that begin alike are factored, so the first token decides everywhere and no
stretch of tokens is read twice. What later versions of the language have added (`match`, `except*`,
parentheses around the items of `with`, type parameters) is not read.

A rule that only passes through to one of its parts leaves no trace in the derivation
(`Rule.isTransparent`).
-/

namespace Mender.Syntax

inductive Rule where
  | file | loneStatement | loneExpression
  | statement | line | suite | suiteLine | block | small
  | exprStmt | annotated | delStmt | passStmt | breakStmt | continueStmt | returnStmt | raiseStmt
  | raiseCause | importStmt | importItem | fromStmt | fromItem | dottedName | globalStmt
  | nonlocalStmt | assertStmt
  | ifStmt | elifClause | elseClause | whileStmt | forStmt | tryStmt | exceptClause
  | finallyClause | withStmt | withItem | funcDef | params | param | typedParam | returns
  | classDef | decorator | decorated | asyncStmt
  | namedExpr | test | testNoCond | lambda | lambdaNoCond | lambdaParams | lambdaParam
  | orTest | andTest | notTest
  | comparison | compareOp | star | bitOr | bitXor | bitAnd | shift | sum | term | factor | power
  | awaitExpr | atomExpr | atom | callTrailer | indexTrailer | attrTrailer | argument
  | subscript | sliceStep | paren | bracket | brace | braceItem | spread
  | testList | exprList | starList | tupleItems | listItems | braceItems
  | compFor | compIf | compIter | ellipsis | strings | format | formatExpr | conversion | formatSpec
  | yieldExpr | yieldFrom
  deriving DecidableEq, Repr, Inhabited

inductive Gram where
  | word (s : String)
  | token (k : TokenKind)
  | rule (r : Rule)
  | seq (gs : List Gram)
  | alt (gs : List Gram)
  | opt (g : Gram)
  | many (g : Gram)
  deriving Inhabited

instance : Coe String Gram := ⟨.word⟩
instance : Coe Rule Gram := ⟨.rule⟩
instance : Coe TokenKind Gram := ⟨.token⟩

namespace Gram

variable (g : Gram)

def some : Gram := .seq [g, .many g]

/-- Items parted by commas, one more comma allowed at the end. -/
def commas : Gram := .seq [g, .many (.seq [",", g]), .opt ","]

def chain (ops : List String) : Gram := .seq [g, .many (.seq [.alt (ops.map .word), g])]

def arguments : Gram := .opt (commas (.rule .argument))

end Gram

namespace Rule

open Gram

def body : Rule → Gram
  | .file => .seq [.many statement, .token .finish]
  | .loneStatement => .seq [statement, .token .finish]
  | .loneExpression => .seq [.alt [yieldExpr, starList], .token .finish]
  | .statement => .alt [ifStmt, whileStmt, forStmt, tryStmt, withStmt, funcDef, classDef, decorated, asyncStmt, line]
  | .suite => .alt [block, suiteLine]
  | .line | .suiteLine => .seq [small, .many (.seq [";", small]), .opt ";", .token .newline]
  | .block => .seq [.token .newline, .token .indent, some statement, .token .dedent]
  | .small => .alt [delStmt, passStmt, breakStmt, continueStmt, returnStmt, raiseStmt, importStmt, fromStmt,
      globalStmt, nonlocalStmt, assertStmt, exprStmt]
  | .exprStmt => .alt [yieldExpr, .seq [starList, .opt (.alt [annotated,
      .seq [.alt (["+=", "-=", "*=", "@=", "/=", "%=", "&=", "|=", "^=", "<<=", ">>=", "**=", "//="].map .word),
        .alt [yieldExpr, testList]],
      some (.seq ["=", .alt [yieldExpr, starList]])])]]
  | .annotated => .seq [":", test, .opt (.seq ["=", .alt [yieldExpr, starList]])]
  | .delStmt => .seq ["del", exprList]
  | .passStmt => "pass"
  | .breakStmt => "break"
  | .continueStmt => "continue"
  | .returnStmt => .seq ["return", .opt starList]
  | .raiseStmt => .seq ["raise", .opt (.seq [test, .opt raiseCause])]
  | .raiseCause => .seq ["from", test]
  | .importStmt => .seq ["import", importItem, .many (.seq [",", importItem])]
  | .importItem => .seq [dottedName, .opt (.seq ["as", .token .name])]
  | .fromStmt => .seq ["from", .many (.alt ["...", "."]), .opt dottedName, "import",
      .alt ["*", .seq ["(", commas fromItem, ")"], commas fromItem]]
  | .fromItem => .seq [.token .name, .opt (.seq ["as", .token .name])]
  | .dottedName => .seq [.token .name, .many (.seq [".", .token .name])]
  | .globalStmt => .seq ["global", .token .name, .many (.seq [",", .token .name])]
  | .nonlocalStmt => .seq ["nonlocal", .token .name, .many (.seq [",", .token .name])]
  | .assertStmt => .seq ["assert", test, .opt (.seq [",", test])]
  | .ifStmt => .seq ["if", namedExpr, ":", suite, .many elifClause, .opt elseClause]
  | .elifClause => .seq ["elif", namedExpr, ":", suite]
  | .elseClause => .seq ["else", ":", suite]
  | .whileStmt => .seq ["while", namedExpr, ":", suite, .opt elseClause]
  | .forStmt => .seq ["for", exprList, "in", testList, ":", suite, .opt elseClause]
  | .tryStmt => .seq ["try", ":", suite, .alt [finallyClause, .seq [some exceptClause, .opt elseClause, .opt finallyClause]]]
  | .exceptClause => .seq ["except", .opt (.seq [test, .opt (.seq ["as", .token .name])]), ":", suite]
  | .finallyClause => .seq ["finally", ":", suite]
  | .withStmt => .seq ["with", withItem, .many (.seq [",", withItem]), ":", suite]
  | .withItem => .seq [test, .opt (.seq ["as", bitOr])]
  | .funcDef => .seq ["def", .token .name, "(", params, ")", .opt returns, ":", suite]
  | .params => .opt (commas param)
  | .param => .alt ["/", .seq ["*", .opt typedParam], .seq ["**", typedParam], .seq [typedParam, .opt (.seq ["=", test])]]
  | .typedParam => .seq [.token .name, .opt (.seq [":", test])]
  | .returns => .seq ["->", test]
  | .classDef => .seq ["class", .token .name, .opt (.seq ["(", arguments, ")"]), ":", suite]
  | .decorator => .seq ["@", dottedName, .opt (.seq ["(", arguments, ")"]), .token .newline]
  | .decorated => .seq [some decorator, .alt [funcDef, classDef, asyncStmt]]
  | .asyncStmt => .seq ["async", .alt [funcDef, withStmt, forStmt]]
  | .namedExpr => .seq [test, .opt (.seq [":=", test])]
  | .test => .alt [lambda, .seq [orTest, .opt (.seq ["if", orTest, "else", test])]]
  | .testNoCond => .alt [lambdaNoCond, orTest]
  | .lambda => .seq ["lambda", lambdaParams, ":", test]
  | .lambdaNoCond => .seq ["lambda", lambdaParams, ":", testNoCond]
  | .lambdaParams => .opt (commas lambdaParam)
  | .lambdaParam => .alt ["/", .seq ["*", .opt (.token .name)], .seq ["**", .token .name],
      .seq [.token .name, .opt (.seq ["=", test])]]
  | .orTest => chain andTest ["or"]
  | .andTest => chain notTest ["and"]
  | .notTest => .alt [.seq ["not", notTest], comparison]
  | .comparison => .seq [bitOr, .many (.seq [compareOp, bitOr])]
  | .compareOp => .alt ["<", ">", "==", ">=", "<=", "!=", "in", .seq ["not", "in"], .seq ["is", .opt "not"]]
  | .star => .seq ["*", bitOr]
  | .bitOr => chain bitXor ["|"]
  | .bitXor => chain bitAnd ["^"]
  | .bitAnd => chain shift ["&"]
  | .shift => chain sum ["<<", ">>"]
  | .sum => chain term ["+", "-"]
  | .term => chain factor ["*", "@", "/", "%", "//"]
  | .factor => .alt [.seq [.alt ["+", "-", "~"], factor], power]
  | .power => .seq [.alt [awaitExpr, atomExpr], .opt (.seq ["**", factor])]
  | .awaitExpr => .seq ["await", atomExpr]
  | .atomExpr => .seq [atom, .many (.alt [callTrailer, indexTrailer, attrTrailer])]
  | .atom => .alt [.token .name, .token .number, strings, paren, bracket, brace, ellipsis, "None", "True", "False"]
  | .callTrailer => .seq ["(", arguments, ")"]
  | .indexTrailer => .seq ["[", commas subscript, "]"]
  | .attrTrailer => .seq [".", .token .name]
  | .argument => .alt [.seq ["**", test], .seq ["*", test],
      .seq [test, .opt (.alt [.seq ["=", test], .seq [":=", test], compFor])]]
  | .subscript => .alt [.seq [":", .opt test, .opt sliceStep], .seq [test, .opt (.seq [":", .opt test, .opt sliceStep])]]
  | .sliceStep => .seq [":", .opt test]
  | .paren => .seq ["(", .opt (.alt [yieldExpr, tupleItems]), ")"]
  | .bracket => .seq ["[", .opt listItems, "]"]
  | .brace => .seq ["\x7b", .opt braceItems, "\x7d"]
  | .braceItem => .alt [spread, star, .seq [test, .opt (.seq [":", test])]]
  | .spread => .seq ["**", bitOr]
  | .testList => commas test
  | .exprList => commas (.alt [star, bitOr])
  | .starList => commas (.alt [star, test])
  | .tupleItems | .listItems => .seq [.alt [star, namedExpr], .alt [compFor,
      .seq [.many (.seq [",", .alt [star, namedExpr]]), .opt ","]]]
  | .braceItems => .seq [braceItem, .alt [compFor, .seq [.many (.seq [",", braceItem]), .opt ","]]]
  | .compFor => .seq [.opt "async", "for", exprList, "in", orTest, .opt compIter]
  | .compIter => .alt [compFor, compIf]
  | .compIf => .seq ["if", testNoCond, .opt compIter]
  | .ellipsis => "..."
  | .strings => some (.alt [.token .string, format])
  | .format => .seq [.token .openFormat, .many (.alt [.token .formatText, formatExpr]), .token .closeFormat]
  | .formatExpr => .seq ["\x7b", .alt [yieldExpr, tupleItems], .opt "=", .opt conversion, .opt formatSpec, "\x7d"]
  | .conversion => .seq ["!", .token .name]
  | .formatSpec => .seq [":", .many (.alt [.token .formatText, formatExpr])]
  | .yieldExpr => .seq ["yield", .opt (.alt [yieldFrom, starList])]
  | .yieldFrom => .seq ["from", test]

def isTransparent : Rule → Bool
  | .statement | .suite | .small | .namedExpr | .test | .testNoCond | .orTest | .andTest
  | .notTest | .comparison | .compareOp | .bitOr | .bitXor | .bitAnd | .shift | .sum | .term
  | .factor | .power | .atomExpr | .atom | .braceItem | .testList | .exprList | .starList
  | .tupleItems | .compIter | .strings | .dottedName => true
  | _ => false

end Rule

inductive Tree where
  | leaf (t : Token)
  | node (r : Rule) (parts : List Tree)
  deriving Inhabited

def Tree.ofRule (r : Rule) (parts : List Tree) : Tree :=
  match parts with
  | [t] => if r.isTransparent then t else .node r [t]
  | _ => .node r parts

def Token.isWord (t : Token) (s : String) : Bool := (t.kind == .name || t.kind == .mark) && t.text == s

/-- Read a grammar expression from the front of a list of tokens. `fuel` bounds the depth and the
length of the reading. -/
def Gram.derive : Nat → Gram → List Token → Option (List Tree × List Token)
  | 0, _, _ => none
  | fuel + 1, g, ts =>
    match g with
    | .word s =>
      match ts with
      | t :: rest => if t.isWord s then Option.some ([.leaf t], rest) else none
      | [] => none
    | .token k =>
      match ts with
      | t :: rest =>
        if t.kind == k && ! (k == .name && reserved.contains t.text) then
          Option.some ([.leaf t], rest)
        else none
      | [] => none
    | .rule r => (derive fuel r.body ts).map fun (parts, rest) => ([Tree.ofRule r parts], rest)
    | .seq [] => Option.some ([], ts)
    | .seq (g :: gs) =>
      match derive fuel g ts with
      | none => none
      | Option.some (parts, rest) => (derive fuel (.seq gs) rest).map fun (parts', rest') => (parts ++ parts', rest')
    | .alt [] => none
    | .alt (g :: gs) =>
      match derive fuel g ts with
      | Option.some r => Option.some r
      | none => derive fuel (.alt gs) ts
    | .opt g =>
      match derive fuel g ts with
      | Option.some r => Option.some r
      | none => Option.some ([], ts)
    | .many g =>
      match derive fuel g ts with
      | Option.some (parts, rest) =>
        match derive fuel (.many g) rest with
        | Option.some (parts', rest') => Option.some (parts ++ parts', rest')
        | none => Option.some (parts, rest)
      | none => Option.some ([], ts)

/-- The derivation of a whole list of tokens by a rule. The fuel is enough for any derivation: a
token is reached by passing through each rule a bounded number of times. -/
def Rule.derive? (r : Rule) (ts : List Token) : Option Tree :=
  match Gram.derive (200 * (ts.length + 2)) (.rule r) ts with
  | some ([t], []) => some t
  | _ => none

end Mender.Syntax
