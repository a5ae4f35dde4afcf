import Mender.Syntax.Grammar

/-!
# From derivations to trees

`assemble` builds the node of one rule from its parts. Each gap between two tokens has one owner:

* an operator, a colon or an equals sign owns the gaps on both of its sides;
* an opening bracket owns the gap behind it, a closing one the gap before it;
* a comma owns the gaps on both sides, but the last comma of a display leaves the gap behind it to
  the closing bracket;
* a keyword owns the gap behind it.

Lines without code belong to the statement or clause that follows them.

A reading fails also for texts that the grammar alone lets through: arguments and parameters out of
order, a bare `except` that is not the last one, texts concatenated with bytes.
-/

namespace Mender.Syntax

open Node

/-- A part that has been assembled: its node (nothing for a mark), its token if it is one, and what
stands in front of its first token. -/
structure Part where
  node : Node
  token : Option Token := none
  gap : Node
  lines : List Node
  deriving Inhabited

namespace Part

variable (p : Part)

def isWord (s : String) : Bool := p.token.any (·.isWord s)

def isOneOf (ss : List String) : Bool := ss.any p.isWord

def text : String := (p.token.map (·.text)).getD ""

def numberNode (s : String) : Node :=
  let cs := s.toList
  if (Token.integer? cs).any (·.2.isEmpty) then make .integer [] s
  else if (Token.float? cs).any (·.2.isEmpty) then make .float [] s
  else make .imaginary [] s

def ofToken (t : Token) : Part :=
  let node := match t.kind with
    | .name => make .name [] t.text
    | .number => numberNode t.text
    | .string => make .simpleString [] t.text
    | .formatText => leaf .formattedStringText t.text
    | .newline => t.rest
    | .mark => if t.text == "..." then make .ellipsis [] else absent
    | _ => absent
  { node := node, token := some t, gap := t.gap, lines := t.lines }

end Part

namespace Assemble

variable (n close : Node)

abbrev tight : Node := blank ""

def nodeOf (p : Option Part) : Node := (p.map (·.node)).getD absent

def gapOf (p : Option Part) : Node := (p.map (·.gap)).getD tight

def around (k : Kind) (before after : Node) (text : String := "") : Node := .mk k text [before, after] none

/-- Items with the commas behind them, `close` being the gap behind the last of them. The last comma
owns that gap if `greedy`. An item without a comma leaves it to the printer. -/
def withCommas (greedy : Bool) (close : Node) : List Part → List (Part × Node)
  | [] => []
  | [item] => [(item, auto)]
  | [item, comma] => [(item, around .comma comma.gap (if greedy then close else tight))]
  | item :: comma :: next :: rest => (item, around .comma comma.gap next.gap) :: withCommas greedy close (next :: rest)

def separated (items : List Part) : Node :=
  seq ((withCommas true close items).map fun (p, comma) => p.node.set .comma comma)

def element (e : Part × Node) : Node :=
  if e.1.node.kind == .starredElement then e.1.node.set .comma e.2
  else .mk .element "" [e.1.node, e.2] none

variable (parts : List Part)

def elements : List Node := (withCommas false tight parts).map element

def bareTuple : Node := make .tuple [(.lpar, seq []), (.elements, seq (elements parts)), (.rpar, seq [])]

def bareList : Node := make .list [(.elements, seq (elements parts))]

def generator (elt loop : Part) : Node :=
  make .generatorExp [(.lpar, seq []), (.elt, elt.node), (.forIn, loop.node), (.rpar, seq [])]

def leftChain (kind : Kind) (op : String → Option Kind) (first : Node) : List Part → Option Node
  | [] => some first
  | o :: right :: rest =>
    match op o.text with
    | some k =>
      leftChain kind op (make kind [(.left, first), (.operator, around k o.gap right.gap), (.right, right.node)]) rest
    | none => none
  | _ => none

def booleanOp : String → Option Kind
  | "and" => some .logicalAnd
  | "or" => some .logicalOr
  | _ => none

def unaryOp : String → Option Kind
  | "+" => some .plus
  | "-" => some .minus
  | "~" => some .invert
  | "not" => some .logicalNot
  | _ => none

def comparisonTargets : List Part → Option (List Node)
  | [] => some []
  | o :: right :: rest =>
    let operator : Option Node := match o.token with
      | some t => (Kind.compare? t.text).map fun k => around k o.gap right.gap (if k == .notEqual then t.text else "")
      | none => some (o.node.set .after right.gap)
    match operator, comparisonTargets rest with
    | some operator, some targets => some (.mk .comparisonTarget "" [operator, right.node] none :: targets)
    | _, _ => none
  | _ => none

/-- The arguments of a call with their commas; the last one without a comma owns the gap before the
closing parenthesis. -/
def arguments : List Node :=
  (withCommas true close parts).map fun (p, comma) =>
    let arg := p.node.set .comma comma
    if comma.kind == .auto then arg.set .afterArg close else arg

def argumentsInOrder : Bool → Bool → List Node → Bool
  | _, _, [] => true
  | keyword, spread, a :: rest =>
    if a.text == "**" then argumentsInOrder keyword true rest
    else if a.text == "*" then ! spread && argumentsInOrder keyword spread rest
    else if (a.get .keyword).isPresent then argumentsInOrder true spread rest
    else ! keyword && ! spread && argumentsInOrder keyword spread rest

def enclose (content : Node) (l r : Slot) (open_ close : Kind) (first last : Part) : Node :=
  content.setAll [(l, .mk open_ "" [first.gap] none), (r, .mk close "" [last.gap] none)]

/-- What may stand in a display, each part wrapped as it is kept. -/
def braceContent : Option Node :=
  let isPair := fun (p : Part) => p.node.kind == .dictElement || p.node.kind == .starredDictElement
  match parts with
  | [item, loop] =>
    if loop.node.kind == .compFor then
      if item.node.kind == .dictElement then
        some (make .dictComp [(.key, item.node.get .key),
          (.beforeColon, item.node.get .beforeColon), (.afterColon, item.node.get .afterColon),
          (.value, item.node.get .value), (.forIn, loop.node)])
      else if isPair item then none
      else some (make .setComp [(.elt, item.node), (.forIn, loop.node)])
    else display isPair
  | _ => display isPair
where
  display (isPair : Part → Bool) : Option Node :=
    let entries := withCommas false tight parts
    if entries.all fun e => isPair e.1 then
      some (make .dict [(.elements, seq (entries.map fun e => e.1.node.set .comma e.2))])
    else if entries.any fun e => isPair e.1 then none
    else some (make .set [(.elements, seq (entries.map element))])

variable (p : Part)

/-- The conditions and inner loops that follow a loop of a comprehension. -/
def clauses : List Node := if p.node.kind == .seq then p.node.items else [p.node]

def withClauses (loop : Node) (cs : List Node) : Node :=
  loop.setAll [(.ifs, seq (cs.filter (·.kind == .compIf))), (.innerFor, (cs.find? (·.kind == .compFor)).getD absent)]

inductive Section where
  | positional | keywordOnly | closed
  deriving DecidableEq

def gatherParams : Section → List (Part × Node) → Node → Option Node
  | _, [], acc => some acc
  | .closed, _ :: _, _ => none
  | sect, (p, comma) :: rest, acc =>
    let param := p.node
    if param.kind == .paramSlash then
      if sect == .positional && ! (acc.get .posonlyMark).isPresent && ! (acc.list .params).isEmpty then
        gatherParams sect rest (acc.setAll [(.posonlyParams, acc.get .params),
          (.params, seq []), (.posonlyMark, param.set .comma comma)])
      else none
    else if param.kind == .paramStar then
      if sect == .positional then
        gatherParams .keywordOnly rest (acc.set .starArg
          (param.set .comma (if comma.kind == .auto then fresh .comma else comma)))
      else none
    else
      let param := param.set .comma comma
      if param.text == "**" then gatherParams .closed rest (acc.set .starKwarg param)
      else if param.text == "*" then
        if sect == .positional then gatherParams .keywordOnly rest (acc.set .starArg param) else none
      else if sect == .positional then
        gatherParams sect rest (acc.setList .params (acc.list .params ++ [param]))
      else gatherParams sect rest (acc.setList .kwonlyParams (acc.list .kwonlyParams ++ [param]))

def defaultsInOrder : Bool → List Node → Bool
  | _, [] => true
  | seen, p :: rest =>
    if (p.get .default).isPresent then defaultsInOrder true rest
    else ! seen && defaultsInOrder seen rest

def parameters : Option Node :=
  (gatherParams .positional (withCommas true close parts) (fresh .parameters)).bind fun ps =>
    if ! defaultsInOrder false (ps.list .posonlyParams ++ ps.list .params) then none
    else if (ps.get .starArg).kind == .paramStar && (ps.list .kwonlyParams).isEmpty then none
    else some ps

def mapLastParam (f : Node → Node) (ps : Node) : Node :=
  let one := fun (s : Slot) => ps.set s (f (ps.get s))
  let last := fun (s : Slot) => ps.setList s ((ps.list s).dropLast ++ ((ps.list s).getLast?.map f).toList)
  if (ps.get .starKwarg).isPresent then one .starKwarg
  else if ! (ps.list .kwonlyParams).isEmpty then last .kwonlyParams
  else if (ps.get .starArg).isPresent then one .starArg
  else if ! (ps.list .params).isEmpty then last .params
  else if (ps.get .posonlyMark).isPresent then one .posonlyMark
  else ps

/-- The last parameter without a comma owns the gap before the closing parenthesis, and so does a comma behind it. -/
def closeParams : Node → Node :=
  mapLastParam fun p =>
    match (p.get .comma).kind with
    | .auto => p.set .afterParam close
    | .comma => p.set .comma ((p.get .comma).set .after close)
    | _ => p

def isTight : Bool := n.kind == .whitespace && n.text.isEmpty

def literalMark : String :=
  let s := if n.kind == .formattedString then (n.get .start).text else n.text
  String.ofList ((s.toList.takeWhile Text.isWordChar).map Char.toLower)

def isBytes : Bool :=
  let first := if n.kind == .concatenatedString then n.get .left else n
  (literalMark first).toList.contains 'b'

def concatenate : List Part → Option Node
  | [] => none
  | [p] => some p.node
  | p :: q :: rest =>
    match concatenate (q :: rest) with
    | some right =>
      if isBytes p.node != isBytes right then none
      else some (make .concatenatedString [(.left, p.node), (.between, q.gap), (.right, right)])
    | none => none

def trailers (first : Node) : List Part → Node
  | [] => first
  | t :: rest =>
    match t.node.kind with
    | .call => trailers (t.node.set .func first) rest
    | _ => trailers (t.node.set .value first) rest

def smallStatements : List Part → List Node
  | [] => []
  | [s] => [s.node]
  | [s, semi] => [s.node.set .semicolon (around .semicolon semi.gap tight)]
  | s :: semi :: next :: rest =>
    s.node.set .semicolon (around .semicolon semi.gap next.gap) :: smallStatements (next :: rest)

/-- A comma that ends the names of an import without parentheses owns the blank behind it. -/
def closeImport (body : List Node) (trailing : Node) : List Node × Node :=
  match body.getLast? with
  | some last =>
    let names := last.list .names
    match names.getLast? with
    | some name =>
      if last.kind == .importFrom && ! (last.get .lpar).isPresent &&
          (name.get .comma).isPresent && (last.get .semicolon).kind == .auto then
        let comma := (name.get .comma).set .after (trailing.get .whitespace)
        (body.dropLast ++ [last.setList .names (names.dropLast ++ [name.set .comma comma])], trailing.set .whitespace tight)
      else (body, trailing)
    | none => (body, trailing)
  | none => (body, trailing)

def lineParts : List Node × Node :=
  let trailing := nodeOf parts.getLast?
  closeImport (smallStatements parts.dropLast) trailing

def dotted (first : Node) : List Part → Node
  | dot :: name :: rest =>
    dotted (make .member [(.value, first), (.dot, around .dot dot.gap name.gap), (.attr, name.node)]) rest
  | _ => first

/-- The dots in front of a module name: each token `...` is three. -/
def dots : List Part → Node → List Node
  | [], _ => []
  | d :: rest, close =>
    let after := match rest with
      | next :: _ => next.gap
      | [] => close
    let plain := around .dot tight tight
    (if d.isWord "..." then [plain, plain] else []) ++ [around .dot tight after] ++ dots rest close

def importedModule : List Part → Option Part × List Part
  | [] => (none, [])
  | p :: more => if p.isWord "import" then (none, p :: more) else (some p, more)

def typeHint (mark type : Part) : Node :=
  make .typeHint [(.beforeIndicator, mark.gap), (.afterIndicator, type.gap), (.typeHint, type.node)]

/-- The gap behind the first word of a from-import: that of the first dot, or of the module. -/
def gapAfterFrom : List Part → Option Part → Node
  | d :: _, _ => d.gap
  | [], some m => m.gap
  | [], none => tight

def asName (as_ new : Part) : Node := .mk .asName "" [as_.gap, new.gap, new.node] none

def importAlias : List Part → Option Node
  | [name] => some (make .importAlias [(.name, name.node)])
  | [name, as_, new] => some (make .importAlias [(.name, name.node), (.asname, asName as_ new)])
  | _ => none

def nameItems : Node := seq ((withCommas false tight parts).map fun (p, comma) => .mk .nameItem "" [p.node, comma] none)

def orelse : List Part → Node
  | [] => absent
  | [last] => last.node
  | p :: rest => p.node.set .orelse (orelse rest)

def lines : Slot × Node := (.leadingLines, seq p.lines)

/-- A clause: its first word, what stands between that and the colon, and its body. -/
def clause (k : Kind) (kw : Part) (changes : List (Slot × Node)) (colon body : Part) : Option Node :=
  some (make k (lines kw :: changes ++ [(.beforeColon, colon.gap), (.body, body.node)]))

def slice (lower : Option Part) (colon : Part) (rest : List Part) : Node :=
  let isStep := fun (p : Part) => p.node.kind == .slice && p.token.isNone
  let upper := rest.find? (! isStep ·)
  let step := rest.find? isStep
  let next := match rest with
    | p :: _ => if isStep p then tight else p.gap
    | [] => tight
  make .slice [(.lower, nodeOf lower), (.firstColon, around .colon colon.gap next), (.upper, nodeOf upper),
    (.secondColon, (step.map (·.node.get .secondColon)).getD auto),
    (.step, (step.map (·.node.get .step)).getD absent)]

def leaveGap : Part :=
  if p.node.kind == .slice && ! (p.node.get .lower).isPresent then { p with gap := tight } else p

def fileNode (closing : List Node) : List Node → Node
  | [] => make .module [(.header, seq closing)]
  | first :: rest => make .module [(.header, first.get .leadingLines),
      (.body, seq (first.setList .leadingLines [] :: rest)), (.footer, seq closing)]

def rule (unit : String) (r : Rule) (parts : List Part) : Option Node :=
  match r, parts with
  | .file, _ =>
    let closing := (parts.getLast?.map (·.lines)).getD []
    some (fileNode closing (parts.dropLast.map (·.node)))
  | .loneStatement, [s, _] | .loneExpression, [s, _] => some s.node
  | .line, first :: _ =>
    let (body, trailing) := lineParts parts
    some (.mk .simpleStatementLine "" [seq first.lines, seq body, trailing] none)
  | .suiteLine, first :: _ =>
    let (body, trailing) := lineParts parts
    some (.mk .simpleStatementSuite "" [first.gap, seq body, trailing] none)
  | .block, header :: indent :: rest =>
    let footer := (rest.getLast?.map (·.lines)).getD []
    some (.mk .indentedBlock (if indent.text == unit then "" else indent.text)
      [header.node, seq (rest.dropLast.map (·.node)), seq footer] none)
  | .exprStmt, [value] => some (make .expr [(.value, value.node)])
  | .exprStmt, [target, ann] => some (ann.node.set .target target.node)
  | .exprStmt, first :: op :: value :: rest =>
    match Kind.augmented? op.text with
    | some k => some (make .augAssign [(.target, first.node), (.operator, around k op.gap value.gap), (.value, value.node)])
    | none => assignment (first :: op :: value :: rest) []
  | .annotated, colon :: type :: rest =>
    match rest with
    | [eq, value] => some (make .annAssign [(.typeHint, typeHint colon type),
        (.equal, around .assignEqual eq.gap value.gap), (.value, value.node)])
    | _ => some (make .annAssign [(.typeHint, typeHint colon type)])
  | .delStmt, [_, target] => some (make .del [(.afterKeyword, target.gap), (.target, target.node)])
  | .passStmt, _ => some (fresh .pass)
  | .breakStmt, _ => some (fresh .break)
  | .continueStmt, _ => some (fresh .continue)
  | .returnStmt, [_] => some (make .returnStatement [(.afterKeyword, tight)])
  | .returnStmt, [_, value] => some (make .returnStatement [(.afterKeyword, value.gap), (.value, value.node)])
  | .raiseStmt, [_] => some (make .raise [(.afterKeyword, tight)])
  | .raiseStmt, _ :: exc :: rest =>
    some (make .raise [(.afterKeyword, exc.gap), (.exc, exc.node),
      (.cause, match rest with
        | cause :: _ => cause.node
        | [] => absent)])
  | .raiseCause, [from_, item] => some (.mk .yieldFrom "" [from_.gap, item.gap, item.node] none)
  | .importStmt, _ :: first :: rest =>
    some (make .importStatement [(.afterKeyword, first.gap), (.names, separated tight (first :: rest))])
  | .importItem, _ | .fromItem, _ => importAlias parts
  | .fromStmt, _ :: rest => fromImport rest
  | .dottedName, first :: rest => some (dotted first.node rest)
  | .globalStmt, _ :: first :: rest => some (make .global [(.afterKeyword, first.gap), (.names, nameItems (first :: rest))])
  | .nonlocalStmt, _ :: first :: rest =>
    some (make .nonlocal [(.afterKeyword, first.gap), (.names, nameItems (first :: rest))])
  | .assertStmt, [_, test] => some (make .assert [(.afterKeyword, test.gap), (.test, test.node)])
  | .assertStmt, [_, test, comma, msg] =>
    some (make .assert [(.afterKeyword, test.gap), (.test, test.node),
      (.comma, around .comma comma.gap msg.gap), (.msg, msg.node)])
  | .ifStmt, kw :: test :: colon :: body :: rest | .elifClause, kw :: test :: colon :: body :: rest =>
    some (make .ifStatement [lines kw, (.beforeTest, test.gap), (.test, test.node),
      (.afterTest, colon.gap), (.body, body.node), (.orelse, orelse rest)])
  | .elseClause, [kw, colon, body] => clause .elseClause kw [] colon body
  | .finallyClause, [kw, colon, body] => clause .finallyClause kw [] colon body
  | .whileStmt, kw :: test :: colon :: body :: rest =>
    clause .whileLoop kw [(.afterKeyword, test.gap), (.test, test.node), (.orelse, orelse rest)] colon body
  | .forStmt, kw :: target :: in_ :: iter :: colon :: body :: rest =>
    clause .forLoop kw [(.afterKeyword, target.gap), (.target, target.node), (.beforeIn, in_.gap),
      (.afterIn, iter.gap), (.iter, iter.node), (.orelse, orelse rest)] colon body
  | .tryStmt, kw :: colon :: body :: rest =>
    let handlers := rest.filter (·.node.kind == .exceptHandler)
    let ofKind := fun k => nodeOf (rest.find? (·.node.kind == k))
    if handlers.dropLast.any fun h => ! (h.node.get .type).isPresent then none
    else clause .tryStatement kw [(.handlers, seq (handlers.map (·.node))), (.orelse, ofKind .elseClause),
      (.finalbody, ofKind .finallyClause)] colon body
  | .exceptClause, kw :: rest =>
    match rest with
    | [colon, body] => clause .exceptHandler kw [(.afterKeyword, tight)] colon body
    | [type, colon, body] => clause .exceptHandler kw [(.afterKeyword, type.gap), (.type, type.node)] colon body
    | [type, as_, name, colon, body] =>
      clause .exceptHandler kw [(.afterKeyword, type.gap), (.type, type.node), (.name, asName as_ name)] colon body
    | _ => none
  | .withStmt, kw :: rest =>
    let items := rest.take (rest.length - 2)
    match items, rest.drop (rest.length - 2) with
    | first :: _, [colon, body] =>
      clause .withStatement kw [(.afterKeyword, first.gap), (.items, separated tight items)] colon body
    | _, _ => none
  | .withItem, [item] => some (make .withItem [(.item, item.node)])
  | .withItem, [item, as_, name] => some (make .withItem [(.item, item.node), (.asname, asName as_ name)])
  | .funcDef, def_ :: name :: lpar :: params :: rpar :: rest =>
    match rest with
    | [colon, body] => function def_ name lpar params rpar absent colon body
    | [returns, colon, body] => function def_ name lpar params rpar returns.node colon body
    | _ => none
  | .returns, [arrow, type] => some (typeHint arrow type)
  | .params, _ | .lambdaParams, _ => parameters tight parts
  | .param, _ | .lambdaParam, _ => parameter parts
  | .typedParam, [name] => some (make .param [(.name, name.node)])
  | .typedParam, [name, colon, type] => some (make .param [(.name, name.node), (.typeHint, typeHint colon type)])
  | .classDef, class_ :: name :: rest =>
    match rest with
    | [colon, body] => clause .classDef class_ [(.afterKeyword, name.gap), (.name, name.node)] colon body
    | lpar :: more =>
      match more.reverse with
      | body :: colon :: rpar :: args =>
        let args := args.reverse
        let first := (args.head?.map (·.gap)).getD rpar.gap
        let built := arguments rpar.gap args
        let isBase := fun (a : Node) => a.text != "**" && ! (a.get .keyword).isPresent
        let bases := built.takeWhile isBase
        let keywords := built.dropWhile isBase
        if keywords.any isBase then none
        else clause .classDef class_ [(.afterKeyword, name.gap), (.name, name.node), (.afterName, lpar.gap),
          (.lpar, .mk .leftParen "" [first] none), (.bases, seq bases), (.keywords, seq keywords),
          (.rpar, fresh .rightParen)] colon body
      | _ => none
    | _ => none
  | .decorator, at_ :: name :: rest =>
    let newline := nodeOf rest.getLast?
    let called := match rest.dropLast with
      | [] => some name.node
      | lpar :: args => (call lpar args).map fun (c : Node) => c.set .func name.node
    called.map fun d => make .decorator [lines at_, (.after, name.gap), (.decorator, d), (.trailing, newline)]
  | .decorated, _ =>
    match parts.getLast?, parts.dropLast with
    | some target, first :: rest =>
      some (target.node.setAll [(.leadingLines, seq first.lines), (.linesAfterDecorators, target.node.get .leadingLines),
        (.decorators, seq (first.node.setList .leadingLines [] :: rest.map (·.node)))])
    | _, _ => none
  | .asyncStmt, [async_, stmt] =>
    some (stmt.node.setAll [lines async_, (.asynchronous, .mk .asynchronous "" [stmt.gap] none)])
  | .namedExpr, [target, op, value] => some (walrus target op value)
  | .test, [body, if_, test, else_, orelse] =>
    some (make .ifExp [(.body, body.node), (.beforeIf, if_.gap), (.afterIf, test.gap),
      (.test, test.node), (.beforeElse, else_.gap), (.afterElse, orelse.gap),
      (.orelse, orelse.node)])
  | .lambda, [_, params, colon, body] | .lambdaNoCond, [_, params, colon, body] =>
    let ps := params.node
    let isEmpty := same ps (fresh .parameters)
    if ! isEmpty && isTight params.gap then none
    else some (make .lambda [(.afterKeyword, if isEmpty then tight else params.gap),
      (.params, ps), (.colon, around .colon colon.gap body.gap), (.body, body.node)])
  | .orTest, first :: rest | .andTest, first :: rest => leftChain .booleanOperation booleanOp first.node rest
  | .notTest, [op, value] | .factor, [op, value] =>
    (unaryOp op.text).map fun k => make .unaryOperation [(.operator, .mk k "" [value.gap] none), (.expression, value.node)]
  | .comparison, left :: rest =>
    (comparisonTargets rest).map fun targets => make .comparison [(.left, left.node), (.comparisons, seq targets)]
  | .compareOp, [a, b] =>
    if a.isWord "not" then
      some (make .notWithin [(.before, a.gap), (.between, b.gap)])
    else some (make .notIdentical [(.before, a.gap), (.between, b.gap)])
  | .star, [_, value] => some (make .starredElement [(.beforeValue, value.gap), (.value, value.node)])
  | .spread, [_, value] => some (make .starredDictElement [(.beforeValue, value.gap), (.value, value.node)])
  | .bitOr, first :: rest | .bitXor, first :: rest | .bitAnd, first :: rest
  | .shift, first :: rest | .sum, first :: rest | .term, first :: rest | .power, first :: rest =>
    leftChain .binaryOperation Kind.binary? first.node rest
  | .awaitExpr, [_, value] => some (make .await [(.afterKeyword, value.gap), (.expression, value.node)])
  | .atomExpr, first :: rest => some (trailers first.node rest)
  | .callTrailer, lpar :: args => call lpar args
  | .indexTrailer, lbracket :: rest =>
    match rest.getLast?, rest.dropLast.map leaveGap with
    | some rbracket, first :: more =>
      some (make .subscript [(.afterValue, lbracket.gap), (.lbracket, .mk .leftBracket "" [first.gap] none),
        (.slice, seq ((withCommas true rbracket.gap (first :: more)).map fun (p, comma) =>
          .mk .subscriptElement "" [p.node, comma] none)),
        (.rbracket, .mk .rightBracket "" [
          if ((first :: more).getLast?.any (·.isWord ",")) then tight else rbracket.gap] none)])
    | _, _ => none
  | .attrTrailer, [dot, name] => some (make .member [(.dot, around .dot dot.gap name.gap), (.attr, name.node)])
  | .argument, _ => argument parts
  | .subscript, [test] =>
    if test.isWord ":" then some (slice none test [])
    else some (.mk .index "" [test.node] none)
  | .subscript, first :: second :: rest =>
    if first.isWord ":" then some (slice none first (second :: rest))
    else some (slice (some first) second rest)
  | .sliceStep, [colon] => some (make .slice [(.secondColon, around .colon colon.gap tight)])
  | .sliceStep, [colon, step] => some (make .slice [(.secondColon, around .colon colon.gap step.gap), (.step, step.node)])
  | .paren, [_, rpar] =>
    some (make .tuple [(.lpar, seq [.mk .leftParen "" [rpar.gap] none]), (.rpar, seq [fresh .rightParen])])
  | .paren, [_, inner, rpar] =>
    some (inner.node.setAll [(.lpar, seq (.mk .leftParen "" [inner.gap] none :: inner.node.list .lpar)),
      (.rpar, seq (inner.node.list .rpar ++ [.mk .rightParen "" [rpar.gap] none]))])
  | .bracket, [_, rbracket] => some (make .list [(.lbracket, .mk .leftBracket "" [rbracket.gap] none)])
  | .bracket, [_, inner, rbracket] => some (enclose inner.node .lbracket .rbracket .leftBracket .rightBracket inner rbracket)
  | .brace, [_, rbrace] => some (make .dict [(.lbrace, .mk .leftBrace "" [rbrace.gap] none)])
  | .brace, [_, inner, rbrace] => some (enclose inner.node .lbrace .rbrace .leftBrace .rightBrace inner rbrace)
  | .braceItem, [key, colon, value] =>
    some (make .dictElement [(.key, key.node), (.beforeColon, colon.gap), (.afterColon, value.gap), (.value, value.node)])
  | .braceItems, _ => braceContent parts
  | .testList, _ | .exprList, _ | .starList, _ => some (bareTuple parts)
  | .tupleItems, [elt, loop] => some (if loop.node.kind == .compFor then generator elt loop else bareTuple parts)
  | .tupleItems, _ => some (bareTuple parts)
  | .listItems, [elt, loop] =>
    some (if loop.node.kind == .compFor then make .listComp [(.elt, elt.node), (.forIn, loop.node)]
      else bareList parts)
  | .listItems, _ => some (bareList parts)
  | .compFor, first :: rest =>
    if first.isWord "async" then
      match rest with
      | for_ :: rest => (comprehension for_ rest).map fun loop =>
          loop.setAll [(.before, first.gap), (.asynchronous, .mk .asynchronous "" [for_.gap] none)]
      | [] => none
    else comprehension first rest
  | .compIf, if_ :: test :: rest => some (seq (.mk .compIf "" [if_.gap, test.gap, test.node] none :: rest.flatMap clauses))
  | .ellipsis, _ => some (fresh .ellipsis)
  | .strings, _ => concatenate parts
  | .format, first :: rest =>
    some (make .formattedString [(.start, word first.text), (.parts, seq (rest.dropLast.map (·.node))),
      (.finish, word ((rest.getLast?.map (·.text)).getD ""))])
  | .formatExpr, _ :: expression :: rest => formatExpr expression rest
  | .conversion, [_, name] =>
    if ["s", "r", "a"].contains name.text then some (word ("!" ++ name.text)) else none
  | .formatSpec, _ :: rest => some (seq (rest.map (·.node)))
  | .yieldExpr, [_] => some (make .yield [(.afterKeyword, tight)])
  | .yieldExpr, [_, value] => some (make .yield [(.afterKeyword, value.gap), (.value, value.node)])
  | .yieldFrom, [_, item] => some (make .yieldFrom [(.afterFrom, item.gap), (.item, item.node)])
  | _, _ => none
where
  assignment : List Part → List Node → Option Node
    | [value], targets => some (make .assign [(.targets, seq targets), (.value, value.node)])
    | target :: eq :: value :: rest, targets =>
      assignment (value :: rest)
        (targets ++ [.mk .assignTarget "" [target.node, eq.gap, value.gap] none])
    | _, _ => none
  fromImport (rest : List Part) : Option Node :=
    let isDot := fun (p : Part) => p.isOneOf [".", "..."]
    let leading := rest.takeWhile isDot
    let rest := rest.dropWhile isDot
    let (module, rest) := importedModule rest
    match rest with
    | import_ :: names@(first :: _) =>
      let dotGap := gapOf module
      let base := [(Slot.afterFrom, gapAfterFrom leading module), (.relative, seq (dots leading dotGap)),
        (.module, nodeOf module),
        (.beforeImport, import_.gap), (.afterImport, first.gap)]
      if leading.isEmpty && module.isNone then none
      else if first.isWord "*" then
        some (make .importFrom (base ++ [(.names, fresh .importStar)]))
      else if first.isWord "(" then
        let inner := (names.drop 1).dropLast
        let close := gapOf names.getLast?
        let open_ := gapOf inner.head?
        let trailing := inner.getLast?.any (·.isWord ",")
        some (make .importFrom (base ++ [(.lpar, .mk .leftParen "" [open_] none), (.names, separated close inner),
          (.rpar, .mk .rightParen "" [if trailing then tight else close] none)]))
      else some (make .importFrom (base ++ [(.names, separated tight names)]))
    | _ => none
  function (def_ name lpar params rpar : Part) (returns : Node) (colon body : Part) : Option Node :=
    let empty := (params.node.parts.all fun p => ! p.isPresent || (p.kind == .seq && p.parts.isEmpty))
    let before := if empty then rpar.gap else params.gap
    clause .functionDef def_ [(.afterKeyword, name.gap), (.name, name.node), (.afterName, lpar.gap),
      (.beforeParams, before), (.params, closeParams rpar.gap params.node), (.returns, returns)] colon body
  parameter : List Part → Option Node
    | [p] =>
      if p.isWord "/" then some (fresh .paramSlash)
      else if p.isWord "*" then some (fresh .paramStar)
      else some (named p)
    | [star, p] => some (((named p).set .afterStar p.gap).withText star.text)
    | [p, eq, default] => some ((named p).setAll [
        (.equal, around .assignEqual eq.gap default.gap), (.default, default.node)])
    | _ => none
  named (p : Part) : Node :=
    if p.node.kind == .param then p.node else make .param [(.name, p.node)]
  walrus (target op value : Part) : Node :=
    make .namedExpr [(.lpar, seq []), (.target, target.node), (.beforeWalrus, op.gap),
      (.afterWalrus, value.gap), (.value, value.node), (.rpar, seq [])]
  call (lpar : Part) (rest : List Part) : Option Node :=
    let args := rest.dropLast
    let close := gapOf rest.getLast?
    let first := (args.head?.map (·.gap)).getD close
    let built := arguments close args
    if argumentsInOrder false false built then
      some (make .call [(.afterFunc, lpar.gap), (.beforeArgs, first), (.args, seq built)])
    else none
  argument : List Part → Option Node
    | [value] => some (make .arg [(.value, value.node)])
    | [a, b] =>
      if a.isOneOf ["*", "**"] then
        some (make .arg [(.afterStar, b.gap), (.value, b.node)] a.text)
      else some (make .arg [(.value, generator a b)])
    | [name, op, value] =>
      if op.isWord "=" then
        some (make .arg [(.keyword, name.node), (.equal, around .assignEqual op.gap value.gap), (.value, value.node)])
      else some (make .arg [(.value, walrus name op value)])
    | _ => none
  comprehension (for_ : Part) : List Part → Option Node
    | target :: in_ :: iter :: rest =>
      some (withClauses (make .compFor [(.before, for_.gap), (.afterKeyword, target.gap),
        (.target, target.node), (.beforeIn, in_.gap), (.afterIn, iter.gap), (.iter, iter.node)])
        (rest.flatMap clauses))
    | _ => none
  formatExpr (expression : Part) (rest : List Part) : Option Node :=
    let equal := rest.head?.any (·.isWord "=")
    let behind := if equal then rest.drop 1 else rest
    let next := gapOf behind.head?
    let conversion := ((behind.find? (·.node.kind == .word)).map (·.node)).getD (word "")
    let spec := ((behind.find? fun p => p.node.kind == .seq && p.token.isNone).map (·.node)).getD
      absent
    some (make .formattedStringExpression [(.beforeExpression, expression.gap), (.expression, expression.node),
      (.equal, if equal then around .assignEqual (gapOf rest.head?) next
        else absent),
      (.afterExpression, if equal then tight else next), (.conversion, conversion),
      (.formatSpec, spec)])

mutual

def tree (unit : String) : Tree → Option Part
  | .leaf t => some (Part.ofToken t)
  | .node r ts =>
    match trees unit ts with
    | none => none
    | some parts =>
      (rule unit r parts).map fun n =>
        { node := n
          gap := gapOf parts.head?
          lines := (parts.head?.map (·.lines)).getD [] }

def trees (unit : String) : List Tree → Option (List Part)
  | [] => some []
  | t :: ts =>
    match tree unit t, trees unit ts with
    | some p, some ps => some (p :: ps)
    | _, _ => none

end

end Assemble

end Mender.Syntax
