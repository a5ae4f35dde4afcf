import Mender.Fault
import Mender.Syntax.Assemble

/-!
# What can be written down

Not every tree is the tree of a text. Two words need a blank between them, the arguments of a call
have an order, a name has at least one character. `Node.flaw?` finds what is wrong with a node whose
parts are in order themselves; it is asked whenever an edit has rebuilt a node, and for all nodes of a
tree that was read (`Node.whole?`).

An expression may stand right beside a keyword if it begins (on the right side of the word) or ends
(on its left side) with a mark: `Node.besideWord`.
-/

namespace Mender.Syntax.Node

variable (n : Node)

inductive Side where
  | left | right
  deriving DecidableEq, Repr

def isParenthesized : Bool := ! (n.list .lpar).isEmpty && ! (n.list .rpar).isEmpty

/-- Has the blank no characters at all? A blank over several lines is never empty. -/
def isEmptyBlank : Bool := n.kind == .whitespace && n.text.isEmpty

/-- The part with which an expression ends on this side of a keyword. -/
def edge? : Kind → Side → Option Slot
  | .call, .right => some .func
  | .subscript, .right | .member, .right => some .value
  | .concatenatedString, .left | .binaryOperation, .left | .booleanOperation, .left => some .right
  | .concatenatedString, .right | .binaryOperation, .right | .booleanOperation, .right | .comparison, .right => some .left
  | .unaryOperation, .left => some .expression
  | .ifExp, .left => some .orelse
  | .ifExp, .right | .lambda, .left => some .body
  | _, _ => none

/-- May the expression stand on this side of a keyword with no blank between? `depth` bounds how
deep its first or last operand is looked for. -/
def besideWordTo : Nat → Side → Node → Bool
  | 0, _, _ => false
  | depth + 1, side, n =>
    n.isParenthesized ||
    match n.kind, side with
    | .list, _ | .listComp, _ | .set, _ | .setComp, _ | .dict, _ | .dictComp, _ | .ellipsis, _ => true
    | .integer, .left | .float, .left | .imaginary, .left | .call, .left | .subscript, .left | .simpleString, .left
    | .formattedString, .left => true
    | .simpleString, .right | .formattedString, .right => (Assemble.literalMark n).isEmpty
    | .unaryOperation, .right => (n.get .operator).kind != .logicalNot
    | .comparison, .left => (n.list .comparisons).getLast?.any fun last => besideWordTo depth .left (last.get .comparator)
    | .tuple, .left => (n.list .elements).getLast?.any fun last =>
      (last.get .comma).kind == .comma || besideWordTo depth .left (last.get .value)
    | .tuple, .right => (n.list .elements).head?.any fun first =>
      first.kind == .starredElement || besideWordTo depth .right (first.get .value)
    | k, _ => (edge? k side).any fun s => besideWordTo depth side (n.get s)

def depth : Node → Nat
  | .mk _ _ ps _ => depthOf ps + 1
where
  depthOf : List Node → Nat
    | [] => 0
    | p :: ps => max (depth p) (depthOf ps)

/-- May the expression stand on this side of a keyword with no blank between? -/
def besideWord (side : Side) (n : Node) : Bool :=
  -- most expressions are decided at once, without measuring them
  besideWordTo 1 side n || besideWordTo (n.depth + 1) side n

def sticksRight (gap e : Node) : Bool := gap.isEmptyBlank && ! e.besideWord .right

def sticksLeft (gap e : Node) : Bool := gap.isEmptyBlank && ! e.besideWord .left

/-- Is there no space on this side of a keyword, or of what else is told by the end of the message? -/
def spaceAfter (gap e : Node) (what : String) : Bool × String :=
  (sticksRight gap e, "Must have at least one space after " ++ what)

def spaceBefore (gap e : Node) (what : String) : Bool × String :=
  (sticksLeft gap e, "Must have at least one space before " ++ what)

def argumentFlaws : Bool → Bool → List Node → List (Bool × String)
  | _, _, [] => []
  | keyword, spread, a :: rest =>
    if a.text == "**" then argumentFlaws keyword true rest
    else if a.text == "*" then
      (spread, "Cannot have iterable argument unpacking after keyword argument unpacking.") ::
        argumentFlaws keyword spread rest
    else if (a.get .keyword).isPresent then argumentFlaws true spread rest
    else
      (spread, "Cannot have positional argument after keyword argument unpacking.") ::
        (keyword, "Cannot have positional argument after keyword argument.") :: argumentFlaws keyword spread rest

def beforeLoop (elt loop : Node) : Bool × String :=
  spaceBefore (loop.get .before) elt
    (if (loop.get .asynchronous).isPresent then "'async' keyword." else "'for' keyword.")

/-- Flaws of the conditions and of the inner loop of a comprehension, behind an expression. -/
def conditionFlaws (inner : Node) : Node → List Node → List (Bool × String)
  | prev, [] => if inner.isPresent then [beforeLoop prev inner] else []
  | prev, c :: cs => spaceBefore (c.get .before) prev "'if' keyword." :: conditionFlaws inner (c.get .test) cs

def isWordOperator (op : Node) : Bool := [Kind.within, .notWithin, .identical, .notIdentical].contains op.kind

def aroundComparison (sticks : Bool) : Bool × String := (sticks, "Must have at least one space around comparison operator.")

def comparisonsFlaw : Node → List Node → Bool
  | _, [] => false
  | prev, c :: cs =>
    let op := c.get .operator
    (isWordOperator op && sticksLeft (op.get .before) prev) || comparisonsFlaw (c.get .comparator) cs

def endsInComma (ns : List Node) : Bool := ns.getLast?.any fun n => (n.get .comma).kind == .comma

def forFlaws : List (Bool × String) :=
  [spaceAfter (n.get .afterKeyword) (n.get .target) "'for' keyword.",
    spaceBefore (n.get .beforeIn) (n.get .target) "'in' keyword.",
    spaceAfter (n.get .afterIn) (n.get .iter) "'in' keyword."]

/-- What can be wrong with a node, its parts being in order, and whether it is. -/
def flaws : List (Bool × String) :=
  match n.kind with
  | .name => [(n.text.isEmpty, "Cannot have empty name identifier.")]
  | .arg =>
    [(! (n.get .keyword).isPresent && (n.get .equal).kind == .assignEqual,
        "Must have a keyword when specifying an AssignEqual."),
      (! n.text.isEmpty && (n.get .keyword).isPresent, "Cannot specify a star and a keyword together.")]
  | .call => argumentFlaws false false (n.list .args)
  | .unaryOperation =>
    let op := n.get .operator
    if op.kind == .logicalNot then [spaceAfter (op.get .after) (n.get .expression) "not operator."] else []
  | .booleanOperation =>
    let op := n.get .operator
    [(sticksLeft (op.get .before) (n.get .left) || sticksRight (op.get .after) (n.get .right),
      "Must have at least one space around boolean operator.")]
  | .comparison =>
    [((n.list .comparisons).isEmpty, "Must have at least one ComparisonTarget."),
      aroundComparison (comparisonsFlaw (n.get .left) (n.list .comparisons))]
  | .comparisonTarget =>
    let op := n.get .operator
    [aroundComparison (isWordOperator op && sticksRight (op.get .after) (n.get .comparator))]
  | .ifExp =>
    [spaceBefore (n.get .beforeIf) (n.get .body) "'if' keyword.", spaceAfter (n.get .afterIf) (n.get .test) "'if' keyword.",
      spaceBefore (n.get .beforeElse) (n.get .test) "'else' keyword.",
      spaceAfter (n.get .afterElse) (n.get .orelse) "'else' keyword."]
  | .yield =>
    let value := n.get .value
    if value.isPresent && value.kind != .yieldFrom then [spaceAfter (n.get .afterKeyword) value "'yield' keyword."]
    else []
  | .yieldFrom => [spaceAfter (n.get .afterFrom) (n.get .item) "'from' keyword."]
  | .await => [spaceAfter (n.get .afterKeyword) (n.get .expression) "await"]
  | .listComp | .setComp | .generatorExp => [beforeLoop (n.get .elt) (n.get .forIn)]
  | .dictComp => [beforeLoop (n.get .value) (n.get .forIn)]
  | .compFor => n.forFlaws ++ conditionFlaws (n.get .innerFor) (n.get .iter) (n.list .ifs)
  | .compIf | .ifStatement => [spaceAfter (n.get .beforeTest) (n.get .test) "'if' keyword."]
  | .tuple => [((n.list .elements).isEmpty && (n.list .lpar).isEmpty, "A zero-length tuple must be wrapped in parentheses.")]
  | .set =>
    [((n.list .elements).isEmpty, "A literal set must have at least one element. A zero-element set would be " ++
      "syntactically ambiguous with an empty dict, `\x7b\x7d`.")]
  | .del => [spaceAfter (n.get .afterKeyword) (n.get .target) "'del'."]
  | .assert =>
    [spaceAfter (n.get .afterKeyword) (n.get .test) "'assert'.",
      ((n.get .comma).kind == .comma && ! (n.get .msg).isPresent, "Cannot have trailing comma after 'test'.")]
  | .returnStatement =>
    if (n.get .value).isPresent then [spaceAfter (n.get .afterKeyword) (n.get .value) "'return'."] else []
  | .raise =>
    let exc := n.get .exc
    let cause := n.get .cause
    if ! exc.isPresent then [(cause.isPresent, "Must have an 'exc' when specifying 'clause'. on Raise.")]
    else spaceAfter (n.get .afterKeyword) exc "'raise'." ::
      if cause.isPresent then [spaceBefore (cause.get .beforeFrom) exc "'from'."] else []
  | .whileLoop => [spaceAfter (n.get .afterKeyword) (n.get .test) "'while' keyword."]
  | .forLoop => n.forFlaws
  | .withStatement =>
    match n.list .items with
    | [] => [(true, "A With statement must have at least one WithItem.")]
    | first :: _ =>
      [(endsInComma (n.list .items), "The last WithItem in a With cannot have a trailing comma."),
        spaceAfter (n.get .afterKeyword) (first.get .item) "with keyword."]
  | .exceptHandler =>
    if (n.get .type).isPresent then
      [spaceAfter (n.get .afterKeyword) (n.get .type) "except when ExceptHandler has a type."]
    else []
  | .importStatement =>
    [((n.list .names).isEmpty, "An ImportStatement must have at least one ImportAlias"),
      (endsInComma (n.list .names), "An ImportStatement does not allow a trailing comma"),
      ((n.get .afterKeyword).isEmptyBlank, "Must have at least one space after import.")]
  | .importFrom =>
    [((n.list .relative).isEmpty && ! (n.get .module).isPresent,
        "Must have a module specified if there is no relative import."),
      ((n.get .names).kind != .importStar && (n.list .names).isEmpty, "An ImportFrom must have at least one ImportAlias")]
  | .global => [((n.list .names).isEmpty, "A Global statement must have at least one NameItem.")]
  | .nonlocal => [((n.list .names).isEmpty, "A Nonlocal statement must have at least one NameItem.")]
  | .assign => [((n.list .targets).isEmpty, "An Assign statement must have at least one AssignTarget")]
  | .annAssign =>
    [(! (n.get .value).isPresent && (n.get .equal).kind == .assignEqual,
      "Must have a value when specifying an AssignEqual.")]
  | .subscript => [((n.list .slice).isEmpty, "Cannot have empty SubscriptElement.")]
  | _ => []

/-- What is wrong with a node, if anything is, its parts being in order. -/
def flaw? : Option String := (n.flaws.find? (·.1)).map (·.2)

def sound : Except Fault Node :=
  match n.flaw? with
  | some why => .error (.malformed why)
  | none => .ok n

/-- The tree itself, if all of it can be written down. -/
def whole? : Option Node := if n.nodes.all (·.flaw?.isNone) then some n else none

end Mender.Syntax.Node
