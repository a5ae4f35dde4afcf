import Mender.Text.Sort
import Mender.Version

/-!
# Requirements

A requirement names a package that a project needs, with the versions that will do and, perhaps, extras,
a place to get it from and a condition under which it is needed.
-/

namespace Mender

open Version Text

structure Requirement where
  name : String
  extras : List String := []
  versions : List String := []
  url : Option String := none
  condition : Option String := none
  deriving DecidableEq, Repr, Inhabited

namespace Requirement

/-! ## Writing -/

private def sortTexts (ts : List String) : List String := sortBy (fun a b => decide (a ≤ b)) ts.eraseDups

variable (s v : String) (url : List Char) (r : Requirement) (c : Char) (cs : List Char)

def versionText : String := String.intercalate "," (sortTexts r.versions)

def text : String :=
  let extras := sortTexts r.extras
  r.name ++ (if extras.isEmpty then "" else "[" ++ String.intercalate "," extras ++ "]") ++
    r.versionText ++ r.url.elim "" (fun u => "@ " ++ u ++ if r.condition.isSome then " " else "") ++
    r.condition.elim "" ("; " ++ ·)

/-! ## Comparing -/

def isNameDivider : Bool := c == '-' || c == '_' || c == '.'

def canonicalName (name : String) : String :=
  let runs := name.toList.splitBy fun a b => isNameDivider a == isNameDivider b
  lower (String.ofList (runs.flatMap fun r => if r.all isNameDivider then ['-'] else r))

/-- The operators that conditions on versions begin with, longer ones first. -/
def versionOperators : List String := ["===", "~=", "==", "!=", "<=", ">=", "<", ">"]

def cutOperator : String × String :=
  let op := (versionOperators.find? fun op => v.startsWith op).getD ""
  (op, (v.drop op.length).toString)

def canonicalVersion : String :=
  let (op, number) := cutOperator v
  op ++ canonical number

def sameMembers (as bs : List String) : Bool := as.all bs.contains && bs.all as.contains

/-- Do two requirements ask for the same? Those that do count as one in a set, however their versions are written. -/
def agrees (a b : Requirement) : Bool :=
  canonicalName a.name == canonicalName b.name && sameMembers a.extras b.extras &&
    sameMembers (a.versions.map canonicalVersion) (b.versions.map canonicalVersion) &&
    a.url == b.url && a.condition == b.condition

/-! ## Reading -/

def skipBlanks : List Char := cs.dropWhile fun c => c == ' ' || c == '\t' || c == '\n' || c == '\r'

def identifier? : Option (String × List Char) :=
  let cs := skipBlanks cs
  let run := cs.takeWhile fun c => c.isAlphanum || isNameDivider c
  let word := (run.reverse.dropWhile isNameDivider).reverse
  if word.head?.any Char.isAlphanum then some (String.ofList word, cs.drop word.length) else none

def behind? : Option (List Char) :=
  let cs := skipBlanks cs
  if cs.head? == some c then some cs.tail else none

/-- Names with commas between them, behind the first; `fuel` bounds their number. -/
def moreExtras : Nat → List Char → List String × List Char
  | 0, cs => ([], cs)
  | fuel + 1, cs =>
    match (behind? ',' cs).bind identifier? with
    | some (e, rest) => (moreExtras fuel rest).map (e :: ·) id
    | none => ([], cs)

def extras? : Option (List String × List Char) :=
  match behind? '[' cs with
  | none => some ([], cs)
  | some rest =>
    let (es, rest) := match identifier? rest with
      | some (e, rest) => (moreExtras rest.length rest).map (e :: ·) id
      | none => ([], rest)
    (behind? ']' rest).map (es, ·)

/-- The longest version of two numbers or more at the front of a text, as needed for "compatible with". -/
def compatibleVersion? : Option (List Char) :=
  let start := trimLeft cs
  let cs := match start with
    | 'v' :: rest | 'V' :: rest => rest
    | _ => start
  let cs := match digits cs with
    | (_ :: _, '!' :: rest) => rest
    | _ => cs
  match release? (cs.length + 1) cs with
  | some (_ :: _ :: _, rest) =>
    let lowered := rest.map Char.toLower
    let early := [("a", ""), ("b", ""), ("c", ""), ("rc", ""), ("alpha", ""), ("beta", ""), ("pre", "")]
    let after := fun (m : Option (String × List Char)) (cs : List Char) => (m.map (·.2)).getD cs
    let lowered := after (mark early lowered) lowered
    let lowered := after (lateMark lowered) lowered
    some (after (mark [("dev", "")] lowered) lowered)
  | _ => none

def versionCondition? : Option (String × List Char) :=
  let cs := skipBlanks cs
  let upTo := fun (rest : List Char) =>
    let taken := cs.take (cs.length - rest.length)
    let (op, number) := cutOperator (String.ofList taken)
    some (op ++ trim number, rest)
  match cs with
  | '=' :: '=' :: '=' :: rest =>
    let rest := (trimLeft rest).dropWhile (! isSpace ·)
    if (cs.take (cs.length - rest.length)).contains ',' then none else upTo rest
  | '~' :: '=' :: rest => (compatibleVersion? rest).bind fun r => upTo (rest.drop (rest.length - r.length))
  | _ =>
    let (op, _) := cutOperator (String.ofList cs)
    if op.isEmpty then none
    else
      upTo ((trimLeft (cs.drop op.length)).dropWhile fun c => ! (c == ',' || c == ';' || c == ')' || isSpace c))

def versionConditions? : Nat → List Char → Option (List String × List Char)
  | 0, _ => none
  | fuel + 1, cs => do
    let (v, rest) ← versionCondition? cs
    match behind? ',' rest with
    | some next =>
      let (vs, rest) ← versionConditions? fuel next
      return (v :: vs, rest)
    | none => return ([v], rest)

def versions? : Option (List String × List Char) :=
  match behind? '(' cs with
  | some rest => do
    let (vs, rest) ← versionConditions? rest.length rest
    return (vs, ← behind? ')' rest)
  | none =>
    if (skipBlanks cs).head?.any ("~=!<>".contains ·) then versionConditions? cs.length cs else some ([], cs)

/-! ### Conditions on the environment -/

inductive Condition where
  | compare (s : String)
  | word (s : String)
  | group (parts : List Condition)
  deriving Inhabited

mutual

/-- A condition as text; groups within others get parentheses unless they hold just one part. -/
def Condition.text (outer : Bool) : Condition → String
  | .compare s | .word s => s
  | .group [.group ps] => Condition.text true (.group ps)
  | .group [.compare s] => s
  | .group ps =>
    let inner := " ".intercalate (Condition.texts ps)
    if outer then inner else "(" ++ inner ++ ")"

def Condition.texts : List Condition → List String
  | [] => []
  | c :: cs => Condition.text false c :: Condition.texts cs

end

def environmentNames : List (String × String) :=
  let plain := ["implementation_version", "platform_python_implementation", "implementation_name",
    "python_full_version", "platform_release", "platform_version", "platform_machine", "platform_system",
    "python_version", "sys_platform", "os_name"].map fun n => (n, n)
  plain ++ [("os.name", "os_name"), ("sys.platform", "sys_platform"),
    ("platform.version", "platform_version"), ("platform.machine", "platform_machine"),
    ("platform.python_implementation", "platform_python_implementation"),
    ("python_implementation", "platform_python_implementation"), ("extra", "extra")]

def operand? : Option (String × List Char) :=
  let cs := skipBlanks cs
  word? environmentNames cs <|> do
    let q ← cs.head?.filter fun c => c == '\'' || c == '"'
    let inside := cs.tail.takeWhile fun c => c != q && c != '\n' && c != '\r'
    match cs.drop (inside.length + 1) with
    | d :: rest => if d == q then some ("\"" ++ String.ofList inside ++ "\"", rest) else none
    | [] => none

def comparison? : Option (String × List Char) := do
  let (a, cs) ← operand? cs
  let ops := ["===", "==", ">=", "<=", "!=", "~=", ">", "<", "not in", "in"].map fun o => (o, o)
  let (op, cs) ← word? ops (skipBlanks cs)
  let (b, cs) ← operand? cs
  return (a ++ " " ++ op ++ " " ++ b, cs)

def conditions? : Nat → List Char → Option (List Condition × List Char)
  | 0, _ => none
  | fuel + 1, cs => do
    let (first, rest) ← (comparison? cs).map (Prod.map Condition.compare id) <|> do
      let (parts, rest) ← conditions? fuel (← behind? '(' cs)
      return (Condition.group parts, ← behind? ')' rest)
    match word? [("and", "and"), ("or", "or")] (skipBlanks rest) with
    | some (w, next) =>
      let (parts, rest) ← conditions? fuel next
      return (first :: .word w :: parts, rest)
    | none => return ([first], rest)

def condition? : Option (Option String × List Char) :=
  match behind? ';' cs with
  | none => some (none, cs)
  | some rest => (conditions? (rest.length + 1) rest).map (Prod.map (some <| Condition.text true <| .group ·) id)

/-! ### Places -/

def scheme? : Option (String × List Char) :=
  let run := url.takeWhile fun c => c.isAlphanum || c == '+' || c == '-' || c == '.'
  match run, url.drop run.length with
  | c :: _, ':' :: rest => if c.isAlpha then some (lower (String.ofList run), rest) else none
  | _, _ => none

/-- Is this an address that packages can come from? It needs a scheme and a host; files need none, but their
address must be written in full. -/
def isPlace : Bool :=
  match scheme? url with
  | some (scheme, '/' :: '/' :: rest) =>
    let host := rest.takeWhile fun c => c != '/' && c != '?' && c != '#'
    if scheme == "file" then
      let path := rest.drop host.length
      "file:".toList.isPrefixOf url && path.getLast? != some '?' && path.getLast? != some '#' &&
        ! (host.isEmpty && "//".toList.isPrefixOf path)
    else ! host.isEmpty
  | _ => false

def place? : Option (Option String × List Char) :=
  match behind? '@' cs with
  | none => some (none, cs)
  | some rest =>
    let rest := skipBlanks rest
    let url := rest.takeWhile (· != ' ')
    if isPlace url then some (some (String.ofList url), rest.drop url.length) else none

/-- Leave out conditions on the version that repeat an earlier one. -/
def distinctVersions (vs : List String) : List String :=
  vs.foldl (fun kept v =>
    if kept.any fun w => canonicalVersion w == canonicalVersion v then kept else kept ++ [v]) []

def parse? : Option Requirement := do
  let (name, cs) ← identifier? s.toList
  let (extras, cs) ← extras? cs
  let (url, cs) ← place? cs
  let (versions, cs) ← if url.isSome then some ([], cs) else versions? cs
  let (condition, cs) ← condition? cs
  if (skipBlanks cs).isEmpty then
    return { name, extras := extras.eraseDups, versions := distinctVersions versions, url, condition }
  else none

def parse : Except Fault Requirement := (parse? s).elim (.error .badRequirement) .ok

end Requirement

end Mender
