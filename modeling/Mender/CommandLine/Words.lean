import Mender.Fault
import Mender.Text.Quote

/-!
# The words of a command line

A command line is a list of words. Some are options, which may be shortened as long as it is clear which one is
meant, and which may have a value attached or behind them. One word that is no option is the operand. `read`
turns the words into the events that they cause, in order. A word that could be several options is refused
before anything else is done.
-/

namespace Mender.CommandLine

open String

structure Flag where
  names : List String
  takesValue : Bool
  deriving DecidableEq, Repr, Inhabited

variable (f : Flag)

def Flag.label : String := intercalate "/" f.names

inductive Word where
  | plain (s : String)
  /-- the mark behind which no word is an option -/
  | divider
  | flag (f : Flag) (spelling : String) (attached : Option String)
  /-- an option that there is not -/
  | unknown (s : String)
  deriving DecidableEq, Repr, Inhabited

inductive Event where
  | set (f : Flag) (spelling : String) (value : Option String)
  | operand (s : String)
  | extra (s : String)
  /-- the words cannot be understood from here on -/
  | problem (message : String)
  | fault (f : Fault)
  deriving Inhabited

/-! ## Telling words apart -/

variable (flags : List Flag) (s : String)

def spellings : List (String × Flag) := flags.flatMap fun f => f.names.map fun n => (n, f)

def flagNamed? : Option Flag := ((spellings flags).find? (·.1 == s)).map (·.2)

def cutValue : String × Option String :=
  let cs := s.toList
  match cs.dropWhile (· != '=') with
  | _ :: value => (ofList (cs.takeWhile (· != '=')), some (ofList value))
  | [] => (s, none)

def isNegative : Bool :=
  match s.toList with
  | '-' :: cs =>
    let fraction := (cs.dropWhile isDigit).drop 1
    (! cs.isEmpty && cs.all isDigit) ||
      ((cs.dropWhile isDigit).head? == some '.' && ! fraction.isEmpty && fraction.all isDigit)
  | _ => false
where
  isDigit (c : Char) : Bool := (Text.decimalValue? c).isSome

/-- The options that a shortened word can mean, with the value attached to it. A word with one dash is the
spelling of one letter, and what follows is attached. -/
def candidates : List Word :=
  if s.startsWith "--" then
    let (start, value) := cutValue s
    ((spellings flags).filter fun (n, _) => n.startsWith start).map fun (n, f) => .flag f n value
  else
    let short := ofList (s.toList.take 2)
    let rest := ofList (s.toList.drop 2)
    ((spellings flags).filter fun (n, _) => n == short).map fun (n, f) => .flag f n (some rest)

def Word.spelling : Word → String
  | .flag _ n _ => n
  | .plain s | .unknown s => s
  | .divider => "--"

def classify : Except String Word :=
  if ! s.startsWith "-" then .ok (.plain s)
  else match flagNamed? flags s with
  | some f => .ok (.flag f s none)
  | none =>
    if s == "-" then .ok (.plain s)
    else
      let (start, value) := cutValue s
      match value, flagNamed? flags start with
      | some v, some f => .ok (.flag f start (some v))
      | _, _ =>
        match candidates flags s with
        | [w] => .ok w
        | [] => .ok (if isNegative s || s.contains ' ' then .plain s else .unknown s)
        | ws => .error ("ambiguous option: " ++ s ++ " could match " ++ intercalate ", " (ws.map (·.spelling)))

def classifyAll (flags : List Flag) : List String → Except String (List Word)
  | [] => .ok []
  | "--" :: rest => .ok (.divider :: rest.map .plain)
  | s :: rest => do return (← classify flags s) :: (← classifyAll flags rest)

/-! ## What the words cause -/

def about (message : String) : Event := .problem ("argument " ++ f.label ++ ": " ++ message)

/-- An attached text that the option does not take. Options of one letter may stand behind one another. -/
def attachedTo (f : Flag) (spelling value : String) : List Event :=
  let ignored := fun (f : Flag) (v : List Char) => [about f ("ignored explicit argument " ++ Text.quoted (ofList v))]
  let rec letters (f : Flag) (spelling : String) : List Char → List Event
    | [] => [.set f spelling none]
    | c :: cs =>
      let next := ofList ['-', c]
      match flagNamed? flags next with
      | some g =>
        match letters g next cs with
        | .problem m :: _ => [.problem m]
        | es => .set f spelling none :: es
      | none => ignored f (c :: cs)
  if spelling.startsWith "--" || value.isEmpty then ignored f value.toList else letters f spelling value.toList

def valued (spelling value : String) : Event :=
  if value == "--" then .fault (.badValue "not enough values to unpack (expected 1, got 0)")
  else .set f spelling (some value)

def events (flags : List Flag) : Bool → List Word → List Event
  | _, [] => []
  | wanted, .unknown s :: ws => .extra s :: events flags wanted ws
  | wanted, .flag f n (some v) :: ws =>
    (if f.takesValue then [valued f n v] else attachedTo flags f n v) ++ events flags wanted ws
  | wanted, .flag f n none :: ws =>
    if f.takesValue then
      match ws with
      | .plain v :: ws => .set f n (some v) :: events flags wanted ws
      | _ => [about f "expected one argument"]
    else .set f n none :: events flags wanted ws
  | true, .plain s :: .divider :: ws => .operand s :: events flags false ws
  | true, .plain s :: ws => .operand s :: events flags false ws
  | true, .divider :: .plain s :: ws => .operand s :: events flags false ws
  | false, .plain s :: ws => .extra s :: events flags false ws
  | wanted, .divider :: ws => .extra "--" :: events flags wanted ws

def read (words : List String) : Except String (List Event) := (events flags true) <$> classifyAll flags words

end Mender.CommandLine
