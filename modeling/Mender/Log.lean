import Mender.Fault
import Mender.Json.Value
import Mender.Text.Quote

/-!
# The log of a run

A run tells what it does in entries, each with a level. A `Style` decides which entries are shown and how: as
plain lines for a reader, where errors go to a stream of their own, or as one record an entry.
-/

namespace Mender.Log

variable (s : String)

inductive Level where
  | debug | info | warning | error
  deriving DecidableEq, Repr, Inhabited

def Level.name : Level → String
  | .debug => "DEBUG"
  | .info => "INFO"
  | .warning => "WARNING"
  | .error => "ERROR"

def Level.all : List Level := [.debug, .info, .warning, .error]

def Level.ofName? : Option Level := Level.all.find? (·.name == s)

structure Entry where
  level : Level
  text : String
  deriving DecidableEq, Repr, Inhabited

def section_ (name : String) : Entry := ⟨.info, "\n[" ++ name ++ "]"⟩

def items (level : Level) (head : String) (texts : List String) : List Entry :=
  ⟨level, head ++ ":"⟩ :: texts.map fun t => ⟨level, "  - " ++ t⟩

inductive Format where
  | human | json
  deriving DecidableEq, Repr, Inhabited

def Format.name : Format → String
  | .human => "human"
  | .json => "json"

def Format.ofName? : Option Format := [Format.human, .json].find? (·.name == s)

def Format.ofName : Except Fault Format :=
  (Format.ofName? s).elim (.error (.badValue (Text.quoted s ++ " is not a valid OutputFormat"))) .ok

structure Style where
  format : Format := .human
  isVerbose : Bool := false
  projectName : Option String := none
  deriving DecidableEq, Repr, Inhabited

namespace Style

variable (s : Style) (e : Entry) (log : List Entry)

def shows (l : Level) : Bool := s.isVerbose || l != .debug

def linesOf : List String := Text.pieces '\n' e.text

def lines : List String := (log.filter fun e => s.shows e.level && e.level != .error).flatMap linesOf

def errorLines : List String := (log.filter (·.level == .error)).flatMap linesOf

def record : Json :=
  .obj ([("level", .str e.level.name), ("message", .str e.text)] ++
    match s.projectName with
    | some name => if name.isEmpty then [] else [("project-name", .str name)]
    | none => [])

def records : List Json := (log.filter fun e => s.shows e.level).map s.record

def output : List String :=
  match s.format with
  | .human => s.lines log
  | .json => (s.records log).map (·.render)

end Style

def errors (log : List Entry) : List String := (log.filter (·.level == .error)).map (·.text)

end Mender.Log
