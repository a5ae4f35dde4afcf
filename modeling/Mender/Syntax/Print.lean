import Mender.Syntax.Layout

/-!
# Writing trees and finding positions

`Node.printer` turns a tree into a writer that follows the layouts. One walk yields both the text
and, for every marked node, its position (`Span`): lines count from 1 and columns, in characters,
from 0.
-/

namespace Mender.Syntax

variable (k : Kind) (own : String)

structure Pos where
  line : Nat
  column : Nat
  deriving DecidableEq, Repr, Inhabited

structure Span where
  start : Pos
  stop : Pos
  deriving DecidableEq, Repr, Inhabited

/-- What writing a node depends on besides the node: the indentation so far, the unit by which a
block is indented and the line end unless a node says otherwise, and what the parent asks for. -/
structure PrintEnv where
  indent : String := ""
  unit : String := "    "
  lineEnd : String := "\n"
  sep : Separator := .none
  after : String := ""
  lead : String := ""

/-- The text written so far, where it ends, and the positions found. -/
structure Cursor where
  text : String := ""
  at_ : Pos := ⟨1, 0⟩
  spans : List (Nat × Span) := []

variable (p : Pos)

/-- Move a position over one character, `prev` being the one before. `\r\n` is one line end. -/
def Pos.step (prev c : Char) : Pos :=
  if c = '\n' then
    if prev = '\r' then p else ⟨p.line + 1, 0⟩
  else if c = '\r' then ⟨p.line + 1, 0⟩
  else ⟨p.line, p.column + 1⟩

def Pos.over (s : String) : Pos := (s.toList.foldl (fun (acc : Pos × Char) c => (acc.1.step acc.2 c, c)) (p, ' ')).1

def Cursor.write (c : Cursor) (s : String) : Cursor :=
  if s.isEmpty then c else { c with text := c.text ++ s, at_ := c.at_.over s }

/-- A writer for one node. It also says which position the node has. -/
abbrev Printer := PrintEnv → Cursor → Span × Cursor

structure PartPrinter where
  kind : Kind
  size : Nat
  print : Printer

/-- Write the parts that a layout names, and remember the position of each part written. -/
structure Progress where
  cursor : Cursor
  seen : List (Slot × Span) := []

namespace Progress

variable (p : Progress)

def lit (s : String) : Progress := { p with cursor := p.cursor.write s }

def put (s : Slot) (part : PartPrinter) (env : PrintEnv) : Progress :=
  if part.kind = .absent ∨ part.kind = .auto then p
  else
    let (span, cursor) := part.print env p.cursor
    if part.kind = .seq ∧ part.size = 0 then { p with cursor := cursor }
    else { cursor := cursor, seen := (s, span) :: p.seen }

end Progress

variable (lookup : Slot → PartPrinter) (env : PrintEnv)

def Piece.write (p : Progress) : Piece → Progress
  | .lit s => p.lit s
  | .own => p.lit own
  | .part s => p.put s (lookup s) { env with sep := .none, after := "", lead := "" }
  | .partFor s t d =>
    let part := lookup s
    if part.kind = .auto then
      if (lookup t).kind = .absent then p else p.lit d
    else p.put s part { env with sep := .none, after := "", lead := "" }
  | .separator s =>
    let part := lookup s
    if part.kind = .auto then p.lit env.after
    else p.put s part { env with sep := .none, after := "", lead := "" }
  | .partOrLead s =>
    let part := lookup s
    if part.kind = .auto then p.lit env.lead
    else p.put s part { env with sep := .none, after := "", lead := "" }
  | .led s lead =>
    let part := lookup s
    if part.kind = .seq then
      (p.lit lead).put s part { env with sep := .none, after := "", lead := "" }
    else p.put s part { env with sep := .none, after := "", lead := lead }
  | .leadOr d => p.lit (if env.lead.isEmpty then d else env.lead)
  | .run s sep => p.put s (lookup s) { env with sep := sep, after := "", lead := "" }
  | .ifEmpty s d => if (lookup s).size = 0 then p.lit d else p
  | .partForRuns s t u d =>
    let part := lookup s
    if part.kind = .auto then
      if (lookup t).size = 0 ∧ (lookup u).size = 0 then p else p.lit d
    else p.put s part { env with sep := .none, after := "", lead := "" }
  | .indent => p.lit env.indent
  | .passLine s =>
    if (lookup s).size = 0 then ((p.lit env.indent).lit "pass").lit env.lineEnd else p

def printRun (members : List PartPrinter) : Printer := fun env cursor =>
  let n := members.length
  let go := members.foldl (fun (acc : Nat × Option Span × Cursor) m =>
    let (span, cursor) := m.print { env with after := env.sep.after acc.1 n, sep := .none } acc.2.2
    let whole := match acc.2.1 with
      | none => span
      | some s => ⟨s.start, span.stop⟩
    (acc.1 + 1, some whole, cursor)) (0, none, cursor)
  (go.2.1.getD ⟨cursor.at_, cursor.at_⟩, go.2.2)

def PartPrinter.absent : PartPrinter := ⟨.absent, 0, fun _ c => (⟨c.at_, c.at_⟩, c)⟩

def partAt (parts : List PartPrinter) (s : Slot) : PartPrinter :=
  match k.slots.idxOf? s with
  | some i => parts.getD i .absent
  | none => .absent

def writePieces (pieces : List Piece) (p : Progress) : Progress :=
  pieces.foldl (fun p piece => piece.write own lookup env p) p

def printNode (mark : Option Nat) (parts : List PartPrinter) : Printer := fun env cursor =>
  let layout := Layout.of k
  let own :=
    if k = .newline ∧ own.isEmpty then env.lineEnd
    else if k = .notEqual ∧ own.isEmpty then "!="
    else own
  let lookup := partAt k parts
  let inner :=
    if k = .indentedBlock then
      { env with indent := env.indent ++ if own.isEmpty then env.unit else own }
    else env
  let p := writePieces own lookup env layout.before { cursor := cursor }
  let start := p.cursor.at_
  let p := writePieces own lookup inner layout.core p
  let stop := p.cursor.at_
  let find := fun s => (p.seen.find? fun e => e.1 = s).map Prod.snd
  let start := match layout.from?.bind find with
    | some span => span.start
    | none => start
  let stop := match layout.upto.findSome? find with
    | some span => span.stop
    | none => stop
  let span : Span := ⟨start, stop⟩
  let p := writePieces own lookup inner layout.after p
  let cursor := match mark with
    | some m => { p.cursor with spans := (m, span) :: p.cursor.spans }
    | none => p.cursor
  (span, cursor)

namespace Node

variable (n : Node)

mutual

def printer : Node → Printer
  | .mk .seq _ ps _ => printRun (printers ps)
  | .mk k t ps m => printNode k t m (printers ps)

def printers : List Node → List PartPrinter
  | [] => []
  | .mk k t ps m :: rest => ⟨k, ps.length, printer (.mk k t ps m)⟩ :: printers rest

end

def printEnv : PrintEnv :=
  if n.kind = .module then { unit := (n.get .unit).text, lineEnd := (n.get .lineEnd).text } else {}

def dropLineEnd (s : String) : String :=
  match s.toList.reverse with
  | '\n' :: '\r' :: rest => String.ofList rest.reverse
  | '\n' :: rest => String.ofList rest.reverse
  | '\r' :: rest => String.ofList rest.reverse
  | _ => s

/-- The text of a tree. A module ends in a line end only if it is to: its last line end is taken
away otherwise, and an empty module that is to have one is a single empty line. -/
def code : String :=
  let env := n.printEnv
  let text := (n.printer env {}).2.text
  if n.kind = .module then
    if (n.get .ending).text.isEmpty then dropLineEnd text
    else if text.isEmpty then env.lineEnd else text
  else text

def spans : Array Span :=
  let found := (n.printer n.printEnv {}).2.spans
  found.foldl (fun acc e => acc.setIfInBounds e.1 e.2)
    (Array.replicate n.count ⟨⟨1, 0⟩, ⟨1, 0⟩⟩)

end Node

end Mender.Syntax
