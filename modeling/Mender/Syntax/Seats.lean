import Mender.Edit.Frames
import Mender.Syntax.Layout

/-!
# Where statements may stand

Statements stand in blocks, and what is inside of statements is of other kinds. The places of a node for statements are
its seats.

* `isInner` — the kinds of expressions and all that belongs to them;
* `Node.isSettled` — statements stand in seats and nowhere else, and calls and assignments are written with all their
  sides.
-/

namespace Mender.Syntax

open Edit (isFrame isStatement isBlockPlace isRunPlace standing)

variable (k : Kind)

def isInner : Bool := ! isFrame k && ! isStatement k

def isImport : Bool := k == .importStatement || k == .importFrom

def isQuiet : Bool := isInner k && k != .call

namespace Node

variable (n : Node) (k : Kind)

def isSeat (s : Slot) : Bool := isFrame k && isBlockPlace s

mutual

def isMadeOf (p : Kind → Bool) : Node → Bool
  | .mk k _ ps _ => p k && areMadeOf p ps

def areMadeOf (p : Kind → Bool) : List Node → Bool
  | [] => true
  | n :: ns => isMadeOf p n && areMadeOf p ns

end

def besides : Kind → Bool := if isImport k then isQuiet else isInner

/-- Does the node have all its parts, rows of statements where they should be, imports in rows only, and no statements
beside its seats? -/
def isTidy : Bool :=
  ! isInner n.kind && n.parts.length == n.kind.shape.length && n.parts.all (! isImport ·.kind) &&
    n.kind.shape.all fun (s, f) =>
      if isSeat n.kind s then isRunPlace f == ((n.get s).kind == .seq) else isMadeOf (besides n.kind) (n.get s)

/-- Is something of the node written, as far as so many levels of it show? -/
def isWritten : Nat → Node → Bool
  | 0, _ => false
  | depth + 1, n =>
    if n.kind == .seq then n.parts.any (isWritten depth)
    else (Layout.of n.kind).pieces.any fun
      | .lit s => ! s.isEmpty
      | .own => ! n.text.isEmpty
      | .part s | .run s _ => isWritten depth (n.get s)
      | _ => false

/-- Is something written of what a call calls, and on all sides of an assignment? And are the words of a module words? -/
def isFirm : Bool :=
  match n.kind with
  | .call => isWritten 10 (n.get .func)
  | .assign =>
    isWritten 10 (n.get .value) && ! (n.list .targets).isEmpty &&
      (n.list .targets).all fun t => t.kind == .assignTarget && isWritten 10 (t.get .target)
  | .module => [.unit, .lineEnd, .ending].all fun s => (n.get s).kind == .word
  | _ => true

/-- What the reader makes sure of in a tree before it hands it out. -/
def isSettled : Bool := (standing n).all isTidy && n.nodes.all isFirm

end Node

end Mender.Syntax
