import Mender.Syntax.Check

/-!
# Editing trees

An edit of a whole tree is a `Pass`: what to do on the way down (`enter`, which may also tell to stay
out of a node) and what to make of each node on the way up (`leave`, which sees the node before and
after its parts were edited). A node may be kept, dropped, or replaced by several.

Every node that is walked through is rebuilt, so it loses its mark, and it is checked again. A node
that the pass stays out of is carried over whole, mark and all.

What happens to a place whose node is dropped follows from the place's `Fill`: optional places become
empty, places of the printer are given back to it, runs get shorter, and needed places cannot do
without. A run of statements also loses the lines of which all statements were dropped.
-/

namespace Mender.Syntax

/-- What becomes of a node. -/
inductive Edit where
  | keep (n : Node)
  | drop
  | splice (ns : List Node)
  deriving Inhabited

abbrev Step (σ : Type) := StateT σ (Except Fault)

/-- What to do at each node of a tree, on the way down and on the way up. -/
structure Pass (σ : Type) where
  /-- on the way down; the answer tells whether to go into the node -/
  enter : Node → Step σ Bool := fun _ => pure true
  /-- on the way up: the node before and after its parts were edited -/
  leave : Node → Node → Step σ Edit := fun _ new => pure (.keep new)

def Node.isSpentLine (n : Node) : Bool :=
  (n.kind == .simpleStatementLine || n.kind == .simpleStatementSuite) && (n.list .body).isEmpty

/-- What goes into a place that holds one node. -/
def Fill.put (f : Fill) : Edit → Except Fault Node
  | .keep n => .ok n
  | .drop =>
    match f with
    | .absent => .ok Node.absent
    | .auto => .ok Node.auto
    | _ => .error .misfit
  | .splice _ => .error .misfit

def Edit.members (isBody : Bool) (old : Node) : Edit → List Node
  | .keep n => if isBody && n.isSpentLine && ! old.isSpentLine then [] else [n]
  | .drop => []
  | .splice ns => ns.filter fun n => ! (isBody && n.isSpentLine && ! old.isSpentLine)

namespace Pass

variable {σ : Type}

mutual

def edit (p : Pass σ) : Node → Step σ Edit
  | .mk k t ps m => do
    if ← p.enter (.mk k t ps m) then
      let ps' ← editParts p (k.shape.map Prod.snd) ps
      let new ← (Node.mk k t ps' none).sound
      p.leave (.mk k t ps m) new
    else p.leave (.mk k t ps m) (.mk k t ps m)

def editParts (p : Pass σ) : List Fill → List Node → Step σ (List Node)
  | f :: fs, .mk k t ps m :: rest => do
    let part ←
      if k == .seq then do
        let ps' ← editRun p (f == .body) ps
        pure (.mk k t ps' m)
      else if k.isFiller then pure (.mk k t ps m)
      else do
        let e ← edit p (.mk k t ps m)
        f.put e
    let rest' ← editParts p fs rest
    pure (part :: rest')
  | _, rest => pure rest

def editRun (p : Pass σ) (isBody : Bool) : List Node → Step σ (List Node)
  | [] => pure []
  | n :: rest => do
    let e ← edit p n
    let rest' ← editRun p isBody rest
    pure (e.members isBody n ++ rest')

end

def run (p : Pass σ) (n : Node) (s : σ) : Except Fault (Node × σ) := do
  match ← (p.edit n).run s with
  | (.keep n', s') => .ok (n', s')
  | _ => .error .misfit

/-- Edit a tree when no state is of interest. -/
def apply (p : Pass Unit) (n : Node) : Except Fault Node := do
  let (n', _) ← p.run n ()
  .ok n'

end Pass

namespace Node

variable {σ : Type}

mutual

/-- Look at a tree: `enter` on the way down, which may stay out of a node, `leave` on the way up. -/
def visit (enter : Node → σ → σ × Bool) (leave : Node → σ → σ) : Node → σ → σ
  | .mk k t ps m, s =>
    if k.isFiller then visitAll enter leave ps s
    else
      let (s, into) := enter (.mk k t ps m) s
      let s := if into then visitAll enter leave ps s else s
      leave (.mk k t ps m) s

def visitAll (enter : Node → σ → σ × Bool) (leave : Node → σ → σ) : List Node → σ → σ
  | [], s => s
  | p :: ps, s => visitAll enter leave ps (visit enter leave p s)

end

end Node

end Mender.Syntax
