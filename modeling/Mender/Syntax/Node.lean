import Mender.Syntax.Kind

/-!
# Syntax trees

`Node` is the one tree type of the library: a kind, the characters the node itself owns, its parts
in the order of `Kind.shape`, and a mark. The mark is the number of the node in the module it was
read from. A node keeps it for as long as it is carried around whole; a node that an edit builds or
rebuilds has none. What is known about a module (positions, scopes, parents) is known by mark, so
an edited tree never answers with facts about the text before the edit.
-/

namespace Mender.Syntax

inductive Node where
  | mk (kind : Kind) (text : String) (parts : List Node) (mark : Option Nat)
  deriving Inhabited

namespace Node

variable (k : Kind)

def kind : Node → Kind
  | .mk k _ _ _ => k

def text : Node → String
  | .mk _ t _ _ => t

def parts : Node → List Node
  | .mk _ _ ps _ => ps

def mark : Node → Option Nat
  | .mk _ _ _ m => m

def absent : Node := .mk .absent "" [] none

def auto : Node := .mk .auto "" [] none

def seq (items : List Node) : Node := .mk .seq "" items none

def word (s : String) : Node := .mk .word s [] none

def indentation : Node := .mk .indentation "" [] none

def leaf (s : String) : Node := .mk k s [] none

def blank (s : String) : Node := leaf .whitespace s

variable (n : Node) (changes : List (Slot × Node)) (s : Slot)

def isPresent : Bool := n.kind != .absent && n.kind != .auto

def items : List Node := if n.kind = .seq then n.parts else []

/-- The part at a place, absent if there is none. -/
def get : Node :=
  match n.kind.slots.idxOf? s with
  | some i => n.parts.getD i absent
  | none => absent

def has : Bool := n.kind.slots.contains s

/-- The members of a run. -/
def list : List Node := (n.get s).items

def unmarked : Node → Node
  | .mk k t ps _ => .mk k t ps none

/-- The node with another part at a place, without its mark. -/
def set (n : Node) (s : Slot) (part : Node) : Node :=
  match n.kind.slots.idxOf? s with
  | some i => .mk n.kind n.text (n.parts.set i part) none
  | none => n.unmarked

def setList (items : List Node) : Node := n.set s (seq items)

def setAll : Node := changes.foldl (fun n c => n.set c.1 c.2) n.unmarked

def withText (s : String) : Node := .mk n.kind s n.parts none

/-- A node of kind `k` with nothing but defaults; `depth` bounds how deep defaults are built. -/
def freshTo : Nat → Kind → Node
  | 0, k => .mk k "" [] none
  | depth + 1, k =>
    .mk k "" (k.shape.map fun place =>
      match place.2 with
      | .needed | .absent => absent
      | .auto => auto
      | .none | .body => seq []
      | .tight => blank ""
      | .space => blank " "
      | .one k' => freshTo depth k'
      | .single k' => seq [freshTo depth k']
      | .word s => word s) none

def fresh : Node := freshTo 4 k

def make (text : String := "") : Node := ((fresh k).withText text).setAll changes

/-! ## Comparing trees -/

mutual

/-- Two trees are the same when they have the same kinds and characters throughout. Marks do not
count. -/
def same : Node → Node → Bool
  | .mk k t ps _, .mk k' t' ps' _ => k == k' && t == t' && sameList ps ps'

def sameList : List Node → List Node → Bool
  | [], [] => true
  | p :: ps, q :: qs => same p q && sameList ps qs
  | _, _ => false

end

def identical (a b : Node) : Bool :=
  match a.mark, b.mark with
  | some i, some j => i == j
  | _, _ => false

/-! ## Numbering -/

mutual

/-- Number the nodes of a tree from `next` on, a node before its parts. Fillers get no number. -/
def number : Node → Nat → Node × Nat
  | .mk k t ps _, next =>
    if k.isFiller then
      let (ps', next') := numberList ps next
      (.mk k t ps' none, next')
    else
      let (ps', next') := numberList ps (next + 1)
      (.mk k t ps' (some next), next')

def numberList : List Node → Nat → List Node × Nat
  | [], next => ([], next)
  | p :: ps, next =>
    let (p', next') := number p next
    let (ps', next'') := numberList ps next'
    (p' :: ps', next'')

end

/-- Give each node its mark. -/
def numbered : Node := (number n 0).1

def count : Nat := (number n 0).2

mutual

/-- Take all marks away. -/
def cleared : Node → Node
  | .mk k t ps _ => .mk k t (clearedList ps) none

def clearedList : List Node → List Node
  | [] => []
  | p :: ps => cleared p :: clearedList ps

end

/-! ## Visiting -/

mutual

/-- The nodes of a tree, a node before its parts, fillers left out. -/
def nodes : Node → List Node
  | .mk k t ps m =>
    if k.isFiller then nodesOf ps else .mk k t ps m :: nodesOf ps

def nodesOf : List Node → List Node
  | [] => []
  | p :: ps => nodes p ++ nodesOf ps

end

mutual

def nodesAfter : Node → List Node
  | .mk k t ps m =>
    if k.isFiller then nodesAfterOf ps else nodesAfterOf ps ++ [.mk k t ps m]

def nodesAfterOf : List Node → List Node
  | [] => []
  | p :: ps => nodesAfter p ++ nodesAfterOf ps

end

/-- The nodes directly below a node, runs opened up. -/
def children : List Node :=
  n.parts.flatMap fun p =>
    if p.kind == .seq then p.parts.filter (! ·.kind.isFiller)
    else if p.kind.isFiller then [] else [p]

end Node

end Mender.Syntax
