import Mender.Text.Number

/-!
# Differences between texts

Two lists of lines are compared by looking for the longest run of lines that they share, and then for
others to the left and to the right of it. What is not shared was deleted, inserted or replaced. The
result is written as a unified diff: groups of differences with three lines around them.

Lines that occur very often in a long text are not used to find a run, only to extend one.
-/

namespace Mender.Diff

variable (n : Nat)

/-- A run of `size` lines that stands at `first` in one list and at `second` in the other. -/
structure Block where
  first : Nat
  second : Nat
  size : Nat
  deriving DecidableEq, Repr, Inhabited

section Matching

variable {α : Type} [BEq α]

/-- For each place of the second list, how long a run ends there and at `x` in the first list; `prior`
holds the same for the place before `x`, and `diagonal` the number for the place before. -/
def runLengths (x : α) : Nat → List (α × Bool) → List Nat → List Nat
  | diagonal, (y, usable) :: ys, p :: ps => (if usable && x == y then diagonal + 1 else 0) :: runLengths x p ys ps
  | _, _, _ => []

/-- Take the first longest run that ends at place `i` of the first list, if it beats the best one. -/
def betterRun (i : Nat) : Nat → List Nat → Block → Block
  | _, [], best => best
  | j, k :: ks, best => betterRun i (j + 1) ks (if best.size < k then ⟨i + 1 - k, j + 1 - k, k⟩ else best)

def longestRun (i : Nat) (bs : List (α × Bool)) : List α → List Nat → Block → Block
  | [], _, best => best
  | x :: xs, prior, best =>
    let now := runLengths x 0 bs prior
    longestRun (i + 1) bs xs now (betterRun i 0 now best)

def agreement : List α → List α → Nat
  | x :: xs, y :: ys => if x == y then agreement xs ys + 1 else 0
  | _, _ => 0

/-- The longest shared run, extended at both ends by lines that are not usable for finding it. -/
def longestBlock (as : List α) (bs : List (α × Bool)) : Block :=
  let best := longestRun 0 bs as (List.replicate bs.length 0) ⟨0, 0, 0⟩
  let lines := bs.map (·.1)
  let before := agreement (as.take best.first).reverse (lines.take best.second).reverse
  let after := agreement (as.drop (best.first + best.size)) (lines.drop (best.second + best.size))
  ⟨best.first - before, best.second - before, before + best.size + after⟩

/-- The shared runs of two lists in order; `i` and `j` are added to their places and `fuel` bounds how
often the lists are divided. -/
def blocksTo : Nat → Nat → Nat → List α → List (α × Bool) → List Block
  | 0, _, _, _, _ => []
  | fuel + 1, i, j, as, bs =>
    let b := longestBlock as bs
    if b.size == 0 then []
    else
      blocksTo fuel i j (as.take b.first) (bs.take b.second) ++ ⟨i + b.first, j + b.second, b.size⟩ ::
        blocksTo fuel (i + b.first + b.size) (j + b.second + b.size)
          (as.drop (b.first + b.size)) (bs.drop (b.second + b.size))

/-- The lines of a list, each with the mark whether it may be used to find a run. In lists of 200 lines
or more, lines that make up more than a hundredth may not. -/
def usable (bs : List α) : List (α × Bool) :=
  let n := bs.length
  if n < 200 then bs.map fun b => (b, true)
  else bs.map fun b => (b, decide (bs.count b ≤ n / 100 + 1))

def joinBlocks : List Block → List Block
  | [] => []
  | b :: rest =>
    match joinBlocks rest with
    | c :: more =>
      if b.first + b.size == c.first && b.second + b.size == c.second then
        ⟨b.first, b.second, b.size + c.size⟩ :: more
      else b :: c :: more
    | [] => [b]

def matchingBlocks (as bs : List α) : List Block := joinBlocks (blocksTo (as.length + 1) 0 0 as (usable bs))

end Matching

/-! ## Operations -/

inductive Tag where
  | equal | replace | delete | insert
  deriving DecidableEq, Repr, Inhabited

/-- A stretch `from1 .. to1` of the first list that corresponds to `from2 .. to2` of the second. -/
structure Op where
  tag : Tag
  from1 : Nat
  to1 : Nat
  from2 : Nat
  to2 : Nat
  deriving DecidableEq, Repr, Inhabited

/-- The stretch between two shared runs, if there is anything. -/
def gap (i ai j bj : Nat) : List Op :=
  if i < ai && j < bj then [⟨.replace, i, ai, j, bj⟩]
  else if i < ai then [⟨.delete, i, ai, j, bj⟩]
  else if j < bj then [⟨.insert, i, ai, j, bj⟩]
  else []

def operationsFrom (n m : Nat) : Nat → Nat → List Block → List Op
  | i, j, [] => gap i n j m
  | i, j, b :: bs =>
    gap i b.first j b.second ++ ⟨.equal, b.first, b.first + b.size, b.second, b.second + b.size⟩ ::
      operationsFrom n m (b.first + b.size) (b.second + b.size) bs

/-- The operations that make the second list of the first. They tile both lists. -/
def operations {α : Type} [BEq α] (as bs : List α) : List Op := operationsFrom as.length bs.length 0 0 (matchingBlocks as bs)

def Op.last (o : Op) : Op := { o with from1 := max o.from1 (o.to1 - n), from2 := max o.from2 (o.to2 - n) }

def Op.first (o : Op) : Op := { o with to1 := min o.to1 (o.from1 + n), to2 := min o.to2 (o.from2 + n) }

def trimFront : List Op → List Op
  | [] => []
  | o :: os => (if o.tag == .equal then o.last n else o) :: os

def trimBack (n : Nat) : List Op → List Op
  | [] => []
  | [o] => [if o.tag == .equal then o.first n else o]
  | o :: os => o :: trimBack n os

/-- Divide operations at equal stretches of more than `2 * n` lines; `group` holds those of the current
group, the last one first. -/
def divide (n : Nat) : List Op → List Op → List (List Op)
  | group, [] => [group.reverse]
  | group, o :: os =>
    if o.tag == .equal && 2 * n < o.to1 - o.from1 then
      (o.first n :: group).reverse :: divide n [o.last n] os
    else divide n (o :: group) os

def hasChange (group : List Op) : Bool :=
  match group with
  | [] => false
  | [o] => o.tag != .equal
  | _ => true

/-- Groups of operations with at most `n` equal lines around the differences. -/
def groups (ops : List Op) : List (List Op) :=
  let all := divide n [] (trimBack n (trimFront n ops))
  all.dropLast ++ (all.drop (all.length - 1)).filter hasChange

/-! ## Unified diffs -/

def range (start stop : Nat) : String :=
  let length := stop - start
  if length == 1 then toString (start + 1)
  else if length == 0 then toString start ++ ",0"
  else toString (start + 1) ++ "," ++ toString length

def opLines (as bs : List String) (o : Op) : List String :=
  let old := (as.take o.to1).drop o.from1
  let new := (bs.take o.to2).drop o.from2
  match o.tag with
  | .equal => old.map (" " ++ ·)
  | .replace => old.map ("-" ++ ·) ++ new.map ("+" ++ ·)
  | .delete => old.map ("-" ++ ·)
  | .insert => new.map ("+" ++ ·)

def groupLines (as bs : List String) (group : List Op) : List String :=
  match group.head?, group.getLast? with
  | some a, some z =>
    ("@@ -" ++ range a.from1 z.to1 ++ " +" ++ range a.from2 z.to2 ++ " @@\n") ::
      group.flatMap (opLines as bs)
  | _, _ => []

def unifiedLines (as bs : List String) : List String :=
  match groups 3 (operations as bs) with
  | [] => []
  | gs => "--- \n" :: "+++ \n" :: gs.flatMap (groupLines as bs)

def endLine (s : String) : String := if s.endsWith "\n" then s else s ++ "\n"

def joinLines : List String → String
  | [] => ""
  | [l] => l
  | l :: ls => endLine l ++ joinLines ls

/-- The text of a diff. -/
def unified (as bs : List String) : String := joinLines (unifiedLines as bs)

def ofTexts (old new : String) : String := unified (Text.splitLines old) (Text.splitLines new)

def headLine (line : String) : Except Fault Int :=
  match (Text.pieces ' ' line)[2]? with
  | none => .error .outOfRange
  | some r => do
    let start := ((Text.pieces ',' r).headD "").drop 1
    return (← Text.int start.toString) - 1

/-- The numbers of added lines by the lines of a diff; `now` is the number of the line before. Lines
that begin with two plus signs are counted and not listed. -/
def addedFrom : Int → List String → Except Fault (List Int)
  | _, [] => return []
  | now, l :: ls =>
    if l.startsWith "@@" then do addedFrom (← headLine l) ls
    else if l.startsWith "+" then do
      let rest ← addedFrom (now + 1) ls
      return if l.startsWith "++" then rest else (now + 1) :: rest
    else if l.startsWith "-" then addedFrom now ls
    else addedFrom (now + 1) ls

/-- The numbers of the added lines, read off a diff. -/
def addedLines (diff : List String) : Except Fault (List Int) := addedFrom 0 diff

end Mender.Diff
