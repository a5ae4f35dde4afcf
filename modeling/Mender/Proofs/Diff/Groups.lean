import Mathlib.Tactic.Lemma
import Mender.Diff

/-!
# The operations of a diff and their groups

The operations tile both lists (`edits_operations`). A diff shows only those near a difference, in groups, and what
stands between two groups is the same in both lists (`parted_groups`).
-/

namespace Mender.Diff

open List

/-! ## The runs that two lists share

A diff rests on runs of lines that stand in both lists. How they are looked for decides which of many diffs is
found; that it is a diff at all follows from less: what is found is a run of both lists (`shared_longestBlock`), and
the runs stand one behind the other (`aligned_matchingBlocks`). -/

variable {α : Type} {i k : Nat} {r₁ as bs before : List α} {blocks : List Block} {ys : List (α × Bool)}

def Block.Shared (as bs : List α) (b : Block) : Prop :=
  ∃ l₁ l₂ run r₁ r₂, as = l₁ ++ run ++ r₁ ∧ bs = l₂ ++ run ++ r₂ ∧ b = ⟨l₁.length, l₂.length, run.length⟩

/-- Blocks that are runs of both lists, each behind the one before; their places are counted from `i` and `j`. -/
inductive Aligned : Nat → Nat → List α → List α → List Block → Prop
  | nil (i j : Nat) (as bs : List α) : Aligned i j as bs []
  | cons {i j : Nat} {r₁ r₂ : List α} {rest : List Block} (l₁ l₂ run : List α)
      (h : Aligned (i + l₁.length + run.length) (j + l₂.length + run.length) r₁ r₂ rest) :
      Aligned i j (l₁ ++ run ++ r₁) (l₂ ++ run ++ r₂) (⟨i + l₁.length, j + l₂.length, run.length⟩ :: rest)

lemma Aligned.append {j : Nat} {l₁ l₂ r₂ run : List α} {before after : List Block} (h : Aligned i j l₁ l₂ before)
    (h' : Aligned (i + l₁.length + run.length) (j + l₂.length + run.length) r₁ r₂ after) :
    Aligned i j (l₁ ++ run ++ r₁) (l₂ ++ run ++ r₂)
      (before ++ ⟨i + l₁.length, j + l₂.length, run.length⟩ :: after) := by
  induction h with
  | nil i j as bs => exact .cons as bs run h'
  | @cons i j s₁ s₂ rest m₁ m₂ other hrest ih =>
    have hplace₁ : i + (m₁ ++ other ++ s₁).length = i + m₁.length + other.length + s₁.length := by
      simp only [length_append]
      omega
    have hplace₂ : j + (m₂ ++ other ++ s₂).length = j + m₂.length + other.length + s₂.length := by
      simp only [length_append]
      omega
    rw [hplace₁, hplace₂] at h' ⊢
    simpa only [append_assoc, cons_append] using Aligned.cons m₁ m₂ other (ih h')

lemma Aligned.joinBlocks {j : Nat} (h : Aligned i j as bs blocks) : Aligned i j as bs (joinBlocks blocks) := by
  induction h with
  | nil i j as bs => exact .nil i j as bs
  | @cons i j r₁ r₂ rest l₁ l₂ run hrest ih =>
    rw [Diff.joinBlocks]
    split
    next c more hjoined =>
      rw [hjoined] at ih
      split
      next hmeet =>
        simp only [Bool.and_eq_true, beq_iff_eq] at hmeet
        obtain _ | ⟨m₁, m₂, other, hmore⟩ := ih
        -- nothing stands between the two runs, so that they are one
        obtain rfl : m₁ = [] := length_eq_zero_iff.1 (by simp only at hmeet; omega)
        obtain rfl : m₂ = [] := length_eq_zero_iff.1 (by simp only at hmeet; omega)
        have hone := @Aligned.cons α i j _ _ more l₁ l₂ (run ++ other) (by
          simpa only [length_append, length_nil, Nat.add_zero, Nat.add_assoc] using hmore)
        simpa only [length_append, nil_append, append_assoc] using hone
      next => exact .cons l₁ l₂ run ih
    next => exact .cons l₁ l₂ run (.nil ..)

/-! ## Looking for a run -/

lemma take_before_run (l run r : List α) : (l ++ run ++ r).take l.length = l := by
  rw [append_assoc, take_left]

lemma drop_behind_run (l run r : List α) : (l ++ run ++ r).drop (l.length + run.length) = r := by
  rw [← length_append, drop_left]

def EndsBoth (k : Nat) (as bs : List α) : Prop := ∃ run, run.length = k ∧ run <:+ as ∧ run <:+ bs

lemma endsBoth_zero (as bs : List α) : EndsBoth 0 as bs := ⟨[], rfl, nil_suffix, nil_suffix⟩

lemma EndsBoth.concat (h : EndsBoth k as bs) (x : α) : EndsBoth (k + 1) (as ++ [x]) (bs ++ [x]) := by
  obtain ⟨run, hrun, ⟨l₁, rfl⟩, l₂, rfl⟩ := h
  exact ⟨run ++ [x], by simp [hrun], ⟨l₁, by simp⟩, l₂, by simp⟩

lemma EndsBoth.shared (h : EndsBoth k as bs) (r₁ r₂ : List α) :
    Block.Shared (as ++ r₁) (bs ++ r₂) ⟨as.length - k, bs.length - k, k⟩ := by
  obtain ⟨run, rfl, ⟨l₁, rfl⟩, l₂, rfl⟩ := h
  exact ⟨l₁, l₂, run, r₁, r₂, rfl, rfl, by simp⟩

/-- Are these lengths of runs that end with `as` and at each of the places behind `before`? -/
def Fits (as : List α) : List α → List (α × Bool) → List Nat → Prop
  | before, (y, _) :: ys, k :: ks => EndsBoth k as (before ++ [y]) ∧ Fits as (before ++ [y]) ys ks
  | _, _, ks => ks = []

lemma fits_replicate : Fits as before ys (replicate ys.length 0) := by
  induction ys generalizing before with
  | nil => rfl
  | cons y ys ih => exact ⟨endsBoth_zero .., ih⟩

lemma shared_betterRun {ks : List Nat} {best : Block} (hfits : Fits as before ys ks) (hplace : as.length = i + 1)
    (hbest : best.Shared (as ++ r₁) (before ++ ys.map (·.1))) :
    (betterRun i before.length ks best).Shared (as ++ r₁) (before ++ ys.map (·.1)) := by
  induction ys generalizing before ks best with
  | nil =>
    cases ks with
    | nil => exact hbest
    | cons k ks => cases hfits
  | cons y ys ih =>
    cases ks with
    | nil => exact hbest
    | cons k ks =>
      obtain ⟨hends, hfits⟩ := hfits
      have hlists : before ++ (y :: ys).map (·.1) = before ++ [y.1] ++ ys.map (·.1) := by simp
      rw [hlists] at hbest ⊢
      have hnext := @ih (before ++ [y.1]) ks
      rw [length_append] at hnext
      refine hnext hfits ?_
      split
      · have hrun := hends.shared r₁ (ys.map (·.1))
        rw [length_append, hplace] at hrun
        exact hrun
      · exact hbest

section Matching

variable [BEq α]

/-- A run is extended at both ends as far as the lists agree there. -/
theorem longestBlock_eq {l₁ l₂ run r₂ : List α} {bs : List (α × Bool)} (has : as = l₁ ++ run ++ r₁)
    (hbs : bs.map (·.1) = l₂ ++ run ++ r₂)
    (hrun : longestRun 0 bs as (replicate bs.length 0) ⟨0, 0, 0⟩ = ⟨l₁.length, l₂.length, run.length⟩) :
    longestBlock as bs = ⟨l₁.length - agreement l₁.reverse l₂.reverse, l₂.length - agreement l₁.reverse l₂.reverse,
        agreement l₁.reverse l₂.reverse + run.length + agreement r₁ r₂⟩ := by
  simp only [longestBlock, hrun, hbs]
  rw [has, take_before_run, take_before_run, drop_behind_run, drop_behind_run]

lemma map_usable : (usable bs).map (·.1) = bs := by
  rw [usable]
  split <;> rw [map_map] <;> exact map_id bs

variable [LawfulBEq α]

lemma fits_runLengths {ps : List Nat} {diagonal : Nat} (hdiagonal : EndsBoth diagonal as before)
    (hfits : Fits as before ys ps) (x : α) :
    Fits (as ++ [x]) before ys (runLengths x diagonal ys ps) := by
  induction ys generalizing before ps diagonal with
  | nil => rfl
  | cons y ys ih =>
    cases ps with
    | nil => rfl
    | cons p ps =>
      obtain ⟨hends, hfits⟩ := hfits
      refine ⟨?_, ih hends hfits⟩
      split
      next hsame =>
        simp only [Bool.and_eq_true, beq_iff_eq] at hsame
        rw [← hsame.2]
        exact hdiagonal.concat x
      next => exact endsBoth_zero ..

lemma shared_longestRun {xs : List α} {bs : List (α × Bool)} {prior : List Nat} {best : Block}
    (hfits : Fits before [] bs prior) (hbest : best.Shared (before ++ xs) (bs.map (·.1))) :
    (longestRun before.length bs xs prior best).Shared (before ++ xs) (bs.map (·.1)) := by
  induction xs generalizing before prior best with
  | nil => exact hbest
  | cons x xs ih =>
    have hnow := fits_runLengths (endsBoth_zero before []) hfits x
    have hlists : before ++ x :: xs = before ++ [x] ++ xs := by simp
    rw [hlists] at hbest ⊢
    have hnext := @ih (before ++ [x])
    rw [length_append] at hnext
    exact hnext hnow (shared_betterRun hnow (by simp) hbest)

lemma exists_of_agreement (xs ys : List α) :
    ∃ run xs' ys', xs = run ++ xs' ∧ ys = run ++ ys' ∧ run.length = agreement xs ys := by
  fun_induction agreement xs ys with
  | case1 x xs y ys hsame ih =>
    obtain ⟨run, xs', ys', rfl, rfl, hrun⟩ := ih
    exact ⟨x :: run, xs', ys', rfl, by rw [eq_of_beq hsame]; rfl, by rw [← hrun]; rfl⟩
  | case2 | case3 => exact ⟨[], _, _, rfl, rfl, rfl⟩

lemma shared_longestBlock (as : List α) (bs : List (α × Bool)) : (longestBlock as bs).Shared as (bs.map (·.1)) := by
  obtain ⟨l₁, l₂, run, r₁, r₂, has, hbs, hrun⟩ := @shared_longestRun α [] _ _ as bs _ ⟨0, 0, 0⟩
    fits_replicate ⟨[], [], [], as, bs.map (·.1), rfl, rfl, rfl⟩
  rw [nil_append] at has
  rw [longestBlock_eq has hbs hrun]
  obtain ⟨front, m₁, m₂, hm₁, hm₂, hfront⟩ := exists_of_agreement l₁.reverse l₂.reverse
  obtain ⟨back, s₁, s₂, hs₁, hs₂, hback⟩ := exists_of_agreement r₁ r₂
  rw [reverse_eq_iff, reverse_append] at hm₁ hm₂
  refine ⟨m₁.reverse, m₂.reverse, front.reverse ++ run ++ back, s₁, s₂, ?_, ?_, ?_⟩
  · simp only [has, hm₁, hs₁, append_assoc]
  · simp only [hbs, hm₂, hs₂, append_assoc]
  · rw [← hfront, ← hback, hm₁, hm₂]
    simp [Nat.add_assoc]

lemma aligned_blocksTo (fuel i j : Nat) (as : List α) (bs : List (α × Bool)) :
    Aligned i j as (bs.map (·.1)) (blocksTo fuel i j as bs) := by
  induction fuel generalizing i j as bs with
  | zero => exact .nil ..
  | succ fuel ih =>
    rw [blocksTo]
    split
    · exact .nil ..
    · obtain ⟨l₁, l₂, run, r₁, r₂, rfl, hbs, hblock⟩ := shared_longestBlock as bs
      have hl₂ : (bs.take l₂.length).map (·.1) = l₂ := by rw [map_take, hbs, take_before_run]
      have hr₂ : (bs.drop (l₂.length + run.length)).map (·.1) = r₂ := by rw [map_drop, hbs, drop_behind_run]
      have hbefore := ih i j l₁ (bs.take l₂.length)
      have hafter := ih (i + l₁.length + run.length) (j + l₂.length + run.length) r₁
        (bs.drop (l₂.length + run.length))
      rw [hl₂] at hbefore
      rw [hr₂] at hafter
      rw [hblock, hbs, take_before_run, drop_behind_run]
      exact hbefore.append hafter

/-- **The shared runs of two lists stand one behind the other.** -/
theorem aligned_matchingBlocks (as bs : List α) : Aligned 0 0 as bs (matchingBlocks as bs) := by
  have h := aligned_blocksTo (as.length + 1) 0 0 as (usable bs)
  rw [map_usable] at h
  exact h.joinBlocks

end Matching

/-- Does the operation make `ys` of `xs`, which stand at the places `i` and `j`? -/
structure Op.Turns (o : Op) (i j : Nat) (xs ys : List α) : Prop where
  from1 : o.from1 = i
  to1 : o.to1 = i + xs.length
  from2 : o.from2 = j
  to2 : o.to2 = j + ys.length
  equal : o.tag = .equal → xs = ys
  delete : o.tag = .delete → ys = []
  insert : o.tag = .insert → xs = []

/-- Operations, one behind the other, that make one list of another; places are counted from `i` and `j`. -/
inductive Edits : Nat → Nat → List α → List α → List Op → Prop
  | nil (i j : Nat) : Edits i j [] [] []
  | cons {i j : Nat} {xs ys as bs : List α} {o : Op} {os : List Op} (h : o.Turns i j xs ys)
      (rest : Edits (i + xs.length) (j + ys.length) as bs os) : Edits i j (xs ++ as) (ys ++ bs) (o :: os)

/-- Groups of operations that make one list of another, if what stands before, between and behind them is kept. -/
inductive Parted : Nat → Nat → List α → List α → List (List Op) → Prop
  | nil (i j : Nat) : Parted i j [] [] []
  | skip {i j : Nat} {as bs : List α} {gs : List (List Op)} (same : List α)
      (rest : Parted (i + same.length) (j + same.length) as bs gs) : Parted i j (same ++ as) (same ++ bs) gs
  | group {i j : Nat} {xs ys as bs : List α} {g : List Op} {gs : List (List Op)} (h : Edits i j xs ys g)
      (rest : Parted (i + xs.length) (j + ys.length) as bs gs) : Parted i j (xs ++ as) (ys ++ bs) (g :: gs)

variable {j n : Nat} {xs ys : List α} {o : Op} {os g : List Op} {gs : List (List Op)}

lemma Edits.append (h : Edits i j xs ys os) (h' : Edits (i + xs.length) (j + ys.length) as bs g) :
    Edits i j (xs ++ as) (ys ++ bs) (os ++ g) := by
  induction h with
  | nil i j => exact h'
  | cons ho hrest ih =>
    rw [append_assoc, append_assoc]
    refine .cons ho (ih ?_)
    simpa only [length_append, Nat.add_assoc] using h'

lemma Edits.single (h : o.Turns i j xs ys) : Edits i j xs ys [o] := by
  simpa only [append_nil] using Edits.cons h (.nil ..)

/-! ## The operations tile the lists -/

lemma turns_of {t : Tag} (i j : Nat) (xs ys : List α) (hequal : t = .equal → xs = ys) (hdelete : t = .delete → ys = [])
    (hinsert : t = .insert → xs = []) : Op.Turns ⟨t, i, i + xs.length, j, j + ys.length⟩ i j xs ys :=
  ⟨rfl, rfl, rfl, rfl, hequal, hdelete, hinsert⟩

lemma edits_gap (i j : Nat) (xs ys : List α) : Edits i j xs ys (gap i (i + xs.length) j (j + ys.length)) := by
  cases xs with
  | nil =>
    cases ys with
    | nil => simpa [gap] using Edits.nil i j
    | cons y ys => simpa [gap] using Edits.single (turns_of (t := .insert) i j [] (y :: ys) nofun nofun fun _ => rfl)
  | cons x xs =>
    cases ys with
    | nil => simpa [gap] using Edits.single (turns_of (t := .delete) i j (x :: xs) [] nofun (fun _ => rfl) nofun)
    | cons y ys => simpa [gap] using Edits.single (turns_of (t := .replace) i j (x :: xs) (y :: ys) nofun nofun nofun)

lemma edits_operationsFrom (h : Aligned i j as bs blocks) :
    Edits i j as bs (operationsFrom (i + as.length) (j + bs.length) i j blocks) := by
  induction h with
  | nil i j as bs => exact edits_gap i j as bs
  | @cons i j r₁ r₂ rest l₁ l₂ run hrest ih =>
    rw [append_assoc, append_assoc]
    refine (edits_gap i j l₁ l₂).append (.cons (turns_of _ _ run run (fun _ => rfl) nofun nofun) ?_)
    simpa only [length_append, Nat.add_assoc] using ih

lemma edits_operations [BEq α] [LawfulBEq α] (as bs : List α) : Edits 0 0 as bs (operations as bs) := by
  have h := edits_operationsFrom (aligned_matchingBlocks as bs)
  rwa [Nat.zero_add, Nat.zero_add] at h

/-! ## Groups leave out what is the same -/

lemma Parted.append (h : Parted i j as bs gs) (same : List α) : Parted i j (as ++ same) (bs ++ same) gs := by
  induction h with
  | nil i j => simpa only [append_nil, nil_append] using Parted.skip same (.nil ..)
  | skip s rest ih => simpa only [append_assoc] using Parted.skip s ih
  | group hg rest ih => simpa only [append_assoc] using Parted.group hg ih

lemma Parted.of_append (h : Parted i j as bs (gs ++ [g])) (hg : ∀ {i j xs ys}, @Edits α i j xs ys g → xs = ys) :
    Parted i j as bs gs := by
  generalize hall : gs ++ [g] = all at h
  induction h generalizing gs with
  | nil i j => simp at hall
  | skip s rest ih => exact .skip s (ih hall)
  | group hedits rest ih =>
    cases gs with
    | nil =>
      obtain ⟨rfl, rfl⟩ := cons.inj hall
      obtain rfl := hg hedits
      exact .skip _ rest
    | cons g' gs =>
      obtain ⟨rfl, htail⟩ := cons.inj hall
      exact .group hedits (ih htail)

lemma eq_of_not_hasChange (hsame : hasChange g = false) (h : Edits i j xs ys g) : xs = ys := by
  cases h with
  | nil => rfl
  | cons ho hrest =>
    cases hrest with
    | nil => rw [ho.equal (by simpa [hasChange] using hsame)]
    | cons => cases hsame

lemma Op.Turns.first (h : o.Turns i j xs xs) (hequal : o.tag = .equal) (n : Nat) :
    (o.first n).Turns i j (xs.take n) (xs.take n) := by
  refine ⟨h.from1, ?_, h.from2, ?_, fun _ => rfl, ?_, ?_⟩
  · simp only [Op.first, h.to1, h.from1, length_take]
    omega
  · simp only [Op.first, h.to2, h.from2, length_take]
    omega
  · intro hdelete
    cases hequal.symm.trans hdelete
  · intro hinsert
    cases hequal.symm.trans hinsert

lemma Op.Turns.last (h : o.Turns i j xs xs) (hequal : o.tag = .equal) (n : Nat) :
    (o.last n).Turns (i + (xs.length - n)) (j + (xs.length - n)) (xs.drop (xs.length - n)) (xs.drop (xs.length - n)) := by
  refine ⟨?_, ?_, ?_, ?_, fun _ => rfl, ?_, ?_⟩
  · simp only [Op.last, h.to1, h.from1]
    omega
  · simp only [Op.last, h.to1, length_drop]
    omega
  · simp only [Op.last, h.to2, h.from2]
    omega
  · simp only [Op.last, h.to2, length_drop]
    omega
  · intro hdelete
    cases hequal.symm.trans hdelete
  · intro hinsert
    cases hequal.symm.trans hinsert

lemma edits_trimFront (h : Edits i j as bs os) (n : Nat) : ∃ same as' bs', as = same ++ as' ∧ bs = same ++ bs' ∧
      Edits (i + same.length) (j + same.length) as' bs' (trimFront n os) := by
  cases h with
  | nil => exact ⟨[], [], [], rfl, rfl, .nil ..⟩
  | @cons _ _ xs ys as bs o os ho hrest =>
    rw [trimFront]
    split
    next hequal =>
      rw [beq_iff_eq] at hequal
      obtain rfl := ho.equal hequal
      refine ⟨xs.take (xs.length - n), xs.drop (xs.length - n) ++ as, xs.drop (xs.length - n) ++ bs, ?_, ?_, ?_⟩
      · rw [← append_assoc, take_append_drop]
      · rw [← append_assoc, take_append_drop]
      · have hlen : (xs.take (xs.length - n)).length = xs.length - n := by simp
        rw [hlen]
        refine .cons (ho.last hequal n) ?_
        have hplace : ∀ k, k + (xs.length - n) + (xs.drop (xs.length - n)).length = k + xs.length := by
          intro k
          rw [length_drop]
          omega
        rwa [hplace, hplace]
    next => exact ⟨[], _, _, rfl, rfl, .cons ho hrest⟩

lemma edits_trimBack (h : Edits i j as bs os) (n : Nat) :
    ∃ same as' bs', as = as' ++ same ∧ bs = bs' ++ same ∧ Edits i j as' bs' (trimBack n os) := by
  induction h with
  | nil i j => exact ⟨[], [], [], rfl, rfl, .nil ..⟩
  | @cons i j xs ys as bs o os ho hrest ih =>
    cases os with
    | nil =>
      cases hrest
      rw [append_nil, append_nil, trimBack]
      split
      next hequal =>
        rw [beq_iff_eq] at hequal
        obtain rfl := ho.equal hequal
        exact ⟨xs.drop n, xs.take n, xs.take n, (take_append_drop ..).symm, (take_append_drop ..).symm,
          .single (ho.first hequal n)⟩
      next => exact ⟨[], xs, ys, (append_nil _).symm, (append_nil _).symm, .single ho⟩
    | cons o' os =>
      obtain ⟨same, as', bs', rfl, rfl, hedits⟩ := ih
      exact ⟨same, xs ++ as', ys ++ bs', (append_assoc ..).symm, (append_assoc ..).symm, .cons ho hedits⟩

lemma run_eq_parts (run : List α) (h : 2 * n ≤ run.length) :
    run.take n ++ ((run.drop n).take (run.length - 2 * n) ++ run.drop (run.length - n)) = run ∧
      n + ((run.drop n).take (run.length - 2 * n)).length = run.length - n := by
  constructor
  · have hback : run.drop (run.length - n) = (run.drop n).drop (run.length - 2 * n) := by
      rw [drop_drop]
      congr 1
      omega
    rw [hback, take_append_drop, take_append_drop]
  · rw [length_take, length_drop]
    omega

lemma parted_divide (hg : Edits i j xs ys g.reverse) (hos : Edits (i + xs.length) (j + ys.length) as bs os) (n : Nat) :
    Parted i j (xs ++ as) (ys ++ bs) (divide n g os) := by
  induction os generalizing i j xs ys g as bs with
  | nil =>
    cases hos
    exact .group hg (.nil ..)
  | cons o os ih =>
    cases hos with
    | @cons _ _ run ys' as bs _ _ ho hrest =>
      rw [divide]
      split
      next hlong =>
        simp only [Bool.and_eq_true, beq_iff_eq, decide_eq_true_eq] at hlong
        obtain ⟨hequal, hlong⟩ := hlong
        obtain rfl := ho.equal hequal
        have hshown : Edits i j (xs ++ run.take n) (ys ++ run.take n) (o.first n :: g).reverse := by
          rw [reverse_cons]
          exact hg.append (.single (ho.first hequal n))
        have hplace : ∀ k, k + (run.length - n) + (run.drop (run.length - n)).length = k + run.length := by
          intro k
          rw [length_drop]
          omega
        have hnext := ih (g := [o.last n]) (.single (ho.last hequal n)) (by rwa [hplace, hplace])
        obtain ⟨hrun, hlen⟩ := @run_eq_parts α n run (by rw [ho.to1, ho.from1] at hlong; omega)
        generalize (run.drop n).take (run.length - 2 * n) = left at hrun hlen
        have hplace' : ∀ k (zs : List α),
            k + (zs ++ run.take n).length + left.length = k + zs.length + (run.length - n) := by
          intro k zs
          rw [length_append, length_take]
          omega
        have hsplit : ∀ ws zs : List α,
            ws ++ run.take n ++ (left ++ (run.drop (run.length - n) ++ zs)) = ws ++ (run ++ zs) := by
          intro ws zs
          calc ws ++ run.take n ++ (left ++ (run.drop (run.length - n) ++ zs))
            _ = ws ++ (run.take n ++ (left ++ run.drop (run.length - n)) ++ zs) := by simp only [append_assoc]
            _ = ws ++ (run ++ zs) := by rw [hrun]
        have hparted := Parted.group hshown (.skip left (by rw [hplace', hplace']; exact hnext))
        rwa [hsplit, hsplit] at hparted
      next =>
        have hshown : Edits i j (xs ++ run) (ys ++ ys') (o :: g).reverse := by
          rw [reverse_cons]
          exact hg.append (.single ho)
        have hnext := ih hshown (by simpa only [length_append, Nat.add_assoc] using hrest)
        simpa only [append_assoc] using hnext

lemma divide_ne_nil : divide n g os ≠ [] := by
  fun_induction divide n g os with
  | case1 | case2 => exact cons_ne_nil _ _
  | case3 _ _ _ _ ih => exact ih

lemma parted_groups (h : Edits i j as bs os) (n : Nat) : Parted i j as bs (groups n os) := by
  obtain ⟨front, as', bs', rfl, rfl, hfront⟩ := edits_trimFront h n
  obtain ⟨back, as, bs, rfl, rfl, hback⟩ := edits_trimBack hfront n
  refine .skip front (.append ?_ back)
  have hall := parted_divide (g := []) (.nil ..) hback n
  rw [groups]
  obtain ⟨gs, g, hparts⟩ : ∃ gs g, divide n [] (trimBack n (trimFront n os)) = gs ++ [g] :=
    ⟨_, _, (dropLast_concat_getLast divide_ne_nil).symm⟩
  rw [hparts] at hall ⊢
  have hlast : (gs ++ [g]).drop ((gs ++ [g]).length - 1) = [g] := by simp
  cases hchange : hasChange g with
  | true => simpa [hchange] using hall
  | false => simpa [hchange] using hall.of_append (eq_of_not_hasChange hchange)

end Mender.Diff
