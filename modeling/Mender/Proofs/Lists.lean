import Mathlib.Data.List.Nodup
import Mathlib.Data.List.Perm.Basic
import Mender.Text.Sort

/-!
# Lists that were sorted, sorted out or freed of repetitions

Sorting keeps all members (`perm_sortBy`), and their order where the one to sort by does not decide (`sorted_sortBy`).
Putting them into heaps, one for each class, keeps all of them as well (`perm_flatMap_filter`). Dropping repetitions leaves
each member once (`nodup_eraseDups`).
-/

namespace Mender

open List

variable {α β : Type}

lemma perm_insertBy (le : α → α → Bool) (x : α) (xs : List α) : (Text.insertBy le x xs).Perm (x :: xs) := by
  induction xs with
  | nil => exact .refl _
  | cons y ys ih =>
    rw [Text.insertBy]
    split
    · exact .refl _
    · exact (ih.cons y).trans (.swap x y ys)

lemma perm_sortBy (le : α → α → Bool) (xs : List α) : (Text.sortBy le xs).Perm xs := by
  induction xs with
  | nil => exact .refl _
  | cons x xs ih => exact (perm_insertBy le x _).trans (ih.cons x)

section

variable {le : α → α → Bool} {R : α → α → Prop} {x : α} {xs ys : List α}

/-- A list that is sorted, and in which `R` holds where the order does not decide. -/
def Sorted (le : α → α → Bool) (R : α → α → Prop) (xs : List α) : Prop :=
  xs.Pairwise fun a b => le a b = true ∧ (le b a = true → R a b)

variable {P : α → Prop} (htotal : ∀ {x y}, P x → P y → le x y = false → le y x = true)
  (htrans : ∀ {x y z}, P x → P y → P z → le x y = true → le y z = true → le x z = true)
include htotal htrans

lemma sorted_insertBy (hx : P x) (hP : ∀ y ∈ ys, P y) (hR : ∀ y ∈ ys, R x y) (h : Sorted le R ys) :
    Sorted le R (Text.insertBy le x ys) := by
  induction ys with
  | nil => exact pairwise_singleton _ _
  | cons y ys ih =>
    obtain ⟨hy, hys⟩ := pairwise_cons.1 h
    obtain ⟨hPy, hPys⟩ := forall_mem_cons.1 hP
    rw [Text.insertBy]
    split
    next hle =>
      refine pairwise_cons.2 ⟨fun z hz => ⟨?_, fun _ => hR z hz⟩, h⟩
      rcases mem_cons.1 hz with rfl | hz'
      · exact hle
      · exact htrans hx hPy (hP z hz) hle (hy z hz').1
    next hle =>
      rw [Bool.not_eq_true] at hle
      refine pairwise_cons.2 ⟨fun z hz => ?_, ih hPys (forall_mem_cons.1 hR).2 hys⟩
      -- what stands in front of the new member comes before it in earnest
      rcases mem_cons.1 ((perm_insertBy le x ys).mem_iff.1 hz) with rfl | hz
      · exact ⟨htotal hx hPy hle, fun h => absurd (hle.symm.trans h) Bool.false_ne_true⟩
      · exact hy z hz

lemma sorted_sortBy (hP : ∀ x ∈ xs, P x) (hR : xs.Pairwise R) : Sorted le R (Text.sortBy le xs) := by
  induction xs with
  | nil => exact .nil
  | cons x xs ih =>
    obtain ⟨hx, hxs⟩ := pairwise_cons.1 hR
    rw [forall_mem_cons] at hP
    have hmem (y : α) (hy : y ∈ Text.sortBy le xs) : y ∈ xs := (perm_sortBy le xs).mem_iff.1 hy
    exact sorted_insertBy htotal htrans hP.1 (fun y hy => hP.2 y (hmem y hy)) (fun y hy => hx y (hmem y hy)) (ih hP.2 hxs)

end

lemma perm_flatMap_filter [DecidableEq β] (f : α → β) (xs : List α) {cs : List β} (h : cs.Nodup) :
    (cs.flatMap fun c => xs.filter (f · == c)).Perm (xs.filter (f · ∈ cs)) := by
  induction cs with
  | nil => simp
  | cons c cs ih =>
    obtain ⟨hc, h⟩ := nodup_cons.1 h
    rw [flatMap_cons]
    refine ((ih h).append_left _).trans ?_
    -- the heap of the first class and the others are parts of all that belongs to some class
    refine .trans (.of_eq ?_) (filter_append_perm (f · == c) _)
    rw [filter_filter, filter_filter]
    congr 1
    · refine filter_congr fun x _ => ?_
      by_cases hx : f x = c <;> simp [hx]
    · refine filter_congr fun x _ => ?_
      by_cases hx : f x = c <;> simp [hx, hc]

lemma perm_flatten_zipWith {xs ys : List (List α)} (h : xs.length = ys.length) :
    (xs.zipWith (· ++ ·) ys).flatten.Perm (xs.flatten ++ ys.flatten) := by
  induction xs generalizing ys with
  | nil =>
    cases ys with
    | nil => exact .refl _
    | cons => cases h
  | cons x xs ih =>
    cases ys with
    | nil => cases h
    | cons y ys =>
      rw [zipWith_cons_cons, flatten_cons, flatten_cons, flatten_cons, append_assoc, append_assoc]
      refine .append_left x (((ih (Nat.succ.inj h)).append_left y).trans ?_)
      rw [← append_assoc, ← append_assoc]
      exact perm_append_comm.append_right _

lemma countP_eq_countP_and_iff {p q : α → Bool} {l : List α} :
    l.countP p = l.countP (fun a => p a && q a) ↔ ∀ a ∈ l, p a = true → q a = true := by
  have hfilter : l.countP (fun a => p a && q a) = (l.filter p).countP q := by
    rw [countP_filter]
    simp only [Bool.and_comm]
  rw [hfilter, countP_eq_length_filter, eq_comm, countP_eq_length]
  simp

/-- If a condition implies another and both hold equally often, they hold for the same members. -/
lemma of_countP_eq {p p' : α → Bool} {xs : List α} (himp : ∀ x ∈ xs, p x = true → p' x = true)
    (heq : xs.countP p = xs.countP p') : ∀ x ∈ xs, p' x = true → p x = true := by
  refine countP_eq_countP_and_iff.1 (heq.symm.trans (countP_congr fun x hx => ?_))
  simpa using himp x hx

lemma nodup_eraseDups [BEq α] [LawfulBEq α] {xs : List α} : xs.eraseDups.Nodup := by
  match xs with
  | [] => simp
  | x :: xs =>
    rw [eraseDups_cons, nodup_cons]
    refine ⟨?_, nodup_eraseDups⟩
    rw [mem_eraseDups, mem_filter]
    simp
termination_by xs.length
decreasing_by exact Nat.lt_succ_of_le (length_filter_le _ _)

lemma eraseDups_concat [BEq α] [LawfulBEq α] [DecidableEq α] (xs : List α) (x : α) :
    (xs ++ [x]).eraseDups = if x ∈ xs then xs.eraseDups else xs.eraseDups ++ [x] := by
  rw [eraseDups_append]
  by_cases h : x ∈ xs <;> simp [h, removeAll, eraseDups_cons]

/-- What is found under a key after the value of another key, or of the same, was changed or added. -/
lemma find?_change (es : List (String × α)) (k l : String) (f : α → α) (new : α) :
    ((if es.any (·.1 == k) then es.map fun e => if e.1 == k then (k, f e.2) else e else es ++ [(k, new)]).find?
        (·.1 == l)).map (·.2) =
      if l = k then some (((es.find? (·.1 == l)).map (·.2)).elim new f) else (es.find? (·.1 == l)).map (·.2) := by
  have hkeys : (fun e : String × α => e.1 == l) ∘ (fun e => if e.1 == k then (k, f e.2) else e) = fun e => e.1 == l := by
    funext e
    by_cases he : e.1 = k <;> simp [he]
  split
  next hany =>
    rw [find?_map, hkeys]
    cases hfind : es.find? (·.1 == l) with
    | none =>
      rw [if_neg]
      · rfl
      rintro rfl
      rw [any_eq_false.2 (find?_eq_none.1 hfind)] at hany
      cases hany
    | some e =>
      have hkey : e.1 = l := by simpa using find?_some hfind
      by_cases h : l = k <;> simp [hkey, h]
  next hnone =>
    by_cases h : l = k
    · subst h
      have hfind := find?_eq_none.2 (any_eq_false.1 (Bool.eq_false_iff.2 hnone))
      simp [find?_append, hfind]
    · simp [find?_append, h, Ne.symm h]

end Mender
