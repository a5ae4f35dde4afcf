import Mathlib.Data.List.Lex
import Mathlib.Data.String.Basic
import Mathlib.Data.Sum.Order
import Mender.Proofs.Lists
import Mender.Proofs.Outcomes
import Mender.Text.Natural

/-!
# Natural order

Names are put in natural order exactly if any two of them can be compared (`sortNaturally_isOk_iff`), and then none is
lost and none is added (`perm_of_sortNaturally`). They are in order by their keys, and where these are the same in the order
in which they were given (`pairwise_of_sortNaturally`).
-/

namespace Mender.Text

open List KeyPart

variable {α : Type} {name : α → String} {xs ys : List α} {keyed : List (List KeyPart × α)} {a b : List KeyPart}
  {s t : String}

/-- Can two texts be compared by the numbers in them? -/
def Comparable (s t : String) : Prop := ∃ a b, naturalKey s = .ok a ∧ naturalKey t = .ok b ∧ (compareKeys a b).isSome = true

lemma keyed_eq_ok_iff {x : α} {p : List KeyPart × α} :
    (do return (← naturalKey (name x), x) : Except Fault (List KeyPart × α)) = .ok p ↔
      p.2 = x ∧ naturalKey (name p.2) = .ok p.1 := by
  constructor
  · intro h
    obtain ⟨key, hkey, h⟩ := of_bind h
    cases h
    exact ⟨rfl, hkey⟩
  · rintro ⟨rfl, hkey⟩
    rw [hkey]
    rfl

lemma mapM_keyed_iff : (xs.mapM fun x => return (← naturalKey (name x), x)) = .ok keyed ↔
      keyed.map (·.2) = xs ∧ ∀ p ∈ keyed, naturalKey (name p.2) = .ok p.1 := by
  simp only [mapM_eq_ok_iff, keyed_eq_ok_iff]
  induction keyed generalizing xs with
  | nil => simp [eq_comm]
  | cons p ps ih =>
    cases xs with
    | nil => simp
    | cons x xs =>
      rw [forall₂_cons, @ih xs, map_cons, cons.injEq, forall_mem_cons]
      tauto

lemma sortNaturally_eq_ok_iff : sortNaturally name xs = .ok ys ↔ ∃ keyed : List (List KeyPart × α),
      keyed.map (·.2) = xs ∧ (∀ p ∈ keyed, naturalKey (name p.2) = .ok p.1) ∧
      (∀ p ∈ keyed, ∀ q ∈ keyed, (compareKeys p.1 q.1).isSome = true) ∧
      ys = (sortBy (fun a b => compareKeys a.1 b.1 != some .gt) keyed).map (·.2) := by
  have hany (keyed : List (List KeyPart × α)) :
      (keyed.any fun a => keyed.any fun b => (compareKeys a.1 b.1).isNone) = false ↔
        ∀ p ∈ keyed, ∀ q ∈ keyed, (compareKeys p.1 q.1).isSome = true := by
    simp only [any_eq_false, Bool.not_eq_true, Option.isNone_eq_false_iff]
  constructor
  · intro h
    obtain ⟨keyed, hkeyed, h⟩ := of_bind h
    obtain ⟨hxs, hkeys⟩ := mapM_keyed_iff.1 hkeyed
    refine ⟨keyed, hxs, hkeys, ?_⟩
    split at h
    next => cases h
    next hnone =>
      cases h
      exact ⟨(hany keyed).1 (Bool.eq_false_iff.2 hnone), rfl⟩
  · rintro ⟨keyed, hxs, hkeys, hall, rfl⟩
    rw [sortNaturally, mapM_keyed_iff.2 ⟨hxs, hkeys⟩]
    show (if _ then _ else _) = _
    rw [if_neg (Bool.eq_false_iff.1 ((hany keyed).2 hall))]
    rfl

/-- Names are put in order exactly if any two of them have one. -/
lemma sortNaturally_isOk_iff : (sortNaturally name xs).isOk = true ↔ ∀ x ∈ xs, ∀ y ∈ xs, Comparable (name x) (name y) := by
  rw [isOk_iff_exists]
  constructor
  · rintro ⟨ys, h⟩
    obtain ⟨keyed, rfl, hkeys, hall, -⟩ := sortNaturally_eq_ok_iff.1 h
    simp only [forall_mem_map]
    exact fun p hp q hq => ⟨p.1, q.1, hkeys p hp, hkeys q hq, hall p hp q hq⟩
  · intro h
    have hkeyed : (xs.mapM fun x => return (← naturalKey (name x), x)).isOk = true := by
      refine mapM_isOk_iff.2 fun x hx => ?_
      obtain ⟨key, -, hkey, -⟩ := h x hx x hx
      rw [hkey]
      rfl
    obtain ⟨keyed, hkeyed⟩ := exists_of_isOk hkeyed
    obtain ⟨rfl, hkeys⟩ := mapM_keyed_iff.1 hkeyed
    refine ⟨_, sortNaturally_eq_ok_iff.2 ⟨keyed, rfl, hkeys, fun p hp q hq => ?_, rfl⟩⟩
    obtain ⟨a, b, ha, hb, hsome⟩ := h p.2 (mem_map_of_mem hp) q.2 (mem_map_of_mem hq)
    rw [hkeys p hp] at ha
    rw [hkeys q hq] at hb
    cases ha
    cases hb
    exact hsome

lemma perm_of_sortNaturally (h : sortNaturally name xs = .ok ys) : ys.Perm xs := by
  obtain ⟨keyed, rfl, -, -, rfl⟩ := sortNaturally_eq_ok_iff.1 h
  exact (perm_sortBy _ keyed).map _

/-! ## Sorted names -/

/-- Parts of keys in a linear order. In it texts come before numbers, which are never compared. -/
def KeyPart.rank : KeyPart → String ⊕ₗ Int
  | .text s => toLex (.inl s)
  | .number n => toLex (.inr n)

lemma KeyPart.rank_injective : Function.Injective rank := by
  intro a b h
  cases a <;> cases b <;> cases h <;> rfl

lemma compareKeys_eq_gt_iff {o : Ordering} (h : compareKeys a b = some o) :
    o = .gt ↔ Lex (· < ·) (b.map rank) (a.map rank) := by
  induction a generalizing b with
  | nil => cases b <;> cases h <;> simp
  | cons x a ih =>
    cases b with
    | nil =>
      cases h
      simp
    | cons y b =>
      rw [compareKeys.eq_def] at h
      dsimp only at h
      rw [map_cons, map_cons, cons_lex_cons_iff, rank_injective.eq_iff]
      split at h
      next hxy =>
        subst hxy
        simpa using ih h
      next hxy =>
        have hlt : o = .gt ↔ y.rank < x.rank := by
          rw [← not_le, Ne.le_iff_lt (rank_injective.ne hxy)]
          split at h
          next s t =>
            cases h
            simp [rank]
          next m n =>
            cases h
            simp [rank]
          next => cases h
        simp [hlt, Ne.symm hxy]

lemma ne_gt_iff (h : (compareKeys a b).isSome = true) :
    (compareKeys a b != some .gt) = true ↔ a.map rank ≤ b.map rank := by
  obtain ⟨o, ho⟩ := Option.isSome_iff_exists.1 h
  rw [ho, bne_iff_ne, Ne, Option.some_inj]
  exact (not_congr (compareKeys_eq_gt_iff ho)).trans (not_lt (a := b.map rank))

/-- Does the one name stand before the other in natural order, or have they the same key? -/
def Precedes (s t : String) : Prop := ∃ a b, naturalKey s = .ok a ∧ naturalKey t = .ok b ∧ a.map rank ≤ b.map rank

lemma precedes_iff (ha : naturalKey s = .ok a) (hb : naturalKey t = .ok b) : Precedes s t ↔ a.map rank ≤ b.map rank := by
  refine ⟨?_, fun h => ⟨a, b, ha, hb, h⟩⟩
  rintro ⟨a', b', ha', hb', h⟩
  cases ha.symm.trans ha'
  cases hb.symm.trans hb'
  exact h

/-- Names are in natural order, and in the order given where their keys are the same. -/
lemma pairwise_of_sortNaturally {R : α → α → Prop} (hR : xs.Pairwise R) (h : sortNaturally name xs = .ok ys) :
    ys.Pairwise fun x y => Precedes (name x) (name y) ∧ (Precedes (name y) (name x) → R x y) := by
  obtain ⟨keyed, rfl, hkeys, hall, rfl⟩ := sortNaturally_eq_ok_iff.1 h
  have hle {p q : List KeyPart × α} (hp : p ∈ keyed) (hq : q ∈ keyed) := ne_gt_iff (hall p hp q hq)
  have hsorted := sorted_sortBy (R := fun p q => R p.2 q.2) (P := (· ∈ keyed))
    (fun {p q} hp hq hgt => (hle hq hp).2 ((le_total ..).resolve_left (mt (hle hp hq).2 (Bool.eq_false_iff.1 hgt))))
    (fun hp hq hr hpq hqr => (hle hp hr).2 (((hle hp hq).1 hpq).trans ((hle hq hr).1 hqr))) (fun _ => id) (pairwise_map.1 hR)
  refine pairwise_map.2 (hsorted.imp_of_mem fun {p q} hp hq hpq => ?_)
  rw [(perm_sortBy _ keyed).mem_iff] at hp hq
  rwa [hle hp hq, hle hq hp, ← precedes_iff (hkeys p hp) (hkeys q hq), ← precedes_iff (hkeys q hq) (hkeys p hp)] at hpq

lemma precedes_of_key_eq (hs : Comparable s s) (h : naturalKey s = naturalKey t) : Precedes s t := by
  obtain ⟨a, -, ha, -⟩ := hs
  exact ⟨a, a, ha, h ▸ ha, le_rfl⟩

lemma Precedes.key_eq (h : Precedes s t) (h' : Precedes t s) : naturalKey s = naturalKey t := by
  obtain ⟨a, b, ha, hb, hab⟩ := h
  rw [precedes_iff hb ha] at h'
  rw [ha, hb, rank_injective.list_map (hab.antisymm h')]

end Mender.Text
