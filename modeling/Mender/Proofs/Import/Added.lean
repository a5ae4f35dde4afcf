import Mender.Import.Add
import Mender.Proofs.Lists
import Mender.Proofs.Syntax.Making

/-!
# What is added for one object

A codemod often asks for the same object many times. Then there is just one object to add, which joins a statement that is
there or gets a statement of its own.

* `asks_joining` — so it stays while statements are joined;
* `exists_withStatements` — what the statement of its own does to the module.
-/

namespace Mender.Import.Add

open Syntax Node List

variable {m name a : String} {o : Object} {α : Type}

/-- Is there nothing left to add but one object of a module? -/
structure Asks (m : String) (o : Object) (w : Wanted) : Prop where
  modules : w.modules = []
  renamed : w.renamed = []
  objects : w.objects = [] ∨ w.objects = [(m, [o])]

lemma eraseDups_of_forall_eq [BEq α] [LawfulBEq α] {as : List α} {a : α} (h : ∀ b ∈ as, b = a)
    (hne : as ≠ []) : as.eraseDups = [a] := by
  obtain ⟨b, bs, rfl⟩ := exists_cons_of_ne_nil hne
  rw [forall_mem_cons] at h
  obtain ⟨rfl, h⟩ := h
  have hnone : bs.filter (fun c => ! c == b) = [] := by
    rw [filter_eq_nil_iff]
    intro c hc
    simp [h c hc]
  rw [eraseDups_cons, hnone, eraseDups_nil]

lemma filter_singleton_cases (p : α → Bool) (a : α) : [a].filter p = [] ∨ [a].filter p = [a] := by
  rw [filter_singleton]
  cases p a
  · exact .inl rfl
  · exact .inr rfl

lemma sortedNames_nil : sortedNames [] = [] := by
  rw [sortedNames, eraseDups_nil, mergeSort_nil]

lemma sortedNames_of_forall_eq {names : List String} (h : ∀ b ∈ names, b = a) (hne : names ≠ []) :
    sortedNames names = [a] := by
  rw [sortedNames, eraseDups_of_forall_eq h hne, mergeSort_singleton]

lemma asks_of {items : List Item} (h : ∀ i ∈ items, i = ⟨m, some name, none⟩) :
    Asks m (name, none) (Wanted.of items) := by
  have hnone {p : Item → Bool} (hp : p ⟨m, some name, none⟩ = false) : items.filter p = [] := by
    rw [filter_eq_nil_iff]
    intro i hi
    rw [h i hi, hp]
    exact Bool.false_ne_true
  have hall {p : Item → Bool} (hp : p ⟨m, some name, none⟩ = true) : items.filter p = items := by
    rw [filter_eq_self]
    intro i hi
    rw [h i hi, hp]
  simp only [Wanted.of]
  rw [hnone rfl, hnone rfl, hnone rfl, hall rfl, map_nil, sortedNames_nil, map_nil, nil_append]
  refine ⟨rfl, rfl, ?_⟩
  by_cases hitems : items = []
  · left
    rw [hitems, map_nil, sortedNames_nil]
    rfl
  · right
    have hmodules : ∀ b ∈ items.map (·.module), b = m := by
      intro b hb
      obtain ⟨i, hi, rfl⟩ := mem_map.1 hb
      rw [h i hi]
    have hobjects : ∀ b ∈ items.map fun i => (i.object.getD "", i.asName), b = (name, none) := by
      intro b hb
      obtain ⟨i, hi, rfl⟩ := mem_map.1 hb
      rw [h i hi]
      rfl
    rw [sortedNames_of_forall_eq hmodules (mt map_eq_nil_iff.1 hitems), map_singleton, map_singleton,
      hall (beq_self_eq_true m), eraseDups_of_forall_eq hobjects (mt map_eq_nil_iff.1 hitems)]

namespace Asks

variable {w : Wanted}

lemma missing (h : Asks m o w) (module : Node) : Asks m o (w.missing module) := by
  refine ⟨?_, ?_, ?_⟩
  · rw [Wanted.missing, h.modules]
    rfl
  · rw [Wanted.missing, h.renamed]
    rfl
  · rw [Wanted.missing]
    rcases h.objects with hobjects | hobjects
    · rw [hobjects]
      exact .inl rfl
    · rw [hobjects, map_singleton]
      dsimp only
      generalize (fun o => ! any _ _) = p
      rcases filter_singleton_cases p o with hkept | hkept
      · rw [hkept]
        exact .inl rfl
      · rw [hkept]
        exact .inr rfl

lemma without (h : Asks m o w) (module : String) : Asks m o { w with objects := w.objects.filter (·.1 != module) } := by
  refine ⟨h.modules, h.renamed, ?_⟩
  dsimp only
  rcases h.objects with hobjects | hobjects
  · rw [hobjects]
    exact .inl rfl
  · rw [hobjects]
    exact filter_singleton_cases _ _

end Asks

lemma exists_of_joining {old new : Node} {e : Edit} {w w' : Wanted} (h : (joining.leave old new).run w = .ok (e, w')) :
    (w' = w ∧ e = .keep new) ∨
    (old.kind = .importFrom ∧ (∃ module, w' = { w with objects := w.objects.filter (·.1 != module) }) ∧
      ∃ aliases, e = .keep (new.setList .names aliases)) := by
  simp only [joining] at h
  split at h
  next hkind =>
    split at h
    next =>
      cases h
      exact .inl ⟨rfl, rfl⟩
    next module hmodule =>
      obtain ⟨w₁, s₁, hw₁, h⟩ := of_run_bind h
      cases hw₁
      split at h
      next =>
        cases h
        exact .inl ⟨rfl, rfl⟩
      next =>
        obtain ⟨_, s₂, hs₂, h⟩ := of_run_bind h
        cases hs₂
        obtain ⟨new', hnew', h⟩ := of_lift_bind h
        cases h
        obtain rfl := eq_of_sound hnew'
        rw [Bool.and_eq_true, beq_iff_eq] at hkind
        exact .inr ⟨hkind.1, ⟨module, rfl⟩, _, rfl⟩
  next =>
    cases h
    exact .inl ⟨rfl, rfl⟩

lemma asks_joining {n n' : Node} {w w' : Wanted} (h : joining.run n w = .ok (n', w')) (hw : Asks m o w) : Asks m o w' := by
  refine Pass.keeps_edit (fun _ => .pure _) (fun old _ new w e w' h hw => ?_) _ _ _ (Pass.edit_of_run h) hw
  rcases exists_of_joining h with ⟨rfl, -⟩ | ⟨-, ⟨module, rfl⟩, -⟩
  · exact hw
  · exact hw.without module

/-! ## The statement of its own -/

lemma places_le (body : List Node) : (places body).1 ≤ (places body).2 := by
  have hstep (es : List (Node × Nat)) (p : Nat × Nat) (hp : p.1 ≤ 1 ∧ p.1 ≤ p.2) :
      let q := es.foldl (fun (p : Nat × Nat) (e : Node × Nat) =>
        if isTextLine e.1 then (1, 1) else if holdsImport e.1 then (p.1, e.2 + 1) else p) p
      q.1 ≤ 1 ∧ q.1 ≤ q.2 := by
    induction es generalizing p with
    | nil => exact hp
    | cons e es ih =>
      refine ih _ ?_
      dsimp only
      split
      · exact ⟨Nat.le_refl 1, Nat.le_refl 1⟩
      · split
        · exact ⟨hp.1, by omega⟩
        · exact hp
  refine (hstep body.zipIdx _ ?_).2
  split <;> exact ⟨by omega, Nat.le_refl _⟩

lemma exists_withStatements {w : Wanted} (hw : Asks m o w) (hm : m ≠ "__future__") {old new out : Node}
    (h : withStatements w old new = .ok out) :
    out = new ∨ ∃ statement back, fromStatement (m, [o]) = .ok statement ∧
      out = new.setList .body ((new.list .body).take back ++ statement :: opened ((new.list .body).drop back)) := by
  rw [withStatements] at h
  split at h
  next =>
    cases h
    exact .inl rfl
  next hempty =>
    have hobjects : w.objects = [(m, [o])] := hw.objects.resolve_left fun hnil => hempty (by
      rw [Wanted.isEmpty, hw.modules, hw.renamed, hnil]
      rfl)
    have hmerged : mergeObjects [(m, [o])] = [(m, [o])] := rfl
    dsimp only at h
    rw [hw.modules, hw.renamed, hobjects, hmerged, filter_singleton, filter_singleton,
      beq_false_of_ne hm, bne_iff_ne.2 hm] at h
    obtain ⟨futures, hfutures, h⟩ := of_bind h
    obtain ⟨modules, hmodules, h⟩ := of_bind h
    obtain ⟨renamed, hrenamed, h⟩ := of_bind h
    obtain ⟨froms, hfroms, h⟩ := of_bind h
    cases hfutures
    cases hmodules
    cases hrenamed
    cases h
    rcases mapM_eq_ok_iff.1 hfroms with _ | ⟨hstatement, hnil⟩
    cases hnil
    refine .inr ⟨_, (places (old.list .body)).2, hstatement, ?_⟩
    have htake : (new.list .body).take (places (old.list .body)).1 ++
        ((new.list .body).take (places (old.list .body)).2).drop (places (old.list .body)).1 =
        (new.list .body).take (places (old.list .body)).2 := by
      conv_rhs => rw [← take_append_drop (places (old.list .body)).1 (take _ _)]
      rw [take_take, Nat.min_eq_left (places_le _)]
    simp only [reverse_nil, append_nil, htake]
    rw [append_assoc, singleton_append]

end Mender.Import.Add
