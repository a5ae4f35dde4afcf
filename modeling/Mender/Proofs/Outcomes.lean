import Mathlib.Data.List.Forall2

/-!
# Computations that can fail

A chain of computations gives a result only if each of them does. Proofs take such chains apart with
`of_bind`, one computation at a time.
-/

namespace Mender

open List

variable {ε α β : Type} {x : Except ε α} {g : α → Except ε β} {b : β} {as : List α} {bs : List β}

lemma of_bind (h : x >>= g = .ok b) : ∃ a, x = .ok a ∧ g a = .ok b := by
  cases x with
  | error e => cases h
  | ok a => exact ⟨a, rfl, h⟩

lemma of_map {f : α → β} (h : f <$> x = .ok b) : ∃ a, x = .ok a ∧ f a = b := by
  cases x with
  | error e => cases h
  | ok a => exact ⟨a, rfl, Except.ok.inj h⟩

lemma exists_of_isOk (h : x.isOk = true) : ∃ a, x = .ok a := by
  cases x with
  | error e => cases h
  | ok a => exact ⟨a, rfl⟩

lemma of_toOption {a : α} (h : x.toOption = some a) : x = .ok a := by
  cases x with
  | error e => cases h
  | ok a => exact congrArg _ (Option.some.inj h)

lemma exists_of_toOption_map {f : α → β} (h : x.toOption.map f = some b) : ∃ a, x = .ok a ∧ f a = b := by
  obtain ⟨a, ha, hb⟩ := Option.map_eq_some_iff.1 h
  exact ⟨a, of_toOption ha, hb⟩

lemma mapM_eq_ok_iff : as.mapM g = .ok bs ↔ Forall₂ (fun a b => g a = .ok b) as bs := by
  induction as generalizing bs with
  | nil =>
    rw [forall₂_nil_left_iff]
    exact ⟨fun h => by cases h; rfl, fun h => by rw [h]; rfl⟩
  | cons a as ih =>
    rw [mapM_cons, forall₂_cons_left_iff]
    constructor
    · intro h
      obtain ⟨b, hb, h⟩ := of_bind h
      obtain ⟨bs', hbs, h⟩ := of_bind h
      cases h
      exact ⟨b, bs', hb, ih.1 hbs, rfl⟩
    · rintro ⟨b, bs', hb, hbs, rfl⟩
      rw [hb, ih.2 hbs]
      rfl

lemma exists_of_mem_mapM (h : as.mapM g = .ok bs) (hb : b ∈ bs) : ∃ a ∈ as, g a = .ok b := by
  obtain ⟨i, hi, rfl⟩ := mem_iff_getElem.1 hb
  obtain ⟨hlength, hget⟩ := forall₂_iff_get.1 (mapM_eq_ok_iff.1 h)
  exact ⟨as[i], getElem_mem _, hget i (hlength ▸ hi) hi⟩

lemma exists_mem_of_mapM (h : as.mapM g = .ok bs) {a : α} (ha : a ∈ as) : ∃ b ∈ bs, g a = .ok b := by
  obtain ⟨i, hi, rfl⟩ := mem_iff_getElem.1 ha
  obtain ⟨hlength, hget⟩ := forall₂_iff_get.1 (mapM_eq_ok_iff.1 h)
  exact ⟨bs[i], getElem_mem _, hget i hi (hlength ▸ hi)⟩

lemma isOk_iff_exists : x.isOk = true ↔ ∃ a, x = .ok a := by
  refine ⟨exists_of_isOk, ?_⟩
  rintro ⟨a, rfl⟩
  rfl

lemma bind_isOk_iff : (x >>= g).isOk = true ↔ ∃ a, x = .ok a ∧ (g a).isOk = true := by
  cases x with
  | error e => exact ⟨nofun, fun ⟨_, h, _⟩ => nomatch h⟩
  | ok a => exact ⟨fun h => ⟨a, rfl, h⟩, fun ⟨_, ha, h⟩ => by cases ha; exact h⟩

lemma mapM_isOk_iff : (as.mapM g).isOk = true ↔ ∀ a ∈ as, (g a).isOk = true := by
  simp only [isOk_iff_exists, mapM_eq_ok_iff]
  induction as with
  | nil => simp
  | cons a as ih =>
    rw [forall_mem_cons, ← ih]
    constructor
    · rintro ⟨_, hb | ⟨hb, hbs⟩⟩
      exact ⟨⟨_, hb⟩, _, hbs⟩
    · rintro ⟨⟨b, hb⟩, bs, hbs⟩
      exact ⟨b :: bs, .cons hb hbs⟩

lemma filterM_of_forall {test : α → Except ε Bool} {p : α → Bool} (h : ∀ a ∈ as, test a = .ok (p a)) :
    as.filterM test = .ok (as.filter p) := by
  have haux (acc : List α) : as.filterAuxM test acc = .ok ((as.filter p).reverse ++ acc) := by
    induction as generalizing acc with
    | nil => rfl
    | cons a as ih =>
      rw [filterAuxM, h a (.head _)]
      change as.filterAuxM test (bif p a then a :: acc else acc) = _
      rw [ih (forall_mem_cons.1 h).2]
      cases ha : p a <;> simp [ha]
  rw [filterM, haux []]
  simp [bind, Except.bind, pure, Except.pure]

end Mender
