import Mathlib.Algebra.GroupWithZero.Nat
import Mathlib.Algebra.Order.BigOperators.Group.List
import Mathlib.Algebra.Order.Group.Nat
import Mender.Proofs.Syntax.Rebuilt

/-!
# Trees that say the same

Two trees are alike when they are the same, marks aside, but for how the texts of f-strings are divided.

* `Node.alike_trans` — to be alike is transitive.
-/

namespace Mender.Syntax.Node

open List

variable {isText : Bool} {ps qs : List Node} {a b q n : Node}

def isTexts (ps : List Node) : Bool := ps.all fun p => p.kind == .formattedStringText

def joined (ps : List Node) : String := String.join (ps.map text)

def sameTexts (p q : Node) : Bool :=
  p.kind == .seq && q.kind == .seq && isTexts p.parts && isTexts q.parts && joined p.parts == joined q.parts

mutual

/-- Two trees are alike when they have the same kinds and characters throughout. In f-strings, runs of texts may be
divided in different ways. -/
def alike : Node → Node → Bool
  | .mk k t ps _, .mk k' t' ps' _ => k == k' && t == t' && alikeList (k == .formattedString) ps ps'

/-- `alike` for lists of parts, those of an f-string or others. -/
def alikeList (isText : Bool) : List Node → List Node → Bool
  | [], [] => true
  | p :: ps, q :: qs => (alike p q || isText && sameTexts p q) && alikeList isText ps qs
  | _, _ => false

end

def AlikePart (isText : Bool) (p q : Node) : Prop := alike p q = true ∨ isText = true ∧ sameTexts p q = true

lemma alikeList_iff : alikeList isText ps qs = true ↔ Forall₂ (AlikePart isText) ps qs := by
  induction ps generalizing qs with
  | nil => cases qs <;> simp [alikeList]
  | cons p ps ih => cases qs <;> simp [alikeList, AlikePart, ih]

lemma alike_iff : alike a b = true ↔ a.kind = b.kind ∧ a.text = b.text ∧
      Forall₂ (AlikePart (a.kind == .formattedString)) a.parts b.parts := by
  obtain ⟨k, t, ps, m⟩ := a
  obtain ⟨k', t', ps', m'⟩ := b
  simp only [alike, Bool.and_eq_true, beq_iff_eq, kind, text, parts, and_assoc, alikeList_iff]

variable {p c : Node}

lemma sameTexts_iff :
    sameTexts p q = true ↔ p.kind = .seq ∧ q.kind = .seq ∧ isTexts p.parts = true ∧ isTexts q.parts = true ∧
      joined p.parts = joined q.parts := by
  simp only [sameTexts, Bool.and_eq_true, beq_iff_eq, and_assoc]

lemma AlikePart.kind_eq (h : AlikePart isText p q) : p.kind = q.kind := by
  rcases h with h | ⟨-, h⟩
  · exact (alike_iff.1 h).1
  · obtain ⟨hp, hq, -⟩ := sameTexts_iff.1 h
    rw [hp, hq]

lemma alike_refl (n : Node) : alike n n = true := by
  induction n using partsInduction with
  | h n ih => exact alike_iff.2 ⟨rfl, rfl, forall₂_same.2 fun p hp => .inl (ih p hp)⟩

lemma texts_of_alike (h : alike p q = true) (hseq : p.kind = .seq) :
    isTexts p.parts = isTexts q.parts ∧ joined p.parts = joined q.parts := by
  obtain ⟨-, -, hparts⟩ := alike_iff.1 h
  rw [hseq] at hparts
  generalize p.parts = ps at hparts ⊢
  generalize q.parts = qs at hparts ⊢
  induction hparts with
  | nil => exact ⟨rfl, rfl⟩
  | @cons c d ps qs hcd _ ih =>
    obtain ⟨hkind, htext, -⟩ := alike_iff.1 (hcd.resolve_right fun hfalse => Bool.false_ne_true hfalse.1)
    obtain ⟨htexts, hjoined⟩ := ih
    refine ⟨?_, ?_⟩
    · rw [isTexts, isTexts, all_cons, all_cons, hkind]
      exact congrArg _ htexts
    · rw [joined, joined, map_cons, map_cons, String.join_cons, String.join_cons, htext]
      exact congrArg _ hjoined

lemma AlikePart.trans {p r : Node} (ih : ∀ {q r : Node}, alike p q = true → alike q r = true → alike p r = true)
    (hpq : AlikePart isText p q) (hqr : AlikePart isText q r) : AlikePart isText p r := by
  rcases hpq with hpq | ⟨htext, hpq⟩
  · rcases hqr with hqr | ⟨htext, hqr⟩
    · exact .inl (ih hpq hqr)
    · obtain ⟨hq, hr, hqtexts, hrtexts, hjoined⟩ := sameTexts_iff.1 hqr
      have hp : p.kind = .seq := (alike_iff.1 hpq).1.trans hq
      obtain ⟨htexts, hjoined'⟩ := texts_of_alike hpq hp
      exact .inr ⟨htext, sameTexts_iff.2 ⟨hp, hr, htexts.trans hqtexts, hrtexts, hjoined'.trans hjoined⟩⟩
  · obtain ⟨hp, hq, hptexts, hqtexts, hjoined⟩ := sameTexts_iff.1 hpq
    refine .inr ⟨htext, ?_⟩
    rcases hqr with hqr | ⟨-, hqr⟩
    · obtain ⟨htexts, hjoined'⟩ := texts_of_alike hqr hq
      exact sameTexts_iff.2
        ⟨hp, (alike_iff.1 hqr).1.symm.trans hq, hptexts, htexts.symm.trans hqtexts, hjoined.trans hjoined'⟩
    · obtain ⟨-, hr, -, hrtexts, hjoined'⟩ := sameTexts_iff.1 hqr
      exact sameTexts_iff.2 ⟨hp, hr, hptexts, hrtexts, hjoined.trans hjoined'⟩

lemma alike_trans (hab : alike a b = true) (hbc : alike b c = true) : alike a c = true := by
  induction a using partsInduction generalizing b c with
  | h a ih =>
    obtain ⟨hkind, htext, hparts⟩ := alike_iff.1 hab
    obtain ⟨hkind', htext', hparts'⟩ := alike_iff.1 hbc
    refine alike_iff.2 ⟨hkind.trans hkind', htext.trans htext', ?_⟩
    rw [← hkind] at hparts'
    generalize a.parts = as at ih hparts ⊢
    generalize b.parts = bs at hparts hparts'
    generalize c.parts = cs at hparts' ⊢
    induction hparts generalizing cs with
    | nil =>
      cases hparts'
      exact .nil
    | @cons p q ps qs hpq _ ih' =>
      cases hparts' with
      | cons hqr hparts' =>
        refine .cons (hpq.trans (fun h h' => ih p (.head _) h h') hqr) ?_
        exact ih' (forall_mem_cons.1 ih).2 _ hparts'

lemma alikeParts_set (h : Forall₂ (AlikePart isText) ps qs) {i : Nat}
    (hq : ∀ p, ps[i]? = some p → AlikePart isText p q) : Forall₂ (AlikePart isText) ps (qs.set i q) := by
  induction h generalizing i with
  | nil => exact .nil
  | @cons p q' ps qs hpq htail ih =>
    cases i with
    | zero => exact .cons (hq p rfl) htail
    | succ i => exact .cons hpq (ih hq)

/-! ## What loyal passes make of trees -/

section

open Pass

lemma alike_of_keptPart {Q : Node → Node → Prop} (hQ : ∀ {c c'}, Q c c' → alike c c' = true) {q' : Node}
    (h : KeptPart Q q q') : alike q q' = true := by
  cases h with
  | run _ hitems => exact alike_iff.2 ⟨rfl, rfl, hitems.imp fun _ _ hc => .inl (hQ hc)⟩
  | filler => exact alike_refl q
  | node _ h => exact hQ h

lemma alike_rebuild {p : Pass Unit} (hp : Loyal p) {new : Node} (h : n.rebuild p.editing = .ok new)
    (ih : ∀ c ∈ n.visited, ∀ c', p.image? c = some c' → alike c c' = true) : alike n new = true := by
  have hnew := rebuiltTo_of_rebuild h
  have hsteady : Steady fun c c' => p.image? c = some c' ∧ alike c c' = true :=
    ⟨fun hc => hp.steady.isFiller hc.1, fun hc => hp.steady.isSpentLine hc.1⟩
  refine alike_iff.2 ⟨hnew.kind.symm, hnew.text.symm, (keptPart_of_partsTo hsteady hnew.parts fun c hc e he => ?_).imp ?_⟩
  · obtain ⟨c', hc', -, rfl⟩ := hp.exists_image? he
    exact ⟨c', rfl, hc', ih c hc c' hc'⟩
  · rintro q q' (hkept | rfl)
    · exact .inl (alike_of_keptPart And.right hkept)
    · exact .inl (alike_refl q')

end

/-! ## Weights -/

/-- Is this a kind of nodes that hold other texts: a sum, a concatenation or a field of an f-string? -/
def holdsTexts (k : Kind) : Bool := k == .binaryOperation || k == .concatenatedString || k == .formattedStringExpression

/-- How many nodes that hold other texts a pass meets. -/
def weight (n : Node) : Nat := n.met.countP fun c => holdsTexts c.kind

def weightOf (ns : List Node) : Nat := (ns.map weight).sum

lemma weight_eq (n : Node) : n.weight = weightOf n.visited + (if holdsTexts n.kind then 1 else 0) := by
  rw [weight, met_eq, countP_cons, countP_flatMap]
  rfl

@[simp] lemma weightOf_nil : weightOf [] = 0 := rfl

@[simp] lemma weightOf_cons (ns : List Node) : weightOf (n :: ns) = n.weight + weightOf ns := rfl

@[simp] lemma weightOf_append (ms ns : List Node) : weightOf (ms ++ ns) = weightOf ms + weightOf ns := by
  rw [weightOf, map_append, sum_append]
  rfl

lemma weight_of_no_places (h : n.kind.shape = []) : n.weight = 0 := by
  have hkind : holdsTexts n.kind = false := by
    generalize n.kind = k at h
    cases k <;> first | rfl | cases h
  have hvisited : n.visited = [] := by rw [visited, h]; rfl
  rw [weight_eq, hkind, hvisited]
  rfl

lemma weight_filler (h : n.kind.isFiller = true) : n.weight = 0 := by
  refine weight_of_no_places ?_
  generalize n.kind = k at h
  cases k <;> first | rfl | cases h

lemma weightOf_texts (h : isTexts ps = true) : weightOf ps = 0 := by
  induction ps with
  | nil => rfl
  | cons p ps ih =>
    rw [isTexts, all_cons, Bool.and_eq_true, beq_iff_eq] at h
    rw [weightOf_cons, ih h.2, weight_of_no_places (by rw [h.1]; rfl)]

lemma weightOf_parts (h : Forall₂ (AlikePart false) ps qs)
    (ih : ∀ c ∈ ps, ∀ d, alike c d = true → c.weight = d.weight) : weightOf ps = weightOf qs := by
  induction h with
  | nil => rfl
  | @cons c d ps qs hcd _ ih' =>
    have hsame := hcd.resolve_right fun hfalse => Bool.false_ne_true hfalse.1
    rw [weightOf_cons, weightOf_cons, ih c (.head _) d hsame, ih' (forall_mem_cons.1 ih).2]

lemma weightOf_opened (h : AlikePart isText p q)
    (ih : ∀ c ∈ p.opened, ∀ d, alike c d = true → c.weight = d.weight) : weightOf p.opened = weightOf q.opened := by
  have hkind := h.kind_eq
  rcases place_cases p with hseq | ⟨hfill, hseq⟩ | hnode
  · rw [opened_run hseq] at ih ⊢
    rw [opened_run (hkind ▸ hseq)]
    rcases h with h | ⟨-, h⟩
    · obtain ⟨-, -, hparts⟩ := alike_iff.1 h
      rw [hseq] at hparts
      exact weightOf_parts hparts ih
    · obtain ⟨-, -, hp, hq, -⟩ := sameTexts_iff.1 h
      rw [weightOf_texts hp, weightOf_texts hq]
  · rw [opened_filler hfill hseq, opened_filler (hkind ▸ hfill) (hkind ▸ hseq)]
  · rw [opened_node hnode] at ih ⊢
    rcases h with h | ⟨-, h⟩
    · rw [opened_node (hkind ▸ hnode), weightOf_cons, weightOf_cons, ih p (.head _) q h]
    · exact absurd (sameTexts_iff.1 h).1 (ne_seq_of_isFiller hnode)

lemma weightOf_visitedOf {fs : List Fill} (h : Forall₂ (AlikePart isText) ps qs)
    (ih : ∀ c ∈ visitedOf fs ps, ∀ d, alike c d = true → c.weight = d.weight) :
    weightOf (visitedOf fs ps) = weightOf (visitedOf fs qs) := by
  induction h generalizing fs with
  | nil => rfl
  | @cons p q ps qs hpq _ ih' =>
    cases fs with
    | nil => rfl
    | cons f fs =>
      rw [visitedOf] at ih
      rw [visitedOf, visitedOf, weightOf_append, weightOf_append,
        weightOf_opened hpq fun c hc => ih c (mem_append_left _ hc),
        ih' fun c hc => ih c (mem_append_right _ hc)]

lemma weight_eq_of_alike (h : alike a b = true) : a.weight = b.weight := by
  induction a generalizing b with
  | h a ih =>
    obtain ⟨hkind, -, hparts⟩ := alike_iff.1 h
    rw [weight_eq, weight_eq b, ← hkind, visited, visited, ← hkind]
    rw [weightOf_visitedOf hparts fun c hc d hcd => ih c hc hcd]

end Mender.Syntax.Node
