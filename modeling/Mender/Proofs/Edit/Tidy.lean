import Mender.Proofs.Edit.Steps
import Mender.Proofs.Syntax.Alike

/-!
# What tidying does elsewhere

Replacing nodes and tidying texts run over whole trees. In a part of the tree where nothing is replaced, the passes
do the same as rebuilding all nodes, unless there are empty texts to take out.
-/

namespace Mender.Edit

open Syntax Node Pass List

variable {rs : List (Nat × Replacement)} {n n' new old : Node}

/-! ## Replacing elsewhere -/

/-- Do replacements leave all of a tree alone? -/
def Avoids (rs : List (Nat × Replacement)) (n : Node) : Prop := ∀ c ∈ n.met, replacementOf? rs c = none

lemma avoids_of_clear (h : Clear n) : Avoids rs n := fun c hc => replacementOf?_unmarked (h c hc)

lemma editing_replacing (h : Avoids rs n) : (replacing rs).editing n = plain.editing n := by
  induction n with
  | h n ih =>
    obtain ⟨hhere, hinside⟩ := forall_met.1 h
    rw [editing_eq (replacing_goesIn rs), editing_eq plain_goesIn, rebuild_congr fun c hc => ih c hc (hinside c hc)]
    exact congrArg _ (funext fun new => (replacing_keepsAt hhere new).trans (plain_keepsAt n new).symm)

/-! ## Joining texts -/

lemma kind_of_isPlainFString (h : isPlainFString n = true) :
    n.kind = .formattedString ∧ (n.get .parts).kind = .seq ∧ isTexts (n.get .parts).parts = true := by
  simp only [isPlainFString, Bool.and_eq_true, beq_iff_eq] at h
  refine ⟨h.1.1, h.1.2, ?_⟩
  rw [← items_run h.1.2]
  exact h.2

lemma idxOf?_parts (h : n.kind = .formattedString) : n.kind.slots.idxOf? .parts = some 2 := by
  rw [h]
  rfl

lemma textParts_leaving_cases {e : Edit} (h : textParts.leaving old new = .ok e) : isPlainFString old = true ∧
        e = .keep (new.setList .parts [leaf .formattedStringText (joined (old.get .parts).parts)]) ∨
      e = .keep new := by
  rw [textParts_leaving] at h
  split at h
  case isTrue hplain =>
    obtain ⟨n₁, hsound, h⟩ := of_bind h
    obtain ⟨-, hseq, -⟩ := kind_of_isPlainFString hplain
    rw [list, items_run hseq] at hsound
    cases h
    rw [eq_of_sound hsound]
    exact .inl ⟨hplain, rfl⟩
  case isFalse =>
    cases h
    exact .inr rfl

lemma loyal_textParts : Loyal textParts where
  goesIn := textParts_goesIn
  keepsAt _ hkind := textParts_keepsAt hkind
  keeps {old new e} hkind hmark he := by
    rcases textParts_leaving_cases he with ⟨hplain, rfl⟩ | rfl
    · have hi := idxOf?_parts (hkind.trans (kind_of_isPlainFString hplain).1)
      rw [setList, set_eq hi]
      refine ⟨_, rfl, hkind, rfl, fun c hc => ?_⟩
      refine (mem_visitedOf_set hc).imp_right fun hc => ?_
      exact ⟨_, mem_singleton.1 hc⟩
    · exact ⟨new, rfl, hkind, hmark, fun _ hc => .inl hc⟩

lemma alike_textParts (h : textParts.image? n = some n') : alike n n' = true := by
  induction n generalizing n' with
  | h n ih =>
    rw [image?_eq_some, editing_eq textParts_goesIn] at h
    obtain ⟨new, hnew, hleave⟩ := of_bind h
    have hsame := alike_rebuild loyal_textParts hnew fun c hc c' hc' => ih c hc hc'
    rcases textParts_leaving_cases hleave with ⟨hplain, heq⟩ | heq
    · cases heq
      obtain ⟨hkind, hseq, htexts⟩ := kind_of_isPlainFString hplain
      have hi := idxOf?_parts hkind
      obtain ⟨ps, -, rfl⟩ := exists_of_rebuild hnew
      rw [setList, set_eq (n := .mk n.kind n.text ps none) hi]
      refine alike_iff.2 ⟨rfl, rfl, alikeParts_set (alike_iff.1 hsame).2.2 fun q hq => ?_⟩
      have hget : n.get .parts = q := by
        rw [get_eq_getD hi, getD_eq_getElem?_getD, hq]
        rfl
      rw [← hget]
      refine .inr ⟨beq_iff_eq.2 hkind, sameTexts_iff.2 ⟨hseq, rfl, htexts, rfl, ?_⟩⟩
      simp [seq, parts, joined, leaf, text]
    · cases heq
      exact hsame

lemma alike_plain (h : plain.image? n = some n') : alike n n' = true := by
  induction n generalizing n' with
  | h n ih =>
    have hnew := rebuild_of_image? plain_goesIn (plain_keepsAt n) h
    exact alike_rebuild loyal_plain hnew fun c hc c' hc' => ih c hc hc'

/-! ## Emptiness -/

lemma isEmptyText_filler (h : n.kind.isFiller = true) : isEmptyText n = false := by
  fun_cases isEmptyText n with
  | case1 hkind | case2 hkind =>
    rw [hkind] at h
    cases h
  | case3 => rfl

section

variable {p : Pass Unit} (hp : Loyal p)
include hp

variable (h : n.rebuild p.editing = .ok new)
include h

lemma isEmptyText_rebuild : isEmptyText new = isEmptyText n := by
  have hnew := rebuiltTo_of_rebuild h
  have hlength := (hnew.list hp.steady (hp.keepsIn _) .parts).length_eq
  rw [isEmptyText, isEmptyText, hnew.kind]
  split
  case h_1 => rw [hnew.text]
  case h_2 => rw [Bool.eq_iff_iff, isEmpty_iff_length_eq_zero, isEmpty_iff_length_eq_zero, hlength]
  case h_3 => rfl

lemma image?_or_isEmptyText (s : Slot) : p.image? (n.get s) = some (new.get s) ∨
    isEmptyText (n.get s) = false ∧ isEmptyText (new.get s) = false := by
  have hkept := hp.get_rebuild h s
  cases hfill : (n.get s).kind.isFiller with
  | true => exact .inr ⟨isEmptyText_filler hfill, isEmptyText_filler (hkept.kind_eq hp.kind_image ▸ hfill)⟩
  | false => exact .inl (hkept.of_node hfill)

end

lemma isEmptyText_plain (h : plain.image? n = some n') : isEmptyText n' = isEmptyText n :=
  isEmptyText_rebuild loyal_plain (rebuild_of_image? plain_goesIn (plain_keepsAt n) h)

lemma isEmptyText_textParts (h : textParts.image? n = some n') (hempty : isEmptyText n' = true) : isEmptyText n = true := by
  rw [image?_eq_some, editing_eq textParts_goesIn] at h
  obtain ⟨new, hnew, hleave⟩ := of_bind h
  rcases textParts_leaving_cases hleave with ⟨hplain, heq⟩ | heq
  · cases heq
    obtain ⟨hkind, hseq, -⟩ := kind_of_isPlainFString hplain
    have hpart : (new.get .parts).kind ≠ .absent := by
      rw [(loyal_textParts.get_rebuild hnew .parts).kind_eq loyal_textParts.kind_image, hseq]
      decide
    have hnewkind : new.kind = .formattedString := by rw [(kind_of_rebuild hnew).1, hkind]
    have hset := get_set_of_kind_ne hpart (seq [leaf .formattedStringText (joined (n.get .parts).parts)])
    rw [isEmptyText, setList, kind_set, hnewkind] at hempty
    rw [list, hset] at hempty
    cases hempty
  · cases heq
    rwa [isEmptyText_rebuild loyal_textParts hnew] at hempty

/-! ## Nothing to tidy -/

/-- Is it a node that tidying would change: an empty field or a sum with an empty side? -/
def isUntidy (n : Node) : Bool := isEmptyField n || isSum n && (isEmptyText (n.get .left) || isEmptyText (n.get .right))

/-- A tree in which no empty texts are to be taken out. -/
def Tidy (n : Node) : Prop := ∀ c ∈ n.met, isUntidy c = false

instance (n : Node) : Decidable (Tidy n) := inferInstanceAs (Decidable (∀ c ∈ n.met, isUntidy c = false))

lemma of_isUntidy (h : isUntidy n = false) :
    isEmptyField n = false ∧ (isSum n = true → isEmptyText (n.get .left) = false ∧ isEmptyText (n.get .right) = false) := by
  rw [isUntidy, Bool.or_eq_false_iff] at h
  refine ⟨h.1, fun hsum => ?_⟩
  rw [hsum, Bool.true_and, Bool.or_eq_false_iff] at h
  exact h.2

lemma places_plain (h : n.rebuild plain.editing = .ok new) (s : Slot) :
    (new.get s).kind = (n.get s).kind ∧ isEmptyText (new.get s) = isEmptyText (n.get s) := by
  refine ⟨(loyal_plain.get_rebuild h s).kind_eq loyal_plain.kind_image, ?_⟩
  rcases image?_or_isEmptyText loyal_plain h s with himage | ⟨hbefore, hafter⟩
  · exact isEmptyText_plain himage
  · rw [hbefore, hafter]

lemma isUntidy_plain (h : n.rebuild plain.editing = .ok new) : isUntidy new = isUntidy n := by
  have hplaces := places_plain h
  simp only [isUntidy, isEmptyField, isSum, (kind_of_rebuild h).1, (hplaces _).1, (hplaces _).2]

lemma places_textParts (h : n.rebuild textParts.editing = .ok new) (s : Slot) :
    (new.get s).kind = (n.get s).kind ∧ (isEmptyText (new.get s) = true → isEmptyText (n.get s) = true) := by
  refine ⟨(loyal_textParts.get_rebuild h s).kind_eq loyal_textParts.kind_image, fun hempty => ?_⟩
  rcases image?_or_isEmptyText loyal_textParts h s with himage | ⟨-, hafter⟩
  · exact isEmptyText_textParts himage hempty
  · rw [hafter] at hempty
    cases hempty

lemma isUntidy_textParts (h : n.rebuild textParts.editing = .ok new) (hnew : isUntidy new = true) : isUntidy n = true := by
  have hplaces := places_textParts h
  simp only [isUntidy, isEmptyField, isSum, (kind_of_rebuild h).1, (hplaces _).1, Bool.or_eq_true, Bool.and_eq_true]
    at hnew ⊢
  rcases hnew with ⟨hfield, hstring, hside⟩ | ⟨hsum, hside | hside⟩
  · exact .inl ⟨hfield, hstring, (hplaces _).2 hside⟩
  · exact .inr ⟨hsum, .inl ((hplaces _).2 hside)⟩
  · exact .inr ⟨hsum, .inr ((hplaces _).2 hside)⟩

lemma tidy_plain_iff (h : plain.image? n = some n') : Tidy n' ↔ Tidy n := by
  induction n generalizing n' with
  | h n ih =>
    have hnew := rebuild_of_image? plain_goesIn (plain_keepsAt n) h
    rw [Tidy, Tidy, forall_met, forall_met, isUntidy_plain hnew]
    exact and_congr_right fun _ => Images.forall_iff (loyal_plain.visited_rebuild hnew) fun c hc c' hc' => ih c hc hc'

lemma tidy_textParts (h : textParts.image? n = some n') (htidy : Tidy n) : Tidy n' := by
  refine loyal_textParts.forall_met (fun _ => rfl) (fun c hc c' hc' => ?_) h
  by_cases hkind : c.kind = .formattedString
  · have hkind' : c'.kind = .formattedString := by rw [loyal_textParts.kind_image hc', hkind]
    rw [isUntidy, isEmptyField, isSum, hkind']
    rfl
  · have hnew := rebuild_of_image? textParts_goesIn (textParts_keepsAt hkind) hc'
    exact Bool.eq_false_iff.2 fun huntidy => Bool.eq_false_iff.1 (htidy c hc) (isUntidy_textParts hnew huntidy)

/-! ## Taking out empty texts -/

lemma withoutEmptySide_eq (hleft : isEmptyText (n.get .left) = false) (hright : isEmptyText (n.get .right) = false) :
    withoutEmptySide n = n := by
  simp [withoutEmptySide, hleft, hright]

lemma editing_emptyTexts (h : Tidy n) : emptyTexts.editing n = plain.editing n := by
  induction n with
  | h n ih =>
    obtain ⟨hhere, hinside⟩ := forall_met.1 h
    rw [editing_eq emptyTexts_goesIn, editing_eq plain_goesIn, rebuild_congr fun c hc => ih c hc (hinside c hc)]
    cases hnew : n.rebuild plain.editing with
    | error fault => rfl
    | ok new =>
      change emptyTexts.leaving n new = plain.leaving n new
      obtain ⟨hfield, hsides⟩ := of_isUntidy hhere
      rw [emptyTexts_leaving, hfield, plain_keepsAt n new]
      split
      case isTrue hfalse => cases hfalse
      case isFalse =>
        split
        case isTrue hsum =>
          obtain ⟨hleft, hright⟩ := hsides hsum
          rw [← (places_plain hnew _).2] at hleft hright
          rw [withoutEmptySide_eq hleft hright]
        case isFalse => rfl

def weightAfter (n : Node) : Nat :=
  if n.kind.isFiller then 0
  else match emptyTexts.image? n with
    | some n' => weightOf n'.opened
    | none => 0

lemma weight_le_opened (n : Node) : n.weight ≤ weightOf n.opened := by
  cases hfill : n.kind.isFiller with
  | true => exact weight_filler hfill ▸ Nat.zero_le _
  | false => rw [opened_node hfill, weightOf_cons, weightOf_nil, Nat.add_zero]

lemma kind_filler (hfill : n.kind.isFiller = true) (h : emptyTexts.image? n = some n') : n'.kind = n.kind := by
  have hkeeps : emptyTexts.KeepsAt n := by
    generalize hk : n.kind = k at hfill
    refine emptyTexts_keepsAt ?_ ?_
    · rw [isEmptyField, hk]
      cases k <;> first | rfl | cases hfill
    · rw [isSum, hk]
      cases k <;> first | rfl | cases hfill
  exact (kind_of_rebuild (rebuild_of_image? emptyTexts_goesIn hkeeps h)).1

lemma weight_le_weightAfter (h : emptyTexts.image? n = some n') : n'.weight ≤ weightAfter n := by
  cases hfill : n.kind.isFiller with
  | true => exact weight_filler (kind_filler hfill h ▸ hfill) ▸ Nat.zero_le _
  | false =>
    rw [weightAfter, hfill, h]
    exact weight_le_opened n'

lemma weightOf_run {isBody : Bool} {ns ms : List Node} (h : RunTo (emptyTexts.editing · = .ok ·) isBody ns ms) :
    weightOf ms ≤ (ns.map weightAfter).sum := by
  induction h with
  | nil => exact Nat.le_refl _
  | @cons n e ns ms he _ ih =>
    rw [weightOf_append, map_cons]
    refine Nat.add_le_add ?_ ih
    cases e with
    | keep n' =>
      have hweight := weight_le_weightAfter (image?_eq_some.2 he)
      rw [Edit.members]
      split
      · exact Nat.zero_le _
      · exact hweight
    | drop => exact Nat.zero_le _
    | splice ns' => exact absurd he (neverSplits_emptyTexts n ns')

lemma weightOf_place {f : Fill} {q q' : Node} (h : PartTo (emptyTexts.editing · = .ok ·) f q q') :
    weightOf q'.opened ≤ (q.opened.map weightAfter).sum := by
  cases h with
  | @run items hseq hitems =>
    rw [opened_run hseq, opened_run (p := .mk q.kind q.text items q.mark) hseq]
    exact weightOf_run hitems
  | filler hfill hseq =>
    rw [opened_filler hfill hseq]
    exact Nat.le_refl _
  | @node _ e hnode he hput =>
    rw [opened_node hnode, map_singleton]
    cases e with
    | keep n' =>
      cases hput
      rw [weightAfter, hnode, image?_eq_some.2 he]
      exact Nat.le_refl _
    | drop =>
      -- what is left of a dropped node is a filler
      cases f <;> cases hput <;> exact Nat.zero_le _
    | splice ns' => cases hput

lemma weightOf_places {fs : List Fill} {ps qs : List Node} (h : PartsTo (emptyTexts.editing · = .ok ·) fs ps qs) :
    weightOf (visitedOf fs qs) ≤ ((visitedOf fs ps).map weightAfter).sum := by
  induction h with
  | cons hq _ ih =>
    rw [visitedOf, visitedOf, weightOf_append, map_append, sum_append]
    exact Nat.add_le_add (weightOf_place hq) ih
  | rest hor =>
    rw [visitedOf_of_rest hor]
    exact Nat.le_refl _

lemma weightOf_get (n : Node) (s : Slot) : weightOf (n.get s).opened ≤ weightOf n.visited :=
  ((opened_get_sublist n s).map weight).sum_le_sum fun _ _ => Nat.zero_le _

lemma weightOf_withoutEmptySide (h : isEmptyText (n.get .left) = true ∨ isEmptyText (n.get .right) = true) :
    weightOf (withoutEmptySide n).opened ≤ weightOf n.visited := by
  rw [withoutEmptySide]
  split
  case isTrue =>
    split
    case isTrue => exact Nat.zero_le _
    case isFalse => exact weightOf_get n .right
  case isFalse hleft =>
    rw [if_pos (h.resolve_left hleft)]
    exact weightOf_get n .left

lemma exists_of_weightAfter_pos (h : 0 < weightAfter n) :
    ∃ new, n.rebuild emptyTexts.editing = .ok new ∧ n.kind.isFiller = false ∧ isEmptyField n = false ∧
      weightAfter n = weightOf (if isSum n then withoutEmptySide new else new).opened := by
  cases hfill : n.kind.isFiller with
  | true =>
    rw [weightAfter, hfill] at h
    cases h
  | false =>
    cases himage : emptyTexts.image? n with
    | none =>
      rw [weightAfter, hfill, himage] at h
      cases h
    | some n' =>
      have hediting := image?_eq_some.1 himage
      rw [editing_eq emptyTexts_goesIn] at hediting
      obtain ⟨new, hnew, hleave⟩ := of_bind hediting
      rw [emptyTexts_leaving] at hleave
      cases hfield : isEmptyField n with
      | true =>
        rw [hfield] at hleave
        cases hleave
      | false =>
        rw [hfield] at hleave
        refine ⟨new, hnew, rfl, rfl, ?_⟩
        rw [weightAfter, hfill, himage]
        cases hleave
        rfl

lemma weightOf_rebuild (h : n.rebuild emptyTexts.editing = .ok new) :
    weightOf new.visited ≤ (n.visited.map weightAfter).sum := by
  have hnew := rebuiltTo_of_rebuild h
  rw [visited, hnew.kind]
  exact weightOf_places hnew.parts

lemma weightAfter_le (n : Node) :
    weightAfter n ≤ (n.visited.map weightAfter).sum + (if holdsTexts n.kind then 1 else 0) := by
  rcases Nat.eq_zero_or_pos (weightAfter n) with hzero | hpos
  · rw [hzero]
    exact Nat.zero_le _
  · obtain ⟨new, hnew, hfill, -, hweight⟩ := exists_of_weightAfter_pos hpos
    have hinside := weightOf_rebuild hnew
    have hkept : weightOf new.opened ≤ (n.visited.map weightAfter).sum + (if holdsTexts n.kind then 1 else 0) := by
      have hkind := (kind_of_rebuild hnew).1
      rw [opened_node (hkind ▸ hfill), weightOf_cons, weightOf_nil, weight_eq, hkind]
      exact Nat.add_le_add_right hinside _
    rw [hweight]
    split
    case isTrue =>
      by_cases hempty : isEmptyText (new.get .left) = true ∨ isEmptyText (new.get .right) = true
      · exact Nat.le_trans (weightOf_withoutEmptySide hempty) (Nat.le_trans hinside (Nat.le_add_right ..))
      · rw [not_or, Bool.not_eq_true, Bool.not_eq_true] at hempty
        rwa [withoutEmptySide_eq hempty.1 hempty.2]
    case isFalse => exact hkept

lemma weightAfter_le_of_isUntidy (hinside : ∀ c ∈ n.visited, Tidy c) (h : isUntidy n = true) :
    weightAfter n ≤ (n.visited.map weightAfter).sum := by
  rcases Nat.eq_zero_or_pos (weightAfter n) with hzero | hpos
  · rw [hzero]
    exact Nat.zero_le _
  · obtain ⟨new, hnew, -, hfield, hweight⟩ := exists_of_weightAfter_pos hpos
    rw [isUntidy, hfield, Bool.false_or, Bool.and_eq_true, Bool.or_eq_true] at h
    obtain ⟨hsum, hempty⟩ := h
    -- the sides are tidy, so they are still empty after they were rebuilt
    have hplain := hnew
    rw [rebuild_congr fun c hc => editing_emptyTexts (hinside c hc)] at hplain
    rw [← (places_plain hplain _).2, ← (places_plain hplain _).2] at hempty
    rw [hweight, if_pos hsum]
    exact Nat.le_trans (weightOf_withoutEmptySide hempty) (weightOf_rebuild hnew)

lemma holdsTexts_of_isUntidy (h : isUntidy n = true) : holdsTexts n.kind = true := by
  simp only [isUntidy, isEmptyField, isSum, Bool.or_eq_true, Bool.and_eq_true] at h
  simp only [holdsTexts, Bool.or_eq_true]
  rcases h with ⟨hfield, -⟩ | ⟨hsum, -⟩
  · exact .inr hfield
  · exact .inl hsum

/-- Taking out empty texts makes a tree lighter, unless it is tidy. -/
lemma weightAfter_le_weight (n : Node) : weightAfter n ≤ n.weight ∧ (¬ Tidy n → weightAfter n < n.weight) := by
  induction n with
  | h n ih =>
    have hsum : (n.visited.map weightAfter).sum ≤ weightOf n.visited := sum_le_sum fun c hc => (ih c hc).1
    have hhere := weightAfter_le n
    rw [weight_eq]
    refine ⟨Nat.le_trans hhere (Nat.add_le_add_right hsum _), fun huntidy => ?_⟩
    by_cases hinside : ∀ c ∈ n.visited, Tidy c
    · have hself : isUntidy n = true := by
        by_contra hself
        exact huntidy (forall_met.2 ⟨Bool.eq_false_iff.2 hself, hinside⟩)
      rw [holdsTexts_of_isUntidy hself]
      exact Nat.lt_succ_of_le (Nat.le_trans (weightAfter_le_of_isUntidy hinside hself) hsum)
    · obtain ⟨c, hc, hcuntidy⟩ : ∃ c ∈ n.visited, ¬ Tidy c := by simpa using hinside
      have hlt : (n.visited.map weightAfter).sum < weightOf n.visited :=
        sum_lt_sum _ _ (fun d hd => (ih d hd).1) ⟨c, hc, (ih c hc).2 hcuntidy⟩
      exact Nat.lt_of_le_of_lt hhere (Nat.add_lt_add_right hlt _)

/-! ## A round of passes -/

lemma image?_congr {p q : Pass Unit} (h : p.editing n = q.editing n) : p.image? n = q.image? n := by
  rw [image?, image?, h]

lemma weight_of_emptyTexts (hmark : n.mark = none) (hkind : isTextual n.kind = false) (hfill : n.kind.isFiller = false)
    (h : emptyTexts.image? n = some n') : n'.kind = n.kind ∧ n'.weight = weightAfter n := by
  have hnew := rebuild_of_image? emptyTexts_goesIn (gentle_emptyTexts.keepsAt n hmark hkind) h
  have hkind' := (kind_of_rebuild hnew).1
  refine ⟨hkind', ?_⟩
  rw [weightAfter, hfill, h]
  exact (congrArg weightOf (opened_node (hkind' ▸ hfill))).symm

lemma of_round (havoids : Avoids rs n) (hkind : isTextual n.kind = false) (hfill : n.kind.isFiller = false)
    (h : became [replacing rs, emptyTexts, textParts] n = some n') :
    n'.kind = n.kind ∧ Clear n' ∧ (Tidy n → alike n n' = true ∧ Tidy n') ∧
      n'.weight ≤ n.weight ∧ (¬ Tidy n → n'.weight < n.weight) := by
  obtain ⟨n₁, h₁, h⟩ := exists_of_became_cons h
  obtain ⟨n₂, h₂, h⟩ := exists_of_became_cons h
  obtain ⟨n₃, h₃, h⟩ := exists_of_became_cons h
  cases h
  rw [image?_congr (editing_replacing havoids)] at h₁
  have hkind₁ := loyal_plain.kind_image h₁
  have hmark₁ : n₁.mark = none := loyal_plain.clear h₁ n₁ (self_mem_met n₁)
  obtain ⟨hkind₂, hweight₂⟩ := weight_of_emptyTexts hmark₁ (hkind₁ ▸ hkind) (hkind₁ ▸ hfill) h₂
  have hweight₁ := weight_eq_of_alike (alike_plain h₁)
  have hweight₃ := weight_eq_of_alike (alike_textParts h₃)
  obtain ⟨hle, hlt⟩ := weightAfter_le_weight n₁
  refine ⟨?_, loyal_textParts.clear h₃, fun htidy => ?_, ?_, fun huntidy => ?_⟩
  · rw [loyal_textParts.kind_image h₃, hkind₂, hkind₁]
  · have htidy₁ := (tidy_plain_iff h₁).2 htidy
    rw [image?_congr (editing_emptyTexts htidy₁)] at h₂
    have htidy₂ := (tidy_plain_iff h₂).2 htidy₁
    exact ⟨alike_trans (alike_plain h₁) (alike_trans (alike_plain h₂) (alike_textParts h₃)), tidy_textParts h₃ htidy₂⟩
  · rwa [hweight₁, ← hweight₃, hweight₂]
  · rw [hweight₁, ← hweight₃, hweight₂]
    exact hlt (mt (tidy_plain_iff h₁).1 huntidy)

/-- **Where rounds of passes replace nothing, they change just the trees that are not tidy.** -/
theorem alike_of_rounds_iff {rss : List (List (Nat × Replacement))}
    (havoids : ∀ rs, rss.head? = some rs → Avoids rs n) (hkind : isTextual n.kind = false)
    (hfill : n.kind.isFiller = false)
    (h : became (rss.flatMap fun rs => [replacing rs, emptyTexts, textParts]) n = some n') :
    n'.weight ≤ n.weight ∧ (alike n n' = true ↔ rss = [] ∨ Tidy n) := by
  induction rss generalizing n with
  | nil =>
    cases h
    exact ⟨Nat.le_refl _, iff_of_true (alike_refl _) (.inl rfl)⟩
  | cons rs rss ih =>
    rw [flatMap_cons, became_append] at h
    obtain ⟨n₁, h₁, h⟩ := Option.bind_eq_some_iff.1 h
    obtain ⟨hkind₁, hclear, htidy, hle, hlt⟩ := of_round (havoids rs rfl) hkind hfill h₁
    -- after the first round there are no marks left, so that nothing is replaced any more
    obtain ⟨hle', hiff⟩ := ih (fun _ _ => avoids_of_clear hclear) (hkind₁ ▸ hkind) (hkind₁ ▸ hfill) h
    refine ⟨Nat.le_trans hle' hle, ⟨fun halike => .inr ?_, ?_⟩⟩
    · by_contra huntidy
      have hweight := weight_eq_of_alike halike
      have := hlt huntidy
      omega
    · rintro (hnil | hn)
      · cases hnil
      · obtain ⟨halike, hn₁⟩ := htidy hn
        exact alike_trans halike (hiff.2 (.inr hn₁))

end Mender.Edit
