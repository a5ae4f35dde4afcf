import Mender.Edit.Frames
import Mender.Proofs.Edit.Steps

/-!
# Statements and the blocks around them

A statement of a module stands in a block of the module, or in a block of a statement of the module. A pass that keeps
all the nodes on the way to a statement keeps the statement at the end of that way.

* `Way.exists_image` — what a pass makes of a way that it keeps.
-/

namespace Mender.Edit

open Syntax Node Pass List

/-- What stands in the blocks of a node. -/
def blocks (n : Node) : List Node := [.body, .orelse, .handlers, .finalbody].flatMap fun s => (n.get s).opened

/-- The way from a node through blocks to a statement, along nodes of which `P` holds. -/
inductive Way (P : Node → Prop) : Node → List Node → Node → Prop
  | last {s : Node} : isStatement s.kind = true → P s → Way P s [] s
  | cons {n d s : Node} {w : List Node} : isFrame n.kind = true → P n → d ∈ blocks n → Way P d w s → Way P n (d :: w) s

/-- Can a statement be reached from a node through blocks? -/
def HasStatement (n s : Node) : Prop := ∃ w, Way (fun _ => True) n w s

lemma kind_of_isFrame {k : Kind} (h : isFrame k = true) : k.isFiller = false ∧ isTextual k = false := by
  cases k <;> first | cases h; done | exact ⟨rfl, rfl⟩

lemma kind_of_isStatement {k : Kind} (h : isStatement k = true) :
    k.isFiller = false ∧ isTextual k = false ∧ k ≠ .simpleStatementLine ∧ k ≠ .simpleStatementSuite := by
  cases k <;> first | cases h; done | exact ⟨rfl, rfl, by decide, by decide⟩

namespace Way

variable {P Q : Node → Prop} {n s : Node} {w : List Node}

variable (h : Way P n w s)
include h

lemma kind : n.kind.isFiller = false ∧ isTextual n.kind = false := by
  cases h with
  | last hkind _ => exact ⟨(kind_of_isStatement hkind).1, (kind_of_isStatement hkind).2.1⟩
  | cons hkind _ _ _ => exact kind_of_isFrame hkind

lemma kind_last : isStatement s.kind = true := by
  induction h with
  | last hkind _ => exact hkind
  | cons _ _ _ _ ih => exact ih

lemma at_last : P s := by
  induction h with
  | last _ hs => exact hs
  | cons _ _ _ _ ih => exact ih

lemma handedDown (hn : Q n)
    (hdown : ∀ {c d : Node}, isFrame c.kind = true → d ∈ blocks c → Q c → Q d) : Way Q n w s := by
  induction h with
  | last hkind _ => exact .last hkind hn
  | cons hkind _ hd _ ih => exact .cons hkind hn hd (ih (hdown hkind hd hn))

end Way

/-! ## One pass -/

section

variable {p : Pass Unit} {d : Node}

lemma mem_run {isBody : Bool} {ns ms : List Node} (h : RunTo (p.editing · = .ok ·) isBody ns ms) (hd : d ∈ ns) :
    ∃ e, p.editing d = .ok e ∧ ∀ d', e = .keep d' → (d'.isSpentLine = true → d.isSpentLine = true) → d' ∈ ms := by
  induction h with
  | nil => cases hd
  | @cons n e ns ms he _ ih =>
    rcases mem_cons.1 hd with rfl | hd
    · refine ⟨e, he, fun d' heq hspent => mem_append_left _ ?_⟩
      rw [heq, Edit.members, if_neg]
      · exact mem_singleton.2 rfl
      · rintro hline
        simp only [Bool.and_eq_true, Bool.not_eq_true'] at hline
        rw [hspent hline.1.2] at hline
        cases hline.2
    · obtain ⟨e', he', hmem⟩ := ih hd
      exact ⟨e', he', fun d' heq hspent => mem_append_right _ (hmem d' heq hspent)⟩

lemma mem_opened {f : Fill} {q q' : Node} (h : PartTo (p.editing · = .ok ·) f q q') (hd : d ∈ q.opened) :
    ∃ e, p.editing d = .ok e ∧ ∀ d', e = .keep d' → d'.kind.isFiller = false →
      (d'.isSpentLine = true → d.isSpentLine = true) → d' ∈ q'.opened := by
  cases h with
  | @run items hseq hitems =>
    rw [opened_run hseq] at hd
    rw [opened_run (p := .mk q.kind q.text items q.mark) hseq]
    obtain ⟨e, he, hmem⟩ := mem_run hitems hd
    exact ⟨e, he, fun d' heq _ hspent => hmem d' heq hspent⟩
  | filler hfill hseq =>
    rw [opened_filler hfill hseq] at hd
    cases hd
  | @node _ e hnode he hput =>
    rw [opened_node hnode] at hd
    cases mem_singleton.1 hd
    refine ⟨e, he, fun d' heq hfill _ => ?_⟩
    rw [heq] at hput
    cases hput
    rw [opened_node hfill]
    exact mem_singleton.2 rfl

end

lemma get_line {n : Node} (h : n.kind = .simpleStatementLine ∨ n.kind = .simpleStatementSuite) {s : Slot}
    (hs : s ∈ [Slot.body, .orelse, .handlers, .finalbody]) (hne : s ≠ .body) : n.get s = absent := by
  have hnone : n.kind.slots.idxOf? s = none := by
    simp only [mem_cons, not_mem_nil, or_false] at hs
    rcases h with h | h <;> rw [h] <;> rcases hs with rfl | rfl | rfl | rfl <;> first | rfl | exact absurd rfl hne
  rw [Node.get, hnone]

lemma isSpentLine_of_block {R : Node → Edit → Prop} {f : Fill} {n n' d d' : Node} {s : Slot}
    (hkind : n'.kind = n.kind) (hs : s ∈ [Slot.body, .orelse, .handlers, .finalbody])
    (hpart : PartTo R f (n.get s) (n'.get s)) (hd : d ∈ (n.get s).opened) (hd' : d' ∈ (n'.get s).opened)
    (hspent : n'.isSpentLine = true) : n.isSpentLine = true := by
  rw [isSpentLine, hkind, Bool.and_eq_true, List.isEmpty_iff] at hspent
  obtain ⟨hline, hempty⟩ := hspent
  have hbody : s = .body := by
    by_contra hne
    rw [get_line (by simpa using hline) hs hne] at hd
    cases hd
  subst hbody
  rw [isSpentLine, Bool.and_eq_true, List.isEmpty_iff]
  refine ⟨hline, ?_⟩
  rw [Node.list] at hempty
  generalize n'.get .body = q at hpart hempty hd'
  cases hpart with
  | @run items hseq =>
    rw [items_run (p := .mk (n.get .body).kind _ _ _) hseq] at hempty
    rw [opened_run (p := .mk (n.get .body).kind _ _ _) hseq, hempty] at hd'
    cases hd'
  | filler hfill hseq =>
    rw [opened_filler hfill hseq] at hd
    cases hd
  | node hnode => exact if_neg (ne_seq_of_isFiller hnode)

namespace Way

lemma exists_image {p : Pass Unit} (hgo : p.GoesIn) {n s : Node} {w : List Node} (hway : Way p.KeepsAt n w s)
    {e : Edit} (he : p.editing n = .ok e) :
    ∃ n' w' s', Forall₂ (fun c c' => p.image? c = some c') (n :: w) (n' :: w') ∧
      Way (fun c => c.mark = none) n' w' s' ∧ (n'.isSpentLine = true → n.isSpentLine = true) := by
  induction hway generalizing e with
  | @last s hkind hkeeps =>
    obtain ⟨s', hs'⟩ := exists_image?_of_keepsAt hgo hkeeps he
    obtain ⟨hkind', hmark⟩ := kind_of_rebuild (rebuild_of_image? hgo hkeeps hs')
    refine ⟨s', [], s', .cons hs' .nil, .last (hkind'.symm ▸ hkind) hmark, fun hspent => ?_⟩
    obtain ⟨-, -, hline, hsuite⟩ := kind_of_isStatement hkind
    simp [isSpentLine, hkind', hline, hsuite] at hspent
  | @cons n d s w hkind hkeeps hd _ ih =>
    obtain ⟨n', hn'⟩ := exists_image?_of_keepsAt hgo hkeeps he
    have hrebuild := rebuild_of_image? hgo hkeeps hn'
    obtain ⟨hkind', hmark⟩ := kind_of_rebuild hrebuild
    obtain ⟨slot, hslot, hd⟩ := mem_flatMap.1 hd
    obtain ⟨f, hf⟩ := (rebuiltTo_of_rebuild hrebuild).partTo_get slot
    obtain ⟨e', he', hmem⟩ := mem_opened hf hd
    obtain ⟨d', w', s', himages, hway', hspent⟩ := ih he'
    have hd' : e' = .keep d' := by
      have himage := image?_eq_some.1 (forall₂_cons.1 himages).1
      rw [he'] at himage
      exact Except.ok.inj himage
    have hmem' := hmem d' hd' hway'.kind.1 hspent
    refine ⟨n', d' :: w', s', .cons hn' himages,
      .cons (hkind'.symm ▸ hkind) hmark (mem_flatMap.2 ⟨slot, hslot, hmem'⟩) hway', fun hline => ?_⟩
    exact isSpentLine_of_block hkind' hslot hf hd hmem' hline

end Way

/-! ## Rows of passes -/

lemma forall₂_became_cons {p : Pass Unit} {ps : List (Pass Unit)} {ns ms os : List Node}
    (h : Forall₂ (fun c c' => p.image? c = some c') ns ms)
    (h' : Forall₂ (fun c c' => became ps c = some c') ms os) :
    Forall₂ (fun c c' => became (p :: ps) c = some c') ns os := by
  induction h generalizing os with
  | nil =>
    cases h'
    exact .nil
  | cons hc _ ih =>
    cases h' with
    | cons hc' h' =>
      refine .cons ?_ (ih h')
      rw [became_cons, hc]
      exact hc'

namespace Way

variable {P Q : Node → Prop} {ps : List (Pass Unit)} {n n' s s' : Node} {w w' : List Node}

lemma mono (h : Way P n w s)
    (hPQ : ∀ c : Node, (isFrame c.kind = true ∨ isStatement c.kind = true) → P c → Q c) : Way Q n w s := by
  induction h with
  | last hkind hs => exact .last hkind (hPQ _ (.inr hkind) hs)
  | cons hkind hn hd _ ih => exact .cons hkind (hPQ _ (.inl hkind) hn) hd ih

lemma exists_became (hps : ∀ p ∈ ps, Gentle p) (hway : Way (fun c => c.mark = none) n w s) (h : became ps n = some n') :
    ∃ w' s', Forall₂ (fun c c' => became ps c = some c') (n :: w) (n' :: w') ∧
      Way (fun c => c.mark = none) n' w' s' := by
  induction ps generalizing n w s with
  | nil =>
    cases h
    exact ⟨w, s, forall₂_same.2 fun _ _ => rfl, hway⟩
  | cons p ps ih =>
    obtain ⟨n₁, hn₁, h⟩ := exists_of_became_cons h
    have hp := hps p (.head _)
    have hkeeps : Way p.KeepsAt n w s := hway.mono fun c hkind hmark =>
      hp.keepsAt c hmark (hkind.elim (fun h => (kind_of_isFrame h).2) fun h => (kind_of_isStatement h).2.1)
    obtain ⟨n₂, w₁, s₁, himages, hway₁, -⟩ := hkeeps.exists_image hp.goesIn (image?_eq_some.1 hn₁)
    cases (forall₂_cons.1 himages).1.symm.trans hn₁
    obtain ⟨w', s', hbecame, hway'⟩ := ih (forall_mem_cons.1 hps).2 hway₁ h
    exact ⟨w', s', forall₂_became_cons himages hbecame, hway'⟩

lemma stands (hway : Way P n w s) (hway' : Way Q n' w' s')
    (h : Forall₂ (fun c c' => became ps c = some c') (n :: w) (n' :: w')) : Stands ps n n' s s' := by
  induction hway generalizing n' w' with
  | last =>
    obtain ⟨hs, hnil⟩ := forall₂_cons.1 h
    cases hnil
    cases hway'
    exact .here hs
  | cons _ _ hd _ ih =>
    obtain ⟨hn, htail⟩ := forall₂_cons.1 h
    cases hway' with
    | last => cases htail
    | cons _ _ hd' hway' =>
      obtain ⟨slot, -, hd⟩ := mem_flatMap.1 hd
      obtain ⟨slot', -, hd'⟩ := mem_flatMap.1 hd'
      exact .inside hn ((opened_get_sublist _ slot).mem hd) ((opened_get_sublist _ slot').mem hd') (ih hway' htail)

/-- **A statement whose way the first pass keeps, still stands after a row of passes.** -/
theorem exists_stands {p : Pass Unit} (hp : p.GoesIn) (hps : ∀ q ∈ ps, Gentle q) (hway : Way p.KeepsAt n w s)
    (h : became (p :: ps) n = some n') : ∃ s', Stands (p :: ps) n n' s s' := by
  obtain ⟨n₁, hn₁, h⟩ := exists_of_became_cons h
  obtain ⟨n₂, w₁, s₁, himages, hway₁, -⟩ := hway.exists_image hp (image?_eq_some.1 hn₁)
  cases (forall₂_cons.1 himages).1.symm.trans hn₁
  obtain ⟨w', s', hbecame, hway'⟩ := hway₁.exists_became hps h
  exact ⟨s', hway.stands hway' (forall₂_became_cons himages hbecame)⟩

end Way

end Mender.Edit
