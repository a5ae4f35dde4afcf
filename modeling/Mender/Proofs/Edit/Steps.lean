import Mender.Edit.Concat
import Mender.Edit.Replace
import Mender.Proofs.Syntax.Rebuilt

/-!
# What the passes do at one node

Replacing nodes, dropping empty texts and joining texts are passes that go into all nodes and leave most of them as
they are rebuilt. Here is said which nodes they do something else with.

* `replacing_keepsAt` and `image?_of_whole` — a node without a replacement, and one that is replaced as a whole;
* `emptyTexts_keepsAt` and `textParts_keepsAt` — tidying is about sums, fields and f-strings only.
-/

namespace Mender.Edit

open Syntax Pass List Option

variable {rs : List (Nat × Replacement)} {n n' : Node}

/-! ## Replacing -/

lemma replacing_goesIn (rs : List (Nat × Replacement)) : (replacing rs).GoesIn := fun _ => rfl

lemma replacing_leaving (rs : List (Nat × Replacement)) (old new : Node) : (replacing rs).leaving old new =
      match replacementOf? rs old with
      | none => .ok (.keep new)
      | some (.whole e) => .ok e
      | some (.changed cs) => cs.foldlM (fun n c => c.apply n) new >>= fun n => n.sound >>= fun n => .ok (.keep n) := by
  rw [leaving, replacing]
  dsimp only
  cases replacementOf? rs old with
  | none => rfl
  | some r =>
    cases r with
    | whole e => rfl
    | changed cs =>
      simp only [Step.result_bind, Step.result_lift, Step.result_pure, Step.result_foldlM_lift]
      rfl

lemma replacing_keepsAt (h : replacementOf? rs n = none) : (replacing rs).KeepsAt n := by
  intro new
  rw [replacing_leaving, h]

lemma replacementOf?_unmarked (h : n.mark = none) : replacementOf? rs n = none := by
  rw [replacementOf?, h]
  rfl

lemma replacementOf?_append (rs : List (Nat × Replacement)) (m : Nat) (r : Replacement) {m' : Nat}
    (h : n.mark = some m') : replacementOf? (rs ++ [(m, r)]) n = if m = m' then some r else replacementOf? rs n := by
  simp only [replacementOf?, h, bind_some, reverse_append, reverse_cons, reverse_nil,
    nil_append, singleton_append, find?_cons]
  split <;> simp_all

lemma mem_of_replacementOf? {r : Replacement} (h : replacementOf? rs n = some r) : ∃ m, n.mark = some m ∧ (m, r) ∈ rs := by
  obtain ⟨m, hm, h⟩ := bind_eq_some_iff.1 h
  obtain ⟨entry, hfind, rfl⟩ := map_eq_some_iff.1 h
  have hentry := find?_some hfind
  have hmem := mem_reverse.1 (mem_of_find?_eq_some hfind)
  exact ⟨m, hm, beq_iff_eq.1 hentry ▸ hmem⟩

lemma image?_of_whole {e : Edit} (h : replacementOf? rs n = some (.whole e))
    (himage : (replacing rs).image? n = some n') : e = .keep n' := by
  rw [image?_eq_some, editing_eq (replacing_goesIn rs)] at himage
  obtain ⟨new, -, himage⟩ := of_bind himage
  rw [replacing_leaving, h] at himage
  exact Except.ok.inj himage

lemma neverSplits_replacing (h : ∀ m ns, (m, .whole (.splice ns)) ∉ rs) : (replacing rs).NeverSplits := by
  intro n ns hsplice
  rw [editing_eq (replacing_goesIn rs)] at hsplice
  obtain ⟨new, -, hsplice⟩ := of_bind hsplice
  rw [replacing_leaving] at hsplice
  split at hsplice
  case h_1 => cases hsplice
  case h_2 e he =>
    obtain ⟨m, -, hmem⟩ := mem_of_replacementOf? he
    cases hsplice
    exact h m ns hmem
  case h_3 =>
    obtain ⟨_, -, hsplice⟩ := of_bind hsplice
    obtain ⟨_, -, hsplice⟩ := of_bind hsplice
    cases hsplice

/-! ## Tidying -/

lemma emptyTexts_goesIn : emptyTexts.GoesIn := fun _ => rfl

lemma textParts_goesIn : textParts.GoesIn := fun _ => rfl

/-- Is it a field of an f-string with an empty text? -/
def isEmptyField (n : Node) : Bool :=
  n.kind == .formattedStringExpression && ((n.get .expression).kind == .simpleString && isEmptyText (n.get .expression))

/-- Is it a sum or a concatenation? -/
def isSum (n : Node) : Bool := n.kind == .binaryOperation || n.kind == .concatenatedString

lemma emptyTexts_leaving (old new : Node) : emptyTexts.leaving old new =
      .ok (if isEmptyField old then .drop else .keep (if isSum old then withoutEmptySide new else new)) := by
  rw [leaving, emptyTexts]
  dsimp only
  split
  case h_1 hkind =>
    simp only [isEmptyField, isSum, hkind, beq_self_eq_true, Bool.true_and]
    split <;> rfl
  case h_2 hkind =>
    simp only [isEmptyField, isSum, hkind]
    rfl
  case h_3 hkind =>
    simp only [isEmptyField, isSum, hkind]
    rfl
  case h_4 hfield hsum hconcat =>
    simp only [isEmptyField, isSum, beq_eq_false_iff_ne.2 hfield, beq_eq_false_iff_ne.2 hsum, beq_eq_false_iff_ne.2 hconcat]
    rfl

lemma emptyTexts_keepsAt (hfield : isEmptyField n = false) (hsum : isSum n = false) : emptyTexts.KeepsAt n := by
  intro new
  rw [emptyTexts_leaving, hfield, hsum]
  rfl

lemma neverSplits_emptyTexts : emptyTexts.NeverSplits := by
  intro n ns hsplice
  rw [editing_eq emptyTexts_goesIn] at hsplice
  obtain ⟨new, -, hsplice⟩ := of_bind hsplice
  rw [emptyTexts_leaving] at hsplice
  split at hsplice <;> cases hsplice

lemma textParts_leaving (old new : Node) : textParts.leaving old new = if isPlainFString old then
        (new.setList .parts [Node.leaf .formattedStringText (String.join ((old.list .parts).map Node.text))]).sound >>=
          fun n => .ok (.keep n)
      else .ok (.keep new) := by
  rw [leaving, textParts]
  dsimp only
  split
  · simp only [Step.result_bind, Step.result_lift, Step.result_pure]
    rfl
  · rfl

lemma textParts_keepsAt (h : n.kind ≠ .formattedString) : textParts.KeepsAt n := by
  intro new
  rw [textParts_leaving]
  simp [isPlainFString, h]

lemma neverSplits_textParts : textParts.NeverSplits := by
  intro n ns hsplice
  rw [editing_eq textParts_goesIn] at hsplice
  obtain ⟨new, -, hsplice⟩ := of_bind hsplice
  rw [textParts_leaving] at hsplice
  split at hsplice
  · obtain ⟨_, -, hsplice⟩ := of_bind hsplice
    cases hsplice
  · cases hsplice

/-! ## Rows of passes -/

def isTextual (k : Kind) : Bool :=
  k == .formattedString || k == .formattedStringExpression || k == .binaryOperation || k == .concatenatedString

/-- A pass that goes into all nodes, makes one node of each and does nothing with nodes of the other kinds that have
no mark. -/
structure Gentle (p : Pass Unit) : Prop where
  goesIn : p.GoesIn
  neverSplits : p.NeverSplits
  keepsAt : ∀ n, n.mark = none → isTextual n.kind = false → p.KeepsAt n

lemma gentle_replacing (h : ∀ m ns, (m, .whole (.splice ns)) ∉ rs) : Gentle (replacing rs) where
  goesIn := replacing_goesIn rs
  neverSplits := neverSplits_replacing h
  keepsAt _ hmark _ := replacing_keepsAt (replacementOf?_unmarked hmark)

lemma gentle_emptyTexts : Gentle emptyTexts where
  goesIn := emptyTexts_goesIn
  neverSplits := neverSplits_emptyTexts
  keepsAt n _ hkind := by
    simp only [isTextual, Bool.or_eq_false_iff] at hkind
    obtain ⟨⟨⟨-, hfield⟩, hsum⟩, hconcat⟩ := hkind
    exact emptyTexts_keepsAt (by rw [isEmptyField, hfield]; rfl) (by rw [isSum, hsum, hconcat]; rfl)

lemma gentle_textParts : Gentle textParts where
  goesIn := textParts_goesIn
  neverSplits := neverSplits_textParts
  keepsAt n _ hkind := textParts_keepsAt (by rintro h; rw [h] at hkind; cases hkind)

namespace Gentle

variable {ps : List (Pass Unit)}

lemma kind_of_image? {p : Pass Unit} (hp : Gentle p) (hmark : n.mark = none) (hkind : isTextual n.kind = false)
    (h : p.image? n = some n') : n'.kind = n.kind ∧ n'.mark = none :=
  Node.kind_of_rebuild (rebuild_of_image? hp.goesIn (hp.keepsAt n hmark hkind) h)

variable (hps : ∀ p ∈ ps, Gentle p) (hmark : n.mark = none) (hkind : isTextual n.kind = false)
include hps hmark hkind

lemma kind_of_became (h : became ps n = some n') : n'.kind = n.kind ∧ n'.mark = none := by
  induction ps generalizing n with
  | nil =>
    cases h
    exact ⟨rfl, hmark⟩
  | cons p ps ih =>
    obtain ⟨n₁, hn₁, h⟩ := exists_of_became_cons h
    have hkept := (hps p (.head _)).kind_of_image? hmark hkind hn₁
    rw [← hkept.1] at hkind ⊢
    exact ih (forall_mem_cons.1 hps).2 hkept.2 hkind h

/-- What a run becomes, and that nodes in it become something if the passes do nothing with them. -/
lemma list_of_became {s : Slot} {i : Nat} {f : Fill} (hi : n.kind.slots.idxOf? s = some i)
    (hf : (n.kind.shape.map Prod.snd)[i]? = some f) (hbody : (f == .body) = false) (hrun : (n.get s).kind = .seq)
    (h : became ps n = some n') : n'.list s = (n.list s).filterMap (became ps) ∧
      ∀ c ∈ n.list s, c.mark = none → isTextual c.kind = false → ∃ c', became ps c = some c' := by
  induction ps generalizing n with
  | nil =>
    cases h
    exact ⟨filterMap_some.symm, fun c _ _ _ => ⟨c, rfl⟩⟩
  | cons p ps ih =>
    obtain ⟨n₁, hn₁, h⟩ := exists_of_became_cons h
    have hp := hps p (.head _)
    have hrebuild := rebuild_of_image? hp.goesIn (hp.keepsAt n hmark hkind) hn₁
    obtain ⟨hkind₁, hmark₁⟩ := hp.kind_of_image? hmark hkind hn₁
    obtain ⟨hrun₁, hlist₁, hediting⟩ := list_of_rebuild hp.neverSplits hrebuild hi hf hbody hrun
    rw [← hkind₁] at hkind hi hf
    obtain ⟨hlist, hmembers⟩ := ih (forall_mem_cons.1 hps).2 hmark₁ hkind hi hf hrun₁ h
    refine ⟨?_, fun c hc hcmark hckind => ?_⟩
    · rw [hlist, hlist₁, filterMap_filterMap]
      rfl
    · obtain ⟨e, he⟩ := hediting c hc
      obtain ⟨c₁, hc₁⟩ := exists_image?_of_keepsAt hp.goesIn (hp.keepsAt c hcmark hckind) he
      obtain ⟨hckind₁, hcmark₁⟩ := hp.kind_of_image? hcmark hckind hc₁
      have hmem : c₁ ∈ n₁.list s := hlist₁ ▸ mem_filterMap.2 ⟨c, hc, hc₁⟩
      obtain ⟨c', hc'⟩ := hmembers c₁ hmem hcmark₁ (hckind₁ ▸ hckind)
      refine ⟨c', ?_⟩
      rw [became_cons, hc₁]
      exact hc'

end Gentle

end Mender.Edit
