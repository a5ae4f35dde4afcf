import Mender.Proofs.Syntax.Passes

/-!
# Nodes that are put together again

A rebuilt node is put together from what may become of the nodes in it (`Node.RebuiltTo`). Where all of these are kept,
each place holds afterwards what became of the nodes that were there (`Node.RebuiltTo.get`, `Node.RebuiltTo.visited`).
-/

namespace Mender.Syntax

open List Node

variable {ns ms ps qs : List Node} {isBody : Bool} {fs : List Fill} {f : Fill} {n n' p p' : Node}

namespace Node

/-- The members of a run, put together from what may become of each. -/
inductive RunTo (R : Node → Edit → Prop) (isBody : Bool) : List Node → List Node → Prop
  | nil : RunTo R isBody [] []
  | cons {n : Node} {e : Edit} {ns ms : List Node} : R n e → RunTo R isBody ns ms →
      RunTo R isBody (n :: ns) (e.members isBody n ++ ms)

/-- What may stand in a place after the nodes in it were edited. -/
inductive PartTo (R : Node → Edit → Prop) (f : Fill) : Node → Node → Prop
  | run {p : Node} {items : List Node} : p.kind = .seq → RunTo R (f == .body) p.parts items →
      PartTo R f p (.mk p.kind p.text items p.mark)
  | filler {p : Node} : p.kind.isFiller = true → p.kind ≠ .seq → PartTo R f p p
  | node {p p' : Node} {e : Edit} : p.kind.isFiller = false → R p e → f.put e = .ok p' → PartTo R f p p'

/-- Parts, put together from what may become of the nodes in them. -/
inductive PartsTo (R : Node → Edit → Prop) : List Fill → List Node → List Node → Prop
  | cons {f : Fill} {fs : List Fill} {p p' : Node} {ps qs : List Node} : PartTo R f p p' → PartsTo R fs ps qs →
      PartsTo R (f :: fs) (p :: ps) (p' :: qs)
  | rest {fs : List Fill} {ps : List Node} : fs = [] ∨ ps = [] → PartsTo R fs ps ps

/-- A node, put together again from what may become of the visited nodes. -/
structure RebuiltTo (R : Node → Edit → Prop) (n n' : Node) : Prop where
  kind : n'.kind = n.kind
  text : n'.text = n.text
  mark : n'.mark = none
  parts : PartsTo R (n.kind.shape.map Prod.snd) n.parts n'.parts
  flaw? : n'.flaw? = none

section

variable {g : Node → Except Fault Edit}

lemma runTo_of_rebuildRun (h : rebuildRun g isBody ns = .ok ms) : RunTo (g · = .ok ·) isBody ns ms := by
  induction ns generalizing ms with
  | nil =>
    cases h
    exact .nil
  | cons n ns ih =>
    obtain ⟨e, he, h⟩ := of_bind h
    obtain ⟨ms', hms', h⟩ := of_bind h
    cases h
    exact .cons he (ih hms')

lemma partTo_of_rebuildPart (h : rebuildPart g f p = .ok p') : PartTo (g · = .ok ·) f p p' := by
  rcases place_cases p with hseq | ⟨hfill, hseq⟩ | hnode
  · rw [rebuildPart_run _ _ hseq] at h
    obtain ⟨items, hitems, h⟩ := of_bind h
    cases h
    exact .run hseq (runTo_of_rebuildRun hitems)
  · rw [rebuildPart_filler _ _ hfill hseq] at h
    cases h
    exact .filler hfill hseq
  · rw [rebuildPart_node _ _ hnode] at h
    obtain ⟨e, he, h⟩ := of_bind h
    exact .node hnode he h

lemma partsTo_of_rebuildParts (h : rebuildParts g fs ps = .ok qs) : PartsTo (g · = .ok ·) fs ps qs := by
  induction fs generalizing ps qs with
  | nil =>
    rw [rebuildParts.eq_def] at h
    cases h
    exact .rest (.inl rfl)
  | cons f fs ih =>
    cases ps with
    | nil =>
      cases h
      exact .rest (.inr rfl)
    | cons p ps =>
      obtain ⟨q, hq, h⟩ := of_bind h
      obtain ⟨qs', hqs', h⟩ := of_bind h
      cases h
      exact .cons (partTo_of_rebuildPart hq) (ih hqs')

lemma rebuiltTo_of_rebuild (h : n.rebuild g = .ok n') : RebuiltTo (g · = .ok ·) n n' := by
  obtain ⟨ps, hps, h⟩ := of_bind h
  rw [sound] at h
  split at h
  · cases h
  next hflaw =>
    cases h
    exact ⟨rfl, rfl, rfl, partsTo_of_rebuildParts hps, hflaw⟩

end

/-! ## Places in which all nodes are kept -/

/-- A place in which all nodes are kept, with a relation between the old and the new ones. -/
inductive KeptPart (Q : Node → Node → Prop) : Node → Node → Prop
  | run {p : Node} {items : List Node} : p.kind = .seq → Forall₂ Q p.parts items →
      KeptPart Q p (.mk p.kind p.text items p.mark)
  | filler {p : Node} : p.kind.isFiller = true → p.kind ≠ .seq → KeptPart Q p p
  | node {p p' : Node} : p.kind.isFiller = false → Q p p' → KeptPart Q p p'

/-- Does a relation put nodes in the places of nodes only, and keep the lines that have statements? -/
structure Steady (Q : Node → Node → Prop) : Prop where
  isFiller : ∀ {c c' : Node}, Q c c' → c'.kind.isFiller = c.kind.isFiller
  isSpentLine : ∀ {c c' : Node}, Q c c' → c'.isSpentLine = true → c.isSpentLine = true

def KeepsIn (R : Node → Edit → Prop) (Q : Node → Node → Prop) (ns : List Node) : Prop :=
  ∀ c ∈ ns, ∀ e, R c e → ∃ c', e = .keep c' ∧ Q c c'

variable {R : Node → Edit → Prop} {Q : Node → Node → Prop}

lemma steady_of_kind (hkind : ∀ {c c' : Node}, Q c c' → c'.kind = c.kind)
    (hline : ∀ {c c' : Node}, Q c c' → c'.isSpentLine = c.isSpentLine) : Steady Q where
  isFiller h := by rw [hkind h]
  isSpentLine h hspent := hline h ▸ hspent

namespace KeptPart

lemma kind_eq (hQ : ∀ {c c' : Node}, Q c c' → c'.kind = c.kind) (h : KeptPart Q p p') : p'.kind = p.kind := by
  cases h with
  | run => rfl
  | filler => rfl
  | node _ h => exact hQ h

lemma isFiller_eq (hQ : Steady Q) (h : KeptPart Q p p') : p'.kind.isFiller = p.kind.isFiller := by
  cases h with
  | run => rfl
  | filler => rfl
  | node _ h => exact hQ.isFiller h

lemma opened (hQ : Steady Q) (h : KeptPart Q p p') : Forall₂ Q p.opened p'.opened := by
  cases h with
  | @run items hseq hitems =>
    rw [opened_run hseq, opened_run (p := .mk p.kind p.text items p.mark) hseq]
    exact hitems
  | filler hfill hseq =>
    rw [opened_filler hfill hseq]
    exact .nil
  | node hnode h =>
    rw [opened_node hnode, opened_node (by rw [hQ.isFiller h, hnode])]
    exact .cons h .nil

lemma items (hQ : Steady Q) (h : KeptPart Q p p') : Forall₂ Q p.items p'.items := by
  cases h with
  | @run items hseq hitems =>
    rw [items_run hseq, items_run (p := .mk p.kind p.text items p.mark) hseq]
    exact hitems
  | filler hfill hseq =>
    rw [Node.items, if_neg hseq]
    exact .nil
  | node hnode h =>
    rw [Node.items, if_neg (ne_seq_of_isFiller hnode), Node.items,
      if_neg (ne_seq_of_isFiller (by rw [hQ.isFiller h, hnode]))]
    exact .nil

lemma of_node (h : KeptPart Q p p') (hnode : p.kind.isFiller = false) : Q p p' := by
  cases h with
  | run hseq => exact absurd hseq (ne_seq_of_isFiller hnode)
  | filler hfill => exact absurd (hnode.symm.trans hfill) Bool.false_ne_true
  | node _ h => exact h

end KeptPart

lemma forall₂_of_runTo (hQ : Steady Q) (h : RunTo R isBody ns ms) (hkeep : KeepsIn R Q ns) : Forall₂ Q ns ms := by
  induction h with
  | nil => exact .nil
  | @cons n e ns ms he _ ih =>
    obtain ⟨n', rfl, hn'⟩ := hkeep n (.head _) e he
    have hspent : (isBody && n'.isSpentLine && ! n.isSpentLine) = false := by
      cases hline : n'.isSpentLine with
      | true => rw [hQ.isSpentLine hn' hline, Bool.not_true, Bool.and_false]
      | false => rw [Bool.and_false, Bool.false_and]
    rw [Edit.members, hspent]
    exact .cons hn' (ih (forall_mem_cons.1 hkeep).2)

lemma exists_of_runTo (h : RunTo R isBody ns ms) : ∀ c ∈ ns, ∃ e, R c e := by
  induction h with
  | nil => exact nofun
  | cons he _ ih => exact forall_mem_cons.2 ⟨⟨_, he⟩, ih⟩

lemma PartTo.of_node (h : PartTo R f p p') (hnode : p.kind.isFiller = false) : ∃ e, R p e ∧ f.put e = .ok p' := by
  cases h with
  | run hseq => exact absurd hseq (ne_seq_of_isFiller hnode)
  | filler hfill => exact absurd (hnode.symm.trans hfill) Bool.false_ne_true
  | node _ he hput => exact ⟨_, he, hput⟩

lemma exists_of_partTo (h : PartTo R f p p') : ∀ c ∈ p.opened, ∃ e, R c e := by
  cases h with
  | run hseq hitems =>
    rw [opened_run hseq]
    exact exists_of_runTo hitems
  | filler hfill hseq =>
    rw [opened_filler hfill hseq]
    exact nofun
  | node hnode he =>
    rw [opened_node hnode]
    exact forall_mem_singleton.2 ⟨_, he⟩

lemma visitedOf_of_rest (h : fs = [] ∨ ps = []) : visitedOf fs ps = [] := by
  rcases h with rfl | rfl
  · rfl
  · cases fs <;> rfl

lemma exists_of_partsTo (h : PartsTo R fs ps qs) : ∀ c ∈ visitedOf fs ps, ∃ e, R c e := by
  induction h with
  | cons hp _ ih => exact forall_mem_append.2 ⟨exists_of_partTo hp, ih⟩
  | rest hor =>
    rw [visitedOf_of_rest hor]
    exact nofun

lemma keptPart_of_partTo (hQ : Steady Q) (h : PartTo R f p p') (hkeep : KeepsIn R Q p.opened) : KeptPart Q p p' := by
  cases h with
  | run hseq hitems =>
    rw [opened_run hseq] at hkeep
    exact .run hseq (forall₂_of_runTo hQ hitems hkeep)
  | filler hfill hseq => exact .filler hfill hseq
  | node hnode he hput =>
    rw [opened_node hnode] at hkeep
    obtain ⟨c', rfl, hc'⟩ := hkeep p (.head _) _ he
    cases hput
    exact .node hnode hc'

/-- Parts beyond the places of the kind are left as they are. -/
lemma keptPart_of_partsTo (hQ : Steady Q) (h : PartsTo R fs ps qs) (hkeep : KeepsIn R Q (visitedOf fs ps)) :
    Forall₂ (fun p p' => KeptPart Q p p' ∨ p' = p) ps qs := by
  induction h with
  | cons hp _ ih =>
    exact .cons (.inl (keptPart_of_partTo hQ hp fun c hc => hkeep c (mem_append_left _ hc)))
      (ih fun c hc => hkeep c (mem_append_right _ hc))
  | rest => exact forall₂_same.2 fun _ _ => .inr rfl

lemma partTo_getD (h : PartsTo R fs ps qs) {i : Nat} (hf : fs[i]? = some f) :
    PartTo R f (ps.getD i absent) (qs.getD i absent) := by
  induction h generalizing i with
  | cons hp _ ih =>
    cases i with
    | zero =>
      cases hf
      exact hp
    | succ i => exact ih hf
  | rest hor =>
    rcases hor with rfl | rfl
    · cases hf
    · exact .filler (p := absent) rfl (by decide)

lemma PartsTo.partTo_get (h : PartsTo R (n.kind.shape.map Prod.snd) n.parts n'.parts) (hkind : n'.kind = n.kind)
    (s : Slot) : ∃ f, PartTo R f (n.get s) (n'.get s) := by
  cases hi : n.kind.slots.idxOf? s with
  | none =>
    rw [get_eq_absent hi, get_eq_absent (by rw [hkind, hi])]
    exact ⟨.needed, .filler (p := absent) rfl (by decide)⟩
  | some i =>
    obtain ⟨hlt, -⟩ := idxOf?_eq_some_iff.1 hi
    rw [get_eq_getD hi, get_eq_getD (by rw [hkind, hi])]
    exact ⟨_, partTo_getD h (getElem?_eq_getElem (by simpa [Kind.slots] using hlt))⟩

namespace RebuiltTo

lemma partTo (h : RebuiltTo R n n') {s : Slot} {i : Nat} (hi : n.kind.slots.idxOf? s = some i)
    (hf : (n.kind.shape.map Prod.snd)[i]? = some f) : PartTo R f (n.get s) (n'.get s) := by
  rw [get_eq_getD hi, get_eq_getD (by rw [h.kind, hi])]
  exact partTo_getD h.parts hf

lemma partTo_get (h : RebuiltTo R n n') (s : Slot) : ∃ f, PartTo R f (n.get s) (n'.get s) := h.parts.partTo_get h.kind s

lemma forall₂_visitedOf (hQ : Steady Q) (h : PartsTo R fs ps qs) (hkeep : KeepsIn R Q (visitedOf fs ps)) :
    Forall₂ Q (visitedOf fs ps) (visitedOf fs qs) := by
  induction h with
  | cons hp _ ih =>
    refine rel_append ?_ (ih fun c hc => hkeep c (mem_append_right _ hc))
    exact (keptPart_of_partTo hQ hp fun c hc => hkeep c (mem_append_left _ hc)).opened hQ
  | @rest fs ps hor =>
    rw [visitedOf_of_rest hor]
    exact .nil

section

variable (hQ : Steady Q) (h : RebuiltTo R n n') (hkeep : KeepsIn R Q n.visited)
include hQ h hkeep

lemma get (s : Slot) : KeptPart Q (n.get s) (n'.get s) := by
  obtain ⟨f, hpart⟩ := h.partTo_get s
  exact keptPart_of_partTo hQ hpart fun c hc => hkeep c ((opened_get_sublist n s).subset hc)

lemma list (s : Slot) : Forall₂ Q (n.list s) (n'.list s) := (h.get hQ hkeep s).items hQ

/-- A rebuilt line has statements just if it had some before. -/
lemma isSpentLine_eq : n'.isSpentLine = n.isSpentLine := by
  have hlength := (h.list hQ hkeep .body).length_eq
  rw [isSpentLine, isSpentLine, h.kind, Bool.eq_iff_iff]
  simp only [Bool.and_eq_true, isEmpty_iff_length_eq_zero, hlength]

lemma visited : Forall₂ Q n.visited n'.visited := by
  rw [Node.visited, Node.visited, h.kind]
  exact forall₂_visitedOf hQ h.parts hkeep

end

lemma exists_of_visited (h : RebuiltTo R n n') : ∀ c ∈ n.visited, ∃ e, R c e := exists_of_partsTo h.parts

end RebuiltTo

end Node

namespace Pass

variable {p : Pass Unit}

lemma eq_filterMap_of_runTo (hp : p.NeverSplits) (h : RunTo (p.editing · = .ok ·) false ns ms) :
    ms = ns.filterMap p.image? := by
  induction h with
  | nil => rfl
  | @cons n e ns ms he _ ih =>
    rw [ih, filterMap_cons, image?, he]
    cases e with
    | keep n' => rfl
    | drop => rfl
    | splice ns' => exact absurd he (hp n ns')

lemma list_of_rebuild (hp : p.NeverSplits) (h : n.rebuild p.editing = .ok n') {s : Slot} {i : Nat}
    (hi : n.kind.slots.idxOf? s = some i) (hf : (n.kind.shape.map Prod.snd)[i]? = some f) (hbody : (f == .body) = false)
    (hrun : (n.get s).kind = .seq) :
    (n'.get s).kind = .seq ∧ n'.list s = (n.list s).filterMap p.image? ∧ ∀ c ∈ n.list s, ∃ e, p.editing c = .ok e := by
  have hpart := (rebuiltTo_of_rebuild h).partTo hi hf
  rw [list, list, items_run hrun]
  generalize n'.get s = q at hpart
  cases hpart with
  | @run items _ hitems =>
    rw [hbody] at hitems
    rw [items_run (p := .mk (n.get s).kind _ _ _) hrun]
    exact ⟨hrun, eq_filterMap_of_runTo hp hitems, exists_of_runTo hitems⟩
  | filler _ hseq => exact absurd hrun hseq
  | node hnode => exact absurd hrun (ne_seq_of_isFiller hnode)

end Pass

end Mender.Syntax

/-! ## Passes that keep all nodes

A loyal pass drops no node and makes no node one of another kind, so the nodes it visits are afterwards where they were. -/

namespace Mender.Syntax.Pass

open Node List

variable {ns ms : List Node} {P : Node → Prop} {p : Pass Unit} {n n' m : Node}

def plain : Pass Unit := {}

lemma plain_goesIn : plain.GoesIn := fun _ => rfl

lemma plain_keepsAt (n : Node) : plain.KeepsAt n := fun _ => rfl

/-- A pass that keeps all nodes in their kinds. It may change what is in f-strings, but puts only texts into them. -/
structure Loyal (p : Pass Unit) : Prop where
  goesIn : p.GoesIn
  keepsAt : ∀ n : Node, n.kind ≠ .formattedString → p.KeepsAt n
  keeps : ∀ {old new : Node} {e : Edit}, new.kind = old.kind → new.mark = none → p.leaving old new = .ok e →
    ∃ n', e = .keep n' ∧ n'.kind = old.kind ∧ n'.mark = none ∧
      ∀ c ∈ n'.visited, c ∈ new.visited ∨ ∃ t, c = leaf .formattedStringText t

lemma loyal_plain : Loyal plain where
  goesIn := plain_goesIn
  keepsAt n _ := plain_keepsAt n
  keeps {old new e} hkind hmark he := by
    cases he
    exact ⟨new, rfl, hkind, hmark, fun _ hc => .inl hc⟩

namespace Loyal

abbrev Images (p : Pass Unit) : List Node → List Node → Prop := Forall₂ fun c c' => p.image? c = some c'

variable (hp : Loyal p) {e : Edit}
include hp

lemma exists_image (h : p.editing n = .ok e) :
    ∃ n' new, e = .keep n' ∧ n.rebuild p.editing = .ok new ∧ n'.kind = n.kind ∧ n'.mark = none ∧
      ∀ c ∈ n'.visited, c ∈ new.visited ∨ ∃ t, c = leaf .formattedStringText t := by
  rw [editing_eq hp.goesIn] at h
  obtain ⟨new, hnew, h⟩ := of_bind h
  obtain ⟨hnewkind, hnewmark⟩ := kind_of_rebuild hnew
  obtain ⟨n', rfl, hkind, hmark, hvisited⟩ := hp.keeps hnewkind hnewmark h
  exact ⟨n', new, rfl, hnew, hkind, hmark, hvisited⟩

lemma exists_image? (h : p.editing n = .ok e) : ∃ n', p.image? n = some n' ∧ n'.kind = n.kind ∧ e = .keep n' := by
  obtain ⟨n', -, rfl, -, hkind, -⟩ := hp.exists_image h
  exact ⟨n', image?_eq_some.2 h, hkind, rfl⟩

lemma kind_image (h : p.image? n = some n') : n'.kind = n.kind := by
  obtain ⟨n₁, hn₁, hkind, -⟩ := hp.exists_image? (image?_eq_some.1 h)
  cases hn₁.symm.trans h
  exact hkind

lemma isSpentLine_image (h : p.image? n = some n') : n'.isSpentLine = n.isSpentLine := by
  induction n generalizing n' with
  | h n ih =>
    by_cases hkind : n.kind = .formattedString
    · rw [isSpentLine, isSpentLine, hp.kind_image h, hkind]
      rfl
    · have hnew := rebuiltTo_of_rebuild (rebuild_of_image? hp.goesIn (hp.keepsAt n hkind) h)
      refine hnew.isSpentLine_eq (steady_of_kind And.left And.right) fun c hc e he => ?_
      obtain ⟨c', hc', hkind', rfl⟩ := hp.exists_image? he
      exact ⟨c', rfl, hkind', ih c hc hc'⟩

lemma steady : Steady fun c c' => p.image? c = some c' := steady_of_kind hp.kind_image hp.isSpentLine_image

lemma keepsIn (ns : List Node) : KeepsIn (p.editing · = .ok ·) (fun c c' => p.image? c = some c') ns := by
  intro c _ e he
  obtain ⟨c', hc', -, rfl⟩ := hp.exists_image? he
  exact ⟨c', rfl, hc'⟩

variable (h : n.rebuild p.editing = .ok n')
include h

lemma visited_rebuild : Images p n.visited n'.visited := (rebuiltTo_of_rebuild h).visited hp.steady (hp.keepsIn _)

lemma get_rebuild (s : Slot) : KeptPart (fun c c' => p.image? c = some c') (n.get s) (n'.get s) :=
  (rebuiltTo_of_rebuild h).get hp.steady (hp.keepsIn _) s

end Loyal

/-! ## No marks -/

def Clear (n : Node) : Prop := ∀ c ∈ n.met, c.mark = none

lemma Images.exists_of_mem (h : Loyal.Images p ns ms) (hm : m ∈ ms) : ∃ n ∈ ns, p.image? n = some m := by
  induction h with
  | nil => cases hm
  | @cons n m' ns ms hn _ ih =>
    rcases mem_cons.1 hm with rfl | hm
    · exact ⟨n, mem_cons_self .., hn⟩
    · obtain ⟨n', hn', himage⟩ := ih hm
      exact ⟨n', mem_cons_of_mem _ hn', himage⟩

lemma Images.forall_iff (h : Loyal.Images p ns ms) (hsame : ∀ n ∈ ns, ∀ m, p.image? n = some m → (P m ↔ P n)) :
    (∀ m ∈ ms, P m) ↔ ∀ n ∈ ns, P n := by
  induction h with
  | nil => simp
  | @cons n m ns ms hn _ ih =>
    rw [forall_mem_cons, forall_mem_cons, hsame n (.head _) m hn, ih (forall_mem_cons.1 hsame).2]

lemma Loyal.forall_met (hp : Loyal p) (htext : ∀ t, P (leaf .formattedStringText t))
    (hmade : ∀ c ∈ n.met, ∀ c', p.image? c = some c' → P c') (h : p.image? n = some n') :
    ∀ c ∈ n'.met, P c := by
  induction n generalizing n' with
  | h n ih =>
    obtain ⟨n₁, new, heq, hnew, -, -, hvisited⟩ := hp.exists_image (image?_eq_some.1 h)
    cases heq
    obtain ⟨hhere, hinside⟩ := Node.forall_met.1 hmade
    refine Node.forall_met.2 ⟨hhere n' h, fun c hc => ?_⟩
    rcases hvisited c hc with hc | ⟨t, rfl⟩
    · obtain ⟨d, hd, himage⟩ := Images.exists_of_mem (hp.visited_rebuild hnew) hc
      exact ih d hd (hinside d hd) himage
    · rw [met_eq]
      exact forall_mem_singleton.2 (htext t)

lemma Loyal.clear (hp : Loyal p) (h : p.image? n = some n') : Clear n' := by
  refine hp.forall_met (fun _ => rfl) (fun c _ c' hc => ?_) h
  obtain ⟨c₁, -, heq, -, -, hmark, -⟩ := hp.exists_image (image?_eq_some.1 hc)
  cases heq
  exact hmark

end Mender.Syntax.Pass
