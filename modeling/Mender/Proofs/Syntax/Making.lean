import Mender.Proofs.Syntax.Cleared

/-!
# What passes with a state make of trees

What a pass makes of a node may depend on its state, and the state on all that came before. For most proofs it is enough
to know what the pass can make of a node in some state (`Pass.Makes`). What becomes of a node is then put together from
what can become of the visited nodes (`Pass.exists_rebuiltTo`).

* `Pass.exists_leaving` — a pass leaves each node that it meets once;
* `Node.RebuiltTo.get` — the places of a rebuilt node, if all nodes in it are kept.
-/

namespace Mender.Syntax

open List Node

variable {ns ms ps qs : List Node} {isBody : Bool} {fs : List Fill} {e : Edit} {n n' p p' : Node}

namespace Pass

open Node

variable {σ : Type} {p : Pass σ} {s s' s₁ : σ}

/-- Can a pass make this of a node, from some state? -/
def Makes (p : Pass σ) (n : Node) (e : Edit) : Prop := ∃ s s', (p.edit n).run s = .ok (e, s')

def Leaves (p : Pass σ) (old new : Node) (e : Edit) : Prop := ∃ s s', (p.leave old new).run s = .ok (e, s')

/-- The steps of a run: nodes are left one after the other, each as it was rebuilt. -/
inductive Leaving (p : Pass σ) : List Node → σ → σ → Prop
  | nil (s : σ) : p.Leaving [] s s
  | cons {old new : Node} {e : Edit} {s s₁ s' : σ} {ns : List Node} : RebuiltTo p.Makes old new →
      (p.leave old new).run s = .ok (e, s₁) → p.Leaving ns s₁ s' → p.Leaving (old :: ns) s s'

lemma edit_of_run (h : p.run n s = .ok (n', s')) : (p.edit n).run s = .ok (.keep n', s') := by
  rw [run] at h
  obtain ⟨⟨e, s₁⟩, he, h⟩ := of_bind h
  rw [he]
  cases e <;> cases h
  rfl

/-! ## From node to node

A pass takes the visited nodes in order. `I ns s` is what is known in the state `s` when `ns` are the nodes that are left. -/

section

variable {I : List Node → σ → Prop} {R : Node → Edit → Prop}

lemma runTo_along (tail : List Node)
    (hnode : ∀ c ∈ ns, ∀ rest e s s', (p.edit c).run s = .ok (e, s') → I (c :: rest) s → R c e ∧ I rest s')
    (h : (p.editRun isBody ns).run s = .ok (ms, s')) (hs : I (ns ++ tail) s) : RunTo R isBody ns ms ∧ I tail s' := by
  induction ns generalizing ms s with
  | nil =>
    rw [editRun] at h
    cases h
    exact ⟨.nil, hs⟩
  | cons n ns ih =>
    rw [editRun] at h
    obtain ⟨e, s₁, he, h⟩ := of_run_bind h
    obtain ⟨ms', s₂, hms', h⟩ := of_run_bind h
    cases h
    obtain ⟨hR, hs₁⟩ := hnode n (.head _) _ e s s₁ he hs
    obtain ⟨hrun, hs₂⟩ := ih (forall_mem_cons.1 hnode).2 hms' hs₁
    exact ⟨.cons hR hrun, hs₂⟩

lemma partsTo_along (tail : List Node)
    (hnode : ∀ c ∈ visitedOf fs ps, ∀ rest e s s', (p.edit c).run s = .ok (e, s') → I (c :: rest) s → R c e ∧ I rest s')
    (h : (p.editParts fs ps).run s = .ok (qs, s')) (hs : I (visitedOf fs ps ++ tail) s) :
    PartsTo R fs ps qs ∧ I tail s' := by
  induction fs generalizing ps qs s with
  | nil =>
    rw [editParts.eq_def] at h
    cases h
    exact ⟨.rest (.inl rfl), hs⟩
  | cons f fs ih =>
    cases ps with
    | nil =>
      rw [editParts.eq_def] at h
      cases h
      exact ⟨.rest (.inr rfl), hs⟩
    | cons q ps =>
      obtain ⟨k, t, rs, m⟩ := q
      have hcons {part : Node} {s₁ : σ} (hpart : PartTo R f (.mk k t rs m) part)
          (h : (do let rest ← p.editParts fs ps; pure (part :: rest) : Step σ (List Node)).run s₁ = .ok (qs, s'))
          (hs₁ : I (visitedOf fs ps ++ tail) s₁) : PartsTo R (f :: fs) (.mk k t rs m :: ps) qs ∧ I tail s' := by
        obtain ⟨rest, s₂, hrest, h⟩ := of_run_bind h
        cases h
        obtain ⟨hparts, hs₂⟩ := ih (fun c hc => hnode c (mem_append_right _ hc)) hrest hs₁
        exact ⟨.cons hpart hparts, hs₂⟩
      have hopened (c : Node) (hc : c ∈ opened (.mk k t rs m)) := hnode c (mem_append_left _ hc)
      rw [visitedOf, append_assoc] at hs
      rw [editParts] at h
      split at h
      next hseq =>
        rw [opened_run (p := .mk k t rs m) (beq_iff_eq.1 hseq)] at hopened hs
        obtain ⟨items, s₁, hitems, h⟩ := of_run_bind h
        obtain ⟨hrun, hs₁⟩ := runTo_along _ hopened hitems hs
        exact hcons (.run (p := .mk k t rs m) (beq_iff_eq.1 hseq) hrun) h hs₁
      next hseq =>
        split at h
        next hfill =>
          rw [opened_filler (p := .mk k t rs m) hfill (mt beq_iff_eq.2 hseq)] at hs
          exact hcons (.filler hfill (mt beq_iff_eq.2 hseq)) h hs
        next hfill =>
          rw [opened_node (p := .mk k t rs m) (Bool.eq_false_iff.2 hfill)] at hopened hs
          obtain ⟨e, s₁, he, h⟩ := of_run_bind h
          obtain ⟨part, hput, h⟩ := of_lift_bind h
          obtain ⟨hR, hs₁⟩ := hopened _ (.head _) _ e s s₁ he hs
          exact hcons (.node (Bool.eq_false_iff.2 hfill) hR hput) h hs₁

end

lemma exists_of_edit (henter : (p.enter n).run s = .ok (true, s₁)) (h : (p.edit n).run s = .ok (e, s')) :
    ∃ qs s₂, (p.editParts (n.kind.shape.map Prod.snd) n.parts).run s₁ = .ok (qs, s₂) ∧
      (Node.mk n.kind n.text qs none).flaw? = none ∧ (p.leave n (.mk n.kind n.text qs none)).run s₂ = .ok (e, s') := by
  obtain ⟨k, t, ps, m⟩ := n
  rw [edit] at h
  obtain ⟨b, s₀, hb, h⟩ := of_run_bind h
  cases hb.symm.trans henter
  rw [if_pos rfl] at h
  obtain ⟨qs, s₂, hqs, h⟩ := of_run_bind h
  obtain ⟨new, hnew, h⟩ := of_lift_bind h
  rw [sound] at hnew
  split at hnew
  · cases hnew
  next hflaw =>
    cases hnew
    exact ⟨qs, s₂, hqs, hflaw, h⟩

variable (hp : ∀ n, p.enter n = pure true)
include hp

lemma exists_rebuiltTo_along {R : Node → Edit → Prop}
    (hR : ∀ c ∈ n.visited, ∀ e, p.Makes c e → R c e) (h : p.Makes n e) : ∃ new, RebuiltTo R n new ∧ p.Leaves n new e := by
  obtain ⟨s, s', h⟩ := h
  have henter : (p.enter n).run s = .ok (true, s) := by rw [hp]; rfl
  obtain ⟨qs, s₁, hqs, hflaw, h⟩ := exists_of_edit henter h
  have hparts := (partsTo_along (I := fun _ _ => True) (R := R) []
    (fun c hc _ e s s' he _ => ⟨hR c hc e ⟨s, s', he⟩, trivial⟩) hqs trivial).1
  exact ⟨.mk n.kind n.text qs none, ⟨rfl, rfl, rfl, hparts, hflaw⟩, s₁, s', h⟩

lemma exists_rebuiltTo (h : p.Makes n e) :
    ∃ new, RebuiltTo p.Makes n new ∧ p.Leaves n new e := exists_rebuiltTo_along hp (fun _ _ _ h => h) h

omit hp in
lemma Leaving.append (h : p.Leaving ns s s₁) (h' : p.Leaving ms s₁ s') : p.Leaving (ns ++ ms) s s' := by
  induction h with
  | nil => exact h'
  | cons hnew hleave _ ih => exact .cons hnew hleave (ih h')

/-- **A pass leaves each node that it meets, and each of them once.** -/
lemma exists_leaving (h : (p.edit n).run s = .ok (e, s')) : ∃ ns, ns.Perm n.met ∧ p.Leaving ns s s' := by
  induction n using Node.visitedInduction generalizing s s' e with
  | h n ih =>
    have henter : (p.enter n).run s = .ok (true, s) := by rw [hp]; rfl
    obtain ⟨qs, s₁, hqs, hflaw, h⟩ := exists_of_edit henter h
    -- those that have been left and those that are met in the nodes still to come are all that are met
    obtain ⟨hparts, ns, hns, hleaving⟩ := partsTo_along (R := p.Makes)
      (I := fun rest s₁ => ∃ ns, (ns ++ rest.flatMap met).Perm (n.visited.flatMap met) ∧ p.Leaving ns s s₁) [] (by
      rintro c hc rest e s₁ s₂ he ⟨ns, hns, hleaving⟩
      obtain ⟨ms, hms, hleaving'⟩ := ih c hc he
      refine ⟨⟨s₁, s₂, he⟩, ns ++ ms, ?_, hleaving.append hleaving'⟩
      rw [flatMap_cons] at hns
      rw [append_assoc]
      exact ((hms.append_right _).append_left _).trans hns) hqs ⟨[], by rw [append_nil]; exact .refl _, .nil s⟩
    rw [flatMap_nil, append_nil] at hns
    have hnew : RebuiltTo p.Makes n (.mk n.kind n.text qs none) := ⟨rfl, rfl, rfl, hparts, hflaw⟩
    refine ⟨ns ++ [n], ?_, hleaving.append (.cons hnew h (.nil s'))⟩
    rw [met_eq]
    exact (perm_append_singleton n ns).trans (hns.cons n)

end Pass

/-! ## What holds of the state -/

namespace Step

variable {σ α β : Type} {I : σ → Prop}

def Keeps (I : σ → Prop) (x : Step σ α) : Prop := ∀ s a s', x.run s = .ok (a, s') → I s → I s'

namespace Keeps

lemma pure (a : α) : Keeps I (Pure.pure a : Step σ α) := by
  intro s a s' h hs
  cases h
  exact hs

variable {g : α → Step σ β}

lemma bind {x : Step σ α} (hx : Keeps I x) (hg : ∀ a, Keeps I (g a)) : Keeps I (x >>= g) := by
  intro s b s' h hs
  obtain ⟨a, s₁, ha, h⟩ := of_run_bind h
  exact hg a s₁ b s' h (hx s a s₁ ha hs)

lemma lift_bind {x : Except Fault α} (hg : ∀ a, x = .ok a → Keeps I (g a)) : Keeps I (liftM x >>= g) := by
  intro s b s' h hs
  obtain ⟨a, ha, h⟩ := of_lift_bind h
  exact hg a ha s b s' h hs

lemma lift (x : Except Fault α) : Keeps I (liftM x : Step σ α) := by
  have h := lift_bind (I := I) (x := x) (g := fun a => Pure.pure a) fun a _ => .pure a
  rwa [bind_pure] at h

lemma throw (e : Fault) : Keeps I (throw e : Step σ α) := fun _ _ _ h => by cases h

lemma modify {f : σ → σ} (hf : ∀ s, I s → I (f s)) : Keeps I (modify f : Step σ PUnit) := by
  intro s a s' h hs
  cases h
  exact hf s hs

end Keeps

end Step

namespace Pass

variable {σ γ : Type} {p : Pass σ} {I : σ → Prop} {s s' : σ}

lemma keeps_edit (henter : ∀ m, (p.enter m).Keeps I) (hleave : ∀ old ∈ n.met, ∀ new, (p.leave old new).Keeps I) :
    (p.edit n).Keeps I := by
  induction n using Node.visitedInduction with
  | h n ih =>
    intro s e s' h hs
    obtain ⟨hself, hinside⟩ := Node.forall_met.1 hleave
    cases hinto : (p.enter n).run s with
    | error f =>
      obtain ⟨k, t, ps, m⟩ := n
      rw [edit] at h
      obtain ⟨b, s₁, hb, -⟩ := of_run_bind h
      cases hinto.symm.trans hb
    | ok r =>
      obtain ⟨into, s₁⟩ := r
      have hs₁ := henter n s into s₁ hinto hs
      cases into with
      | true =>
        obtain ⟨qs, s₂, hqs, -, h⟩ := exists_of_edit hinto h
        have hs₂ := (partsTo_along (I := fun _ s => I s) (R := fun _ _ => True) []
          (fun c hc _ e s s' he hs => ⟨trivial, ih c hc (hinside c hc) s e s' he hs⟩) hqs hs₁).2
        exact hself _ s₂ e s' h hs₂
      | false =>
        obtain ⟨k, t, ps, m⟩ := n
        rw [edit] at h
        obtain ⟨b, s₀, hb, h⟩ := of_run_bind h
        cases hb.symm.trans hinto
        exact hself _ s₁ e s' h hs₁

lemma gathered_iff {H : γ → σ → Prop} {G : Node → γ → Prop} (hp : ∀ n, p.enter n = pure true)
    (hleave : ∀ old new s e s', (p.leave old new).run s = .ok (e, s') → ∀ x, H x s' ↔ H x s ∨ G old x)
    (h : (p.edit n).run s = .ok (e, s')) (x : γ) :
    H x s' ↔ H x s ∨ ∃ d ∈ n.met, G d x := by
  obtain ⟨ns, hns, hleaving⟩ := exists_leaving hp h
  simp only [← hns.mem_iff]
  clear hns h
  induction hleaving with
  | nil => simp
  | cons _ hstep _ ih => rw [ih, hleave _ _ _ _ _ hstep, exists_mem_cons_iff, or_assoc]

end Pass

end Mender.Syntax

/-! ## Ways through trees

A way tells for each step the place to go to and the number of the node there. Every node that a pass meets is reached by
a way (`exists_at?_of_mem_met`), so two trees can be compared place by place. -/

namespace Mender.Syntax.Node

open List

def inner? (n : Node) (s : Slot) (i : Nat) : Option Node := (n.get s).opened[i]?

/-- The node at the end of a way through places. -/
def at? : Node → List (Slot × Nat) → Option Node
  | n, [] => some n
  | n, (s, i) :: way => (n.inner? s i).bind fun c => c.at? way

/-- Where all nodes are kept, each is found in the rebuilt node where it was. -/
lemma RebuiltTo.exists_inner? {R : Node → Edit → Prop} {Q : Node → Node → Prop} {n n' a : Node} {s : Slot} {i : Nat}
    (hQ : Steady Q) (h : RebuiltTo R n n') (hkeep : KeepsIn R Q n.visited)
    (ha : n.inner? s i = some a) : ∃ a', n'.inner? s i = some a' ∧ R a (.keep a') := by
  have hQ' : Steady fun c c' => Q c c' ∧ R c (.keep c') := ⟨fun h => hQ.isFiller h.1, fun h => hQ.isSpentLine h.1⟩
  have hkeep' : KeepsIn R (fun c c' => Q c c' ∧ R c (.keep c')) n.visited := fun c hc e he => by
    obtain ⟨c', rfl, hc'⟩ := hkeep c hc e he
    exact ⟨c', rfl, hc', he⟩
  have hopened := (h.get hQ' hkeep' s).opened hQ'
  rw [inner?] at ha ⊢
  obtain ⟨hi, rfl⟩ := List.getElem?_eq_some_iff.1 ha
  have hi' : i < (n'.get s).opened.length := hopened.length_eq ▸ hi
  exact ⟨_, getElem?_eq_getElem hi', ((forall₂_iff_get.1 hopened).2 i hi hi').2⟩

lemma at?_append (n : Node) (way way' : List (Slot × Nat)) : n.at? (way ++ way') = (n.at? way).bind fun c => c.at? way' := by
  induction way generalizing n with
  | nil => rfl
  | cons step way ih =>
    obtain ⟨s, i⟩ := step
    rw [cons_append, at?, at?, Option.bind_assoc]
    exact congrArg _ (funext ih)

lemma mem_met_of_at? {n d : Node} {way : List (Slot × Nat)} (h : n.at? way = some d) : d ∈ n.met := by
  induction way generalizing n with
  | nil =>
    cases h
    exact self_mem_met _
  | cons step way ih =>
    obtain ⟨s, i⟩ := step
    obtain ⟨c, hc, h⟩ := Option.bind_eq_some_iff.1 h
    have hvisited : c ∈ n.visited := (opened_get_sublist n s).subset (mem_of_getElem? hc)
    exact mem_met_of_mem_visited hvisited (ih h)

lemma nodup_slots (k : Kind) : k.slots.Nodup := by
  cases k <;> decide

lemma exists_slot_of_mem_visited {n c : Node} (h : c ∈ n.visited) : ∃ s ∈ n.kind.slots, c ∈ (n.get s).opened := by
  obtain ⟨i, hi, p, hp, hc⟩ := exists_getElem?_of_mem_visitedOf h
  rw [length_map] at hi
  have hlt : i < n.kind.slots.length := by rwa [Kind.slots, length_map]
  have hidx : n.kind.slots.idxOf? n.kind.slots[i] = some i := by
    refine idxOf?_eq_some_iff.2 ⟨hlt, rfl, fun j hj heq => ?_⟩
    exact absurd ((nodup_slots n.kind).getElem_inj_iff.1 heq) (Nat.ne_of_lt hj)
  refine ⟨n.kind.slots[i], getElem_mem hlt, ?_⟩
  rwa [get_eq_getD hidx, getD_eq_getElem?_getD, hp]

lemma exists_inner?_of_visited {n c : Node} (h : c ∈ n.visited) : ∃ s i, n.inner? s i = some c := by
  obtain ⟨s, -, hc⟩ := exists_slot_of_mem_visited h
  obtain ⟨i, hi⟩ := getElem?_of_mem hc
  exact ⟨s, i, hi⟩

lemma exists_at?_of_mem_met {n d : Node} (h : d ∈ n.met) : ∃ way, n.at? way = some d := by
  induction n with
  | h n ih =>
    rw [met_eq] at h
    rcases mem_cons.1 h with rfl | h
    · exact ⟨[], rfl⟩
    · obtain ⟨c, hc, h⟩ := mem_flatMap.1 h
      obtain ⟨way, hway⟩ := ih c hc h
      obtain ⟨s, i, hi⟩ := exists_inner?_of_visited hc
      exact ⟨(s, i) :: way, by rw [at?, hi]; exact hway⟩

end Mender.Syntax.Node
