import Mender.Proofs.Edit.Swaps

/-!
# What is listed of a tree

A listing goes through the nodes that a pass meets in a tree and takes something from each (`listed`). What a pass makes
of a tree is listed piece by piece, one piece for each node that was there (`exists_pieces`).

Some passes give up all that they have made of the inside of a node, unless they have decided to change the node itself
(`Lossy`). What such a pass makes of a node then counts only if the nodes around it are changed as well (`isLive`).
-/

namespace Mender.Syntax.Node

open Mender.Edit (sizeOf_le_of_mem_met)

lemma visited_of_isFiller {n : Node} (h : n.kind.isFiller = true) : n.visited = [] := by
  have hshape : n.kind.shape = [] := by
    generalize n.kind = k at h
    cases k <;> first | rfl | cases h
  rw [visited, hshape]
  rfl

lemma Numbered.eq_of_mem_visited {module a b c : Node} (h : Numbered module) (ha : a ∈ module.met) (hb : b ∈ module.met)
    (hca : c ∈ a.visited) (hcb : c ∈ b.visited) (hnode : c.kind.isFiller = false) : a = b := by
  have hself := self_mem_nodes hnode
  have hinside {d e : Node} (he : e ∈ d.met) (hce : c ∈ e.visited) : c ∈ d.nodes :=
    mem_nodes_of_mem_met he ((nodes_sublist_of_mem_visited hce).subset hself)
  -- a node that is visited here is not visited again from further inside
  have habsurd {n d e : Node} (hn : Numbered n) (hc : c ∈ n.visited) (hd : d ∈ n.visited) (he : e ∈ d.met)
      (hce : c ∈ e.visited) : False := by
    obtain rfl : c = d := hn.eq_of_shared hc hd hself (hinside he hce)
    have hlt := sizeOf_lt_of_mem_visited hce
    have hle := sizeOf_le_of_mem_met he
    omega
  induction module with
  | h n ih =>
    rw [mem_met] at ha hb
    rcases ha with rfl | ⟨d, hd, ha⟩ <;> rcases hb with rfl | ⟨d', hd', hb⟩
    · rfl
    · exact (habsurd h hca hd' hb hcb).elim
    · exact (habsurd h hcb hd ha hca).elim
    · obtain rfl := h.eq_of_shared hd hd' (hinside ha hca) (hinside hb hcb)
      exact ih d hd (h.of_mem_met (visited_subset hd)) ha hb

end Mender.Syntax.Node

namespace Mender.Edit

open Syntax Node List

variable {β : Type} {n n' c : Node} {R : Node → Edit → Prop}

section

variable (v : Node → List β)

/-- What the nodes of a tree show, in the order in which a pass meets them. -/
def listed (n : Node) : List β := n.met.flatMap v

lemma listed_eq : listed v n = v n ++ n.visited.flatMap (listed v) := by
  rw [listed, met_eq, flatMap_cons, flatMap_assoc]
  rfl

lemma listed_eq_nil (h : ∀ c ∈ n.met, v c = []) : listed v n = [] := flatMap_eq_nil_iff.2 h

lemma members_keep_self (isBody : Bool) : (Edit.keep n).members isBody n = [n] := by
  rw [Edit.members, Bool.and_assoc, Bool.and_not_self, Bool.and_false]
  rfl

/-! ## What is listed of a rebuilt node -/

variable {v} {T : Node → List β → Prop}

lemma exists_pieces_of_runTo {isBody : Bool} {ns ms : List Node} (h : RunTo R isBody ns ms)
    (hT : ∀ c ∈ ns, ∀ e, R c e → T c ((e.members isBody c).flatMap (listed v))) :
    ∃ pieces, Forall₂ T ns pieces ∧ ms.flatMap (listed v) = pieces.flatten := by
  induction h with
  | nil => exact ⟨[], .nil, rfl⟩
  | @cons n e ns ms he _ ih =>
    obtain ⟨pieces, hpieces, heq⟩ := ih (forall_mem_cons.1 hT).2
    refine ⟨_ :: pieces, .cons (hT n (.head _) e he) hpieces, ?_⟩
    rw [flatMap_append, heq, flatten_cons]

lemma exists_pieces_of_partTo {f : Fill} {p p' : Node} (h : PartTo R f p p')
    (hkind : ∀ c ∈ p.opened, ∀ c', R c (.keep c') → c'.kind = c.kind)
    (hT : ∀ c ∈ p.opened, ∀ e, R c e → ∀ isBody, T c ((e.members isBody c).flatMap (listed v))) :
    ∃ pieces, Forall₂ T p.opened pieces ∧ p'.opened.flatMap (listed v) = pieces.flatten := by
  cases h with
  | run hseq hrun =>
    rw [opened_run hseq] at hT ⊢
    rw [opened_run (p := .mk p.kind p.text _ p.mark) hseq]
    exact exists_pieces_of_runTo hrun fun c hc e he => hT c hc e he _
  | filler hfill hseq =>
    rw [opened_filler hfill hseq]
    exact ⟨[], .nil, rfl⟩
  | @node _ e hnode he hput =>
    rw [opened_node hnode] at hkind hT ⊢
    have hpiece := hT p (mem_singleton.2 rfl) e he false
    refine ⟨[_], .cons hpiece .nil, ?_⟩
    rw [flatten_singleton]
    -- what is put back: the node that was kept, or an empty place
    cases e with
    | keep n =>
      cases hput
      rw [opened_node (by rw [hkind p (mem_singleton.2 rfl) p' he, hnode])]
      rfl
    | drop =>
      rw [Fill.put.eq_def] at hput
      dsimp only at hput
      split at hput <;> cases hput <;> rfl
    | splice ns => cases hput

lemma exists_pieces_of_partsTo {fs : List Fill} {ps qs : List Node} (h : PartsTo R fs ps qs)
    (hkind : ∀ c ∈ visitedOf fs ps, ∀ c', R c (.keep c') → c'.kind = c.kind)
    (hT : ∀ c ∈ visitedOf fs ps, ∀ e, R c e → ∀ isBody, T c ((e.members isBody c).flatMap (listed v))) :
    ∃ pieces, Forall₂ T (visitedOf fs ps) pieces ∧ (visitedOf fs qs).flatMap (listed v) = pieces.flatten := by
  induction h with
  | rest h =>
    rw [visitedOf_of_rest h]
    exact ⟨[], .nil, rfl⟩
  | cons hpart _ ih =>
    obtain ⟨pieces, hpieces, heq⟩ := exists_pieces_of_partTo hpart (fun c hc => hkind c (mem_append_left _ hc))
      fun c hc => hT c (mem_append_left _ hc)
    obtain ⟨pieces', hpieces', heq'⟩ := ih (fun c hc => hkind c (mem_append_right _ hc))
      fun c hc => hT c (mem_append_right _ hc)
    refine ⟨pieces ++ pieces', rel_append hpieces hpieces', ?_⟩
    rw [visitedOf, flatMap_append, heq, heq', flatten_append]

lemma exists_pieces (h : RebuiltTo R n n') (hkind : ∀ c ∈ n.visited, ∀ c', R c (.keep c') → c'.kind = c.kind)
    (hT : ∀ c ∈ n.visited, ∀ e, R c e → ∀ isBody, T c ((e.members isBody c).flatMap (listed v))) :
    ∃ pieces, Forall₂ T n.visited pieces ∧ n'.visited.flatMap (listed v) = pieces.flatten := by
  obtain ⟨pieces, hpieces, heq⟩ := exists_pieces_of_partsTo h.parts hkind hT
  exact ⟨pieces, hpieces, by rwa [visited, h.kind]⟩

end

lemma metSum_eq_countP (p : Node → Bool) : metSum (fun c => if p c then 1 else 0) n = n.met.countP p := by
  rw [metSum]
  induction n.met with
  | nil => rfl
  | cons c cs ih => rw [map_cons, sum_cons, ih, countP_cons, Nat.add_comm]

/-! ## Changes that are given up -/

section

variable (k : Kind) (decided : Node → Bool) (module : Node)

/-- Are all nodes of a kind decided upon that are around a node of the module, the node itself included? -/
def isLive (c : Node) : Bool := module.met.all fun a => a.kind != k || ! a.met.any (·.identical c) || decided a

variable {k decided module}

lemma isLive_of_mark (h : c.mark = none) : isLive k decided module c = true := by
  have hnot (a : Node) : a.identical c = false := by
    rw [identical, h]
    cases a.mark <;> rfl
  simp [isLive, hnot]

variable (hnumbered : Numbered module)
include hnumbered

lemma mark_of_mem_met (hc : c ∈ module.met) (hnode : c.kind.isFiller = false) : c.mark.isSome = true :=
  hnumbered.marked c (mem_nodes_of_mem_met hc (self_mem_nodes hnode))

lemma any_identical_iff {a : Node} (ha : a ∈ module.met) (hc : c ∈ module.met) (hnode : c.kind.isFiller = false) :
    a.met.any (·.identical c) = true ↔ c ∈ a.met := by
  obtain ⟨m, hm⟩ := Option.isSome_iff_exists.1 (mark_of_mem_met hnumbered hc hnode)
  have hmem := mem_nodes_of_mem_met hc (self_mem_nodes hnode)
  rw [any_eq_true]
  constructor
  · rintro ⟨d, hd, hsame⟩
    have hd' := met_subset ha hd
    obtain ⟨m', hm'⟩ := Option.isSome_iff_exists.1 (mark_of_identical hsame).1
    have hdmem := mem_nodes_of_mem_met hd' ((hnumbered.orderly.of_mem_met hd').self_mem_nodes hm')
    rwa [← hnumbered.eq_of_identical hdmem hmem hsame]
  · intro h
    exact ⟨c, h, by simp [identical, hm]⟩

lemma isLive_iff (hc : c ∈ module.met) (hnode : c.kind.isFiller = false) :
    isLive k decided module c = true ↔ ∀ a ∈ module.met, a.kind = k → c ∈ a.met → decided a = true := by
  rw [isLive, all_eq_true]
  refine forall₂_congr fun a ha => ?_
  rw [Bool.or_eq_true, Bool.or_eq_true, Bool.not_eq_true', ← Bool.not_eq_true, any_identical_iff hnumbered ha hc hnode]
  simp only [bne_iff_ne, ne_eq]
  tauto

lemma isLive_root (hkind : module.kind ≠ k) (hnode : module.kind.isFiller = false) :
    isLive k decided module module = true := by
  rw [isLive_iff hnumbered (self_mem_met module) hnode]
  intro a ha haKind hmem
  rcases mem_met.1 ha with rfl | ⟨c, hc, ha⟩
  · exact absurd haKind hkind
  · have hlt := sizeOf_lt_of_mem_visited hc
    have hle := sizeOf_le_of_mem_met ha
    have hle' := sizeOf_le_of_mem_met hmem
    omega

lemma isLive_eq_of_mem_visited (hn : n ∈ module.met) (hc : c ∈ n.visited) (hnode : c.kind.isFiller = false)
    (hdecided : c.kind = k → decided c = true) : isLive k decided module c = isLive k decided module n := by
  have hinside : c ∈ n.met := visited_subset hc
  have hfill : n.kind.isFiller = false := Bool.eq_false_iff.2 fun hfill => not_mem_nil (visited_of_isFiller hfill ▸ hc)
  rw [Bool.eq_iff_iff, isLive_iff hnumbered (met_subset hn hinside) hnode, isLive_iff hnumbered hn hfill]
  refine forall₃_congr fun a ha hkind => ⟨fun h hna => h (met_subset hna hinside), fun h hca => ?_⟩
  rcases mem_visited_of_mem_met hca with rfl | ⟨b, hb, hcb⟩
  · exact hdecided hkind
  · obtain rfl := hnumbered.eq_of_mem_visited hn (met_subset ha hb) hc hcb hnode
    exact h hb

lemma isLive_of_mem_visited (hn : n ∈ module.met) (hlive : isLive k decided module n = true) (hc : c ∈ n.visited)
    (hdecided : c.kind = k → decided c = true) : isLive k decided module c = true := by
  have hmet : c ∈ module.met := met_subset hn (visited_subset hc)
  cases hnode : c.kind.isFiller with
  | true => exact isLive_of_mark ((hnumbered.orderly.of_mem_met hmet).mark_of_isFiller hnode)
  | false => rw [isLive_eq_of_mem_visited hnumbered hn hc hnode hdecided, hlive]

end

variable (k : Kind) (decided : Node → Bool) (module : Node) (v : Node → List β) (New : Node → List β → Prop)

/-- A pass keeps a node of the kind as it was, with all that is in it, unless it has decided to change the node. `New` is
what may be listed in place of a node that is changed. -/
structure Lossy (R : Node → Edit → Prop) : Prop where
  kind : k.isFiller = false
  filler : ∀ {n : Node}, n.kind.isFiller = true → New n (v n)
  keepsKind : ∀ {n n' : Node}, n ∈ module.met → R n (.keep n') → n'.kind = n.kind
  undecided : ∀ {n : Node} {e : Edit}, n ∈ module.met → n.kind = k → decided n = false → R n e → e = .keep n
  rebuilt : ∀ {n : Node} {e : Edit}, n ∈ module.met → (n.kind = k → decided n = true) → R n e →
    ∃ new head, RebuiltTo R n new ∧ New n head ∧
      ∀ isBody, (e.members isBody n).flatMap (listed v) = head ++ new.visited.flatMap (listed v)

namespace Lossy

/-- What a node shows afterwards: something new if it was changed for good, else the same. -/
def Piece (c : Node) (piece : List β) : Prop :=
  if isLive k decided module c then New c piece else piece = v c

/-- What the nodes of a tree show afterwards, one after the other. -/
def Pieces (n : Node) (list : List β) : Prop :=
  ∃ pieces, Forall₂ (Piece k decided module v New) n.met pieces ∧ list = pieces.flatten

variable {k decided module v New} {lists : List (List β)}

lemma exists_pieces_of_forall₂ {cs : List Node} (h : Forall₂ (Pieces k decided module v New) cs lists) :
    ∃ pieces, Forall₂ (Piece k decided module v New) (cs.flatMap met) pieces ∧ lists.flatten = pieces.flatten := by
  induction h with
  | nil => exact ⟨[], .nil, rfl⟩
  | cons hfirst _ ih =>
    obtain ⟨first, hforall, rfl⟩ := hfirst
    obtain ⟨pieces, hpieces, heq⟩ := ih
    exact ⟨first ++ pieces, rel_append hforall hpieces, by rw [flatten_cons, heq, flatten_append]⟩

lemma pieces_of_visited {head : List β} (hhead : Piece k decided module v New n head)
    (h : Forall₂ (Pieces k decided module v New) n.visited lists) :
    Pieces k decided module v New n (head ++ lists.flatten) := by
  obtain ⟨pieces, hpieces, heq⟩ := exists_pieces_of_forall₂ h
  refine ⟨head :: pieces, ?_, by rw [heq, flatten_cons]⟩
  rw [met_eq]
  exact .cons hhead hpieces

variable (hnumbered : Numbered module) (h : Lossy k decided module v New R)
include hnumbered h

lemma pieces_of_undecided (hn : n ∈ module.met) (hkind : n.kind = k) (hdecided : decided n = false) :
    Pieces k decided module v New n (listed v n) := by
  refine ⟨n.met.map v, ?_, by rw [listed, flatMap_def]⟩
  rw [forall₂_map_right_iff, forall₂_same]
  intro c hc
  have hmet := met_subset hn hc
  rw [Piece]
  split
  next hlive =>
    cases hnode : c.kind.isFiller with
    | true => exact h.filler hnode
    | false =>
      have hall := (isLive_iff hnumbered hmet hnode).1 hlive n hn hkind hc
      rw [hdecided] at hall
      cases hall
  next => rfl

/-- **What is listed after a lossy pass**: in place of each live node something new, and the old otherwise. -/
theorem exists_pieces (hn : n ∈ module.met) (hlive : isLive k decided module n = true) {e : Edit} (he : R n e)
    (isBody : Bool) : Pieces k decided module v New n ((e.members isBody n).flatMap (listed v)) := by
  induction n generalizing e isBody with
  | h n ih =>
    have hdecided : n.kind = k → decided n = true := by
      intro hkind
      exact (isLive_iff hnumbered hn (hkind ▸ h.kind)).1 hlive n hn hkind (self_mem_met n)
    obtain ⟨new, head, hnew, hhead, hlisted⟩ := h.rebuilt hn hdecided he
    have hmem {c : Node} (hc : c ∈ n.visited) : c ∈ module.met := met_subset hn (visited_subset hc)
    obtain ⟨lists, hlists, heq⟩ := Edit.exists_pieces (v := v) (T := Pieces k decided module v New) hnew
      (fun c hc c' => h.keepsKind (hmem hc)) fun c hc e he isBody => by
        by_cases hundecided : c.kind = k ∧ decided c = false
        · obtain rfl := h.undecided (hmem hc) hundecided.1 hundecided.2 he
          rw [members_keep_self, flatMap_singleton]
          exact h.pieces_of_undecided hnumbered (hmem hc) hundecided.1 hundecided.2
        · refine ih c hc (hmem hc) (isLive_of_mem_visited hnumbered hn hlive hc fun hkind => ?_) he isBody
          rw [← Bool.not_eq_false]
          exact fun hfalse => hundecided ⟨hkind, hfalse⟩
    rw [hlisted isBody, heq]
    exact pieces_of_visited (by rw [Piece, if_pos hlive]; exact hhead) hlists

end Lossy

end Mender.Edit
