import Mender.Proofs.Syntax.Making

/-!
# What stands in blocks

`standing` goes through the blocks of a tree. For proofs this is said one level at a time: `framed` are the nodes in the
blocks of one node, and `standing_eq` is the way through all blocks in these terms.

* `forall₂_framed` — the blocks of a rebuilt node, if all nodes in it are kept;
* `framed_set` — the blocks of a node that is changed elsewhere.
-/

namespace Mender.Edit

open Syntax Node List

variable {a : Node} {places before after : List (Slot × Fill)} {s : Slot} (n : Node)

def framedAt (s : Slot) (f : Fill) (p : Node) : List Node :=
  if ! isBlockPlace s then [] else if isRunPlace f then p.items else if p.kind.isFiller then [] else [p]

def framedOf : List (Slot × Fill) → List Node → List Node
  | (s, f) :: places, p :: ps => framedAt s f p ++ framedOf places ps
  | _, _ => []

/-- The statements and clauses in the blocks of a node. -/
def framed : List Node := if isFrame n.kind then framedOf n.kind.shape n.parts else []

lemma standingRun_eq (ns : List Node) : standingRun ns = ns.flatMap standing := by
  induction ns with
  | nil => rw [standingRun, flatMap_nil]
  | cons n ns ih => rw [standingRun, ih, flatMap_cons]

lemma standingOf_eq (ps : List Node) : standingOf places ps = (framedOf places ps).flatMap standing := by
  fun_induction framedOf places ps with
  | case1 s f places p ps ih =>
    obtain ⟨k, t, qs, m⟩ := p
    rw [standingOf, flatMap_append, ih, framedAt]
    congr 1
    split
    · rfl
    · split
      · change (if k = .seq then standingRun qs else []) = flatMap standing (if k = .seq then qs else [])
        rw [standingRun_eq]
        split <;> rfl
      · change _ = flatMap standing (if k.isFiller then [] else _)
        split
        · rfl
        · rw [flatMap_singleton]
  | case2 places ps hnot =>
    rw [standingOf, flatMap_nil]
    exact fun s f places k t qs m rest => hnot s f places _ rest

lemma standing_eq : standing n = n :: (framed n).flatMap standing := by
  obtain ⟨k, t, ps, m⟩ := n
  rw [standing, standingOf_eq]
  show _ :: (if isFrame k then _ else _) = _ :: flatMap standing (if isFrame k then _ else _)
  cases isFrame k <;> rfl

variable {n} in
lemma mem_standing : a ∈ standing n ↔ a = n ∨ ∃ c ∈ framed n, a ∈ standing c := by
  rw [standing_eq, mem_cons, mem_flatMap]

lemma self_mem_standing : n ∈ standing n := mem_standing.2 (.inl rfl)

lemma framedAt_sublist (s : Slot) (f : Fill) (p : Node) : (framedAt s f p).Sublist p.opened := by
  rw [framedAt]
  split
  · exact nil_sublist _
  · split
    · rw [items]
      split
      next hseq => rw [opened_run hseq]
      next => exact nil_sublist _
    · split
      next => exact nil_sublist _
      next hnode => rw [opened_node (Bool.eq_false_iff.2 hnode)]

lemma framedOf_sublist (places : List (Slot × Fill)) (ps : List Node) :
    (framedOf places ps).Sublist (visitedOf (places.map Prod.snd) ps) := by
  fun_induction framedOf places ps with
  | case1 s f places p ps ih => exact (framedAt_sublist s f p).append ih
  | case2 => exact nil_sublist _

lemma framed_sublist : (framed n).Sublist n.visited := by
  rw [framed]
  split
  · exact framedOf_sublist n.kind.shape n.parts
  · exact nil_sublist _

lemma framedInduction {P : Node → Prop} (h : ∀ n, (∀ c ∈ framed n, P c) → P n) (n : Node) : P n :=
  visitedInduction (fun n ih => h n fun c hc => ih c ((framed_sublist n).subset hc)) n

lemma mem_met_of_mem_standing {n : Node} (h : a ∈ standing n) : a ∈ n.met := by
  induction n using framedInduction with
  | h n ih =>
    rw [mem_standing] at h
    exact mem_met.2 <| h.imp_right fun ⟨c, hc, ha⟩ => ⟨c, (framed_sublist n).subset hc, ih c hc ha⟩

lemma standing_trans {n b : Node} (ha : a ∈ standing n) (hb : b ∈ standing a) : b ∈ standing n := by
  induction n using framedInduction with
  | h n ih =>
    rcases mem_standing.1 ha with rfl | ⟨c, hc, ha⟩
    · exact hb
    · exact mem_standing.2 (.inr ⟨c, hc, ih c hc ha⟩)

lemma mem_framed_of_mem_standing {n : Node} (h : a ∈ standing n) : a = n ∨ ∃ b ∈ standing n, a ∈ framed b := by
  induction n using framedInduction with
  | h n ih =>
    rcases mem_standing.1 h with rfl | ⟨c, hc, ha⟩
    · exact .inl rfl
    · right
      rcases ih c hc ha with rfl | ⟨b, hb, hab⟩
      · exact ⟨n, self_mem_standing _, hc⟩
      · exact ⟨b, mem_standing.2 (.inr ⟨c, hc, hb⟩), hab⟩

lemma mem_nodes_of_mem_standing {n : Node} (h : a ∈ standing n) (hnode : a.kind.isFiller = false) : a ∈ n.nodes :=
  mem_nodes_of_mem_met (mem_met_of_mem_standing h) (self_mem_nodes hnode)

lemma isFiller_of_mem_framed {n c : Node} (h : c ∈ framed n) : n.kind.isFiller = false := by
  rw [framed] at h
  split at h
  next hframe =>
    generalize n.kind = k at hframe
    cases k <;> first | rfl | cases hframe
  next => cases h

lemma mem_standing_of_mem_nodes {n b : Node} (h : Numbered n) (ha : a ∈ standing n) (hb : b ∈ standing n)
    (hself : b ∈ b.nodes) (hba : b ∈ a.nodes) : b ∈ standing a := by
  induction n using framedInduction with
  | h n ih =>
    rw [mem_standing] at ha hb
    rcases ha with rfl | ⟨c, hc, ha⟩
    · exact mem_standing.2 hb
    · have hc' := (framed_sublist n).subset hc
      have hbc : b ∈ c.nodes := (nodes_sublist_of_mem_met (mem_met_of_mem_standing ha)).subset hba
      rcases hb with rfl | ⟨d, hd, hb⟩
      · exact absurd (sizeOf_le_of_mem_nodes hbc) (Nat.not_le.2 (sizeOf_lt_of_mem_visited hc'))
      · have hbd : b ∈ d.nodes := (nodes_sublist_of_mem_met (mem_met_of_mem_standing hb)).subset hself
        have hmet : c ∈ n.met := by
          exact mem_met_of_mem_visited hc' (self_mem_met c)
        obtain rfl := h.eq_of_shared hc' ((framed_sublist n).subset hd) hbc hbd
        exact ih c hc (h.of_mem_met hmet) ha hb

/-- Whether a frame is in order does not depend on the statements in it. -/
lemma flaw?_of_beside {n new : Node} (hkind : new.kind = n.kind) (hframe : isFrame n.kind = true)
    (hget : ∀ s, isBlockPlace s = false → (new.get s).cleared = (n.get s).cleared) : new.flaw? = n.flaw? := by
  have hget' {s : Slot} (hs : isBlockPlace s = false) : new.cleared.get s = n.cleared.get s := by
    rw [get_cleared, get_cleared, hget s hs]
  rw [← flaw?_cleared, ← flaw?_cleared n, Node.flaw?, Node.flaw?, flaws, flaws, kind_cleared, kind_cleared, hkind]
  generalize n.kind = k at hframe
  cases k <;> first | exact absurd hframe (by decide) | simp only [forFlaws, list, hget' (s := .afterKeyword) rfl,
    hget' (s := .beforeTest) rfl, hget' (s := .test) rfl, hget' (s := .target) rfl, hget' (s := .beforeIn) rfl,
    hget' (s := .afterIn) rfl, hget' (s := .iter) rfl, hget' (s := .type) rfl, hget' (s := .items) rfl]

/-! ## What nodes show -/

section

variable {β : Type} (v : Node → List β)

/-- What the statements of a tree show, in order. -/
def shown (n : Node) : List β := (standing n).flatMap v

lemma shown_eq (n : Node) : shown v n = v n ++ (framed n).flatMap (shown v) := by
  rw [shown, standing_eq, flatMap_cons, flatMap_assoc]
  rfl

end

/-! ## Blocks of changed nodes -/

section

variable {R : Node → Edit → Prop} {Q : Node → Node → Prop} {n n' : Node} {f : Fill}

lemma forall₂_framedAt (hQ : Steady Q) {p p' : Node} (h : KeptPart Q p p') :
    Forall₂ Q (framedAt s f p) (framedAt s f p') := by
  rw [framedAt, framedAt, h.isFiller_eq hQ]
  split
  · exact .nil
  · split
    · exact h.items hQ
    · split
      next => exact .nil
      next hnode => exact .cons (h.of_node (Bool.eq_false_iff.2 hnode)) .nil

lemma forall₂_framedOf (hQ : Steady Q) {ps qs : List Node} (h : PartsTo R (places.map Prod.snd) ps qs)
    (hkeep : KeepsIn R Q (visitedOf (places.map Prod.snd) ps)) :
    Forall₂ Q (framedOf places ps) (framedOf places qs) := by
  induction places generalizing ps qs with
  | nil =>
    exact .nil
  | cons place places ih =>
    cases h with
    | cons hp hps =>
      refine rel_append ?_ (ih hps fun c hc => hkeep c (mem_append_right _ hc))
      exact forall₂_framedAt hQ (keptPart_of_partTo hQ hp fun c hc => hkeep c (mem_append_left _ hc))
    | rest hor =>
      obtain rfl := hor.resolve_left (cons_ne_nil _ _)
      exact .nil

lemma forall₂_framed (hQ : Steady Q) (h : RebuiltTo R n n') (hkeep : KeepsIn R Q n.visited) :
    Forall₂ Q (framed n) (framed n') := by
  rw [framed, framed, h.kind]
  split
  · exact forall₂_framedOf hQ h.parts hkeep
  · exact .nil

lemma framedOf_set {ps : List Node} {i : Nat} (hi : (places.map Prod.fst)[i]? = some s) (hs : isBlockPlace s = false)
    (part : Node) :
    framedOf places (ps.set i part) = framedOf places ps := by
  induction places generalizing ps i with
  | nil => cases hi
  | cons place places ih =>
    cases ps with
    | nil => rfl
    | cons p ps =>
      cases i with
      | zero =>
        cases hi
        rw [set_cons_zero, framedOf, framedOf, framedAt, framedAt, hs]
        rfl
      | succ i => rw [set_cons_succ, framedOf, framedOf, ih hi]

lemma framed_set (hs : isBlockPlace s = false) (n part : Node) : framed (n.set s part) = framed n := by
  cases hi : n.kind.slots.idxOf? s with
  | none =>
    rw [Node.set, hi]
    cases n
    rfl
  | some i =>
    obtain ⟨hlt, hs', -⟩ := List.idxOf?_eq_some_iff.1 hi
    rw [set_eq hi]
    show (if isFrame n.kind then framedOf n.kind.shape (n.parts.set i part) else []) = framed n
    rw [framedOf_set (List.getElem?_eq_some_iff.2 ⟨hlt, hs'⟩) hs, framed]

lemma framedOf_of_none (h : ∀ place ∈ places, isBlockPlace place.1 = false) (ps : List Node) : framedOf places ps = [] := by
  fun_induction framedOf places ps with
  | case1 s f places p ps ih =>
    rw [forall_mem_cons] at h
    rw [framedAt, h.1, ih h.2]
    rfl
  | case2 => rfl

lemma framedAt_absent (s : Slot) (f : Fill) : framedAt s f absent = [] := by
  rw [framedAt]
  split
  · rfl
  · split <;> rfl

lemma framedOf_of_single (hbefore : ∀ place ∈ before, isBlockPlace place.1 = false)
    (hafter : ∀ place ∈ after, isBlockPlace place.1 = false) (ps : List Node) :
    framedOf (before ++ (s, f) :: after) ps = framedAt s f (ps.getD before.length absent) := by
  induction before generalizing ps with
  | nil =>
    cases ps with
    | nil => exact (framedAt_absent s f).symm
    | cons p ps =>
      rw [nil_append, framedOf, framedOf_of_none hafter, append_nil]
      rfl
  | cons place before ih =>
    rw [forall_mem_cons] at hbefore
    cases ps with
    | nil => exact (framedAt_absent s f).symm
    | cons p ps =>
      rw [cons_append, framedOf, framedAt, hbefore.1, ih hbefore.2]
      rfl

def isBlock (k : Kind) : Bool := [.module, .indentedBlock, .simpleStatementLine, .simpleStatementSuite].contains k

def isHead (k : Kind) : Bool :=
  [.exceptHandler, .elseClause, .finallyClause, .withStatement, .functionDef, .classDef].contains k

structure HasBody (k : Kind) (f : Fill) (before after : List (Slot × Fill)) : Prop where
  isFrame : isFrame k = true
  shape : k.shape = before ++ (.body, f) :: after
  idxOf? : k.slots.idxOf? .body = some before.length
  before : ∀ place ∈ before, isBlockPlace place.1 = false
  after : ∀ place ∈ after, isBlockPlace place.1 = false

lemma HasBody.framed (h : HasBody n.kind f before after) : framed n = framedAt .body f (n.get .body) := by
  rw [Edit.framed, if_pos h.isFrame, h.shape, framedOf_of_single h.before h.after, get_eq_getD h.idxOf?]

lemma framed_of_isBlock (h : isBlock n.kind = true) : framed n = n.list .body := by
  have hbody : ∃ f, isRunPlace f = true ∧ ∃ before after, HasBody n.kind f before after := by
    generalize n.kind = k at h
    cases k <;> first
      | cases h; done
      | exact ⟨_, rfl, _, _, rfl, (take_append_drop 1 _).symm, rfl, by decide, by decide⟩
  obtain ⟨f, hf, before, after, hbody⟩ := hbody
  rw [hbody.framed, framedAt, hf]
  rfl

lemma framed_of_isHead (h : isHead n.kind = true) :
    framed n = if (n.get .body).kind.isFiller then [] else [n.get .body] := by
  have hbody : ∃ before after, HasBody n.kind .needed before after := by
    generalize n.kind = k at h
    cases k <;> first
      | cases h; done
      | exact ⟨_, _, rfl, (dropLast_concat_getLast (cons_ne_nil _ _)).symm, rfl, by decide, by decide⟩
  obtain ⟨before, after, hbody⟩ := hbody
  rw [hbody.framed]
  rfl

end

end Mender.Edit
