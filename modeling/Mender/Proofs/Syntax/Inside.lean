import Mathlib.Data.List.GetD
import Mathlib.Data.List.Nodup
import Mathlib.Data.List.Range
import Mender.Proofs.Syntax.Passes
import Mender.Syntax.Read

/-!
# Nodes inside nodes

Two parts of a tree share no node, as long as no node occurs twice (`Node.eq_of_shared`).

* `Node.nodes_subset` — what is inside a node of a tree is inside the tree.
-/

namespace Mender.Syntax.Node

open List

/-! ## Numbered trees

Numbering gives the nodes of a tree their places as marks, so a mark belongs to one node only. -/

/-! ## Marks -/

section

variable {k : Kind} (t : String) (ps : List Node) (m : Option Nat)

lemma nodes_filler (hk : k.isFiller = true) : nodes (.mk k t ps m) = nodesOf ps := by
  rw [nodes, if_pos hk]

lemma nodes_node (hk : k.isFiller = false) : nodes (.mk k t ps m) = .mk k t ps m :: nodesOf ps := by
  rw [nodes, hk]
  rfl

lemma number_filler (hk : k.isFiller = true) (next : Nat) :
    number (.mk k t ps m) next = (.mk k t (numberList ps next).1 none, (numberList ps next).2) := by
  rw [number, if_pos hk]

lemma number_node (hk : k.isFiller = false) (next : Nat) : number (.mk k t ps m) next =
      (.mk k t (numberList ps (next + 1)).1 (some next), (numberList ps (next + 1)).2) := by
  rw [number, hk]
  rfl

lemma numberList_cons (p : Node) (next : Nat) : numberList (p :: ps) next =
      ((number p next).1 :: (numberList ps (number p next).2).1, (numberList ps (number p next).2).2) := by
  rw [numberList]

end

mutual

theorem marks_number : ∀ (n : Node) (next : Nat), ∃ count, (number n next).2 = next + count ∧
      (number n next).1.nodes.map mark = (range' next count).map some
  | .mk k t ps m, next => by
    cases hk : k.isFiller with
    | true =>
      obtain ⟨count, hnext, hmarks⟩ := marks_numberList ps next
      rw [number_filler t ps m hk, nodes_filler t _ _ hk]
      exact ⟨count, hnext, hmarks⟩
    | false =>
      obtain ⟨count, hnext, hmarks⟩ := marks_numberList ps (next + 1)
      rw [number_node t ps m hk, nodes_node t _ _ hk]
      refine ⟨count + 1, by omega, ?_⟩
      rw [map_cons, hmarks, range'_succ]
      rfl

theorem marks_numberList : ∀ (ps : List Node) (next : Nat), ∃ count, (numberList ps next).2 = next + count ∧
      (nodesOf (numberList ps next).1).map mark = (range' next count).map some
  | [], next => ⟨0, rfl, rfl⟩
  | p :: ps, next => by
    obtain ⟨count, hnext, hmarks⟩ := marks_number p next
    obtain ⟨count', hnext', hmarks'⟩ := marks_numberList ps (next + count)
    rw [numberList_cons, hnext]
    refine ⟨count + count', by omega, ?_⟩
    rw [nodesOf, map_append, hmarks, hmarks', ← map_append, range'_append_1]

end

lemma map_mark_numbered (n : Node) : n.numbered.nodes.map mark = (range n.count).map some := by
  obtain ⟨count, hnext, hmarks⟩ := marks_number n 0
  rw [numbered, Node.count, hmarks, hnext, range_eq_range', Nat.zero_add]

lemma nodup_map_mark_numbered (n : Node) : (n.numbered.nodes.map mark).Nodup := by
  rw [map_mark_numbered]
  exact nodup_range.map fun _ _ => Option.some.inj

lemma eq_of_mark_eq {n a b : Node} (ha : a ∈ n.numbered.nodes) (hb : b ∈ n.numbered.nodes) (h : a.mark = b.mark) : a = b :=
  inj_on_of_nodup_map (nodup_map_mark_numbered n) ha hb h

lemma exists_mark {n a : Node} (ha : a ∈ n.numbered.nodes) : ∃ m, a.mark = some m := by
  have hmem : a.mark ∈ n.numbered.nodes.map mark := mem_map_of_mem ha
  rw [map_mark_numbered] at hmem
  obtain ⟨m, -, hm⟩ := mem_map.1 hmem
  exact ⟨m, hm.symm⟩

lemma whole?_eq_some_iff {n n' : Node} : n.whole? = some n' ↔ n = n' ∧ ∀ c ∈ n.nodes, c.flaw? = none := by
  rw [whole?, Option.ite_none_right_eq_some, all_eq_true, Option.some_inj, and_comm]
  simp only [Option.isNone_iff_eq_none]

variable {source : String} {module : Node}

lemma exists_whole (h : ofModule? source = some module) :
    ∃ n : Node, (∀ c ∈ n.nodes, c.flaw? = none) ∧ module = n.numbered ∧ module.isSettled = true := by
  obtain ⟨⟨n, unit⟩, -, h⟩ := Option.bind_eq_some_iff.1 h
  obtain ⟨n', hwhole, h⟩ := Option.bind_eq_some_iff.1 h
  obtain ⟨rfl, hflaw⟩ := whole?_eq_some_iff.1 hwhole
  obtain ⟨hsettled, h⟩ := Option.ite_none_right_eq_some.1 h
  cases h
  exact ⟨_, hflaw, rfl, hsettled⟩

lemma exists_numbered (h : ofModule? source = some module) : ∃ n : Node, module = n.numbered :=
  (exists_whole h).imp fun _ h => h.2.1

/-! ## Ways to walk through a tree -/

mutual

theorem perm_nodesAfter : ∀ n : Node, n.nodesAfter.Perm n.nodes
  | .mk k t ps m => by
    rw [nodesAfter, nodes]
    split
    · exact perm_nodesAfterOf ps
    · exact (perm_append_singleton _ _).trans ((perm_nodesAfterOf ps).cons _)

theorem perm_nodesAfterOf : ∀ ps : List Node, (nodesAfterOf ps).Perm (nodesOf ps)
  | [] => .refl _
  | p :: ps => by
    rw [nodesAfterOf, nodesOf]
    exact (perm_nodesAfter p).append (perm_nodesAfterOf ps)

end

variable {ps : List Node} {a p q c n y : Node}

lemma mem_nodesOf : a ∈ nodesOf ps ↔ ∃ p ∈ ps, a ∈ p.nodes := by
  induction ps with
  | nil => simp [nodesOf]
  | cons p ps ih => simp [nodesOf, ih]

lemma nodes_eq : n.nodes = if n.kind.isFiller then nodesOf n.parts else n :: nodesOf n.parts := by
  obtain ⟨k, t, ps, m⟩ := n
  rw [nodes]
  rfl

lemma self_mem_nodes (h : n.kind.isFiller = false) : n ∈ n.nodes := by
  rw [nodes_eq, h]
  exact mem_cons_self ..

lemma nodesOf_parts_sublist (n : Node) : (nodesOf n.parts).Sublist n.nodes := by
  rw [nodes_eq]
  split
  · exact .refl _
  · exact sublist_cons_self ..

lemma nodes_sublist_nodesOf (h : p ∈ ps) : p.nodes.Sublist (nodesOf ps) := by
  induction ps with
  | nil => cases h
  | cons q ps ih =>
    rw [nodesOf]
    rcases mem_cons.1 h with rfl | h
    · exact sublist_append_left ..
    · exact (ih h).trans (sublist_append_right ..)

lemma nodes_sublist_of_mem_parts (h : p ∈ n.parts) : p.nodes.Sublist n.nodes :=
  (nodes_sublist_nodesOf h).trans (nodesOf_parts_sublist n)

lemma get_cases (n : Node) (s : Slot) : n.get s ∈ n.parts ∨ n.get s = absent := by
  cases hi : n.kind.slots.idxOf? s with
  | none => exact .inr (by rw [get, hi])
  | some i =>
    rw [get_eq_getD hi]
    rcases lt_or_ge i n.parts.length with hlt | hge
    · rw [getD_eq_getElem _ _ hlt]
      exact .inl (getElem_mem hlt)
    · exact .inr (getD_eq_default _ _ hge)

lemma nodes_get_sublist (n : Node) (s : Slot) : (n.get s).nodes.Sublist n.nodes := by
  rcases get_cases n s with h | h
  · exact nodes_sublist_of_mem_parts h
  · rw [h]
    exact nil_sublist _

lemma nodesOf_list_sublist (n : Node) (s : Slot) : (nodesOf (n.list s)).Sublist n.nodes := by
  refine .trans ?_ (nodes_get_sublist n s)
  rw [Node.list, items]
  split
  · exact nodesOf_parts_sublist _
  · exact nil_sublist _

lemma mem_items (h : c ∈ q.items) : c ∈ q.parts := by
  rw [items] at h
  split at h
  · exact h
  · cases h

lemma nodes_sublist_of_mem_opened (h : c ∈ q.opened) : c.nodes.Sublist q.nodes := by
  rcases cases_of_mem_opened h with ⟨rfl, -⟩ | ⟨-, h⟩
  · exact .refl _
  · exact nodes_sublist_of_mem_parts h

section

variable (h : a ∈ n.nodes)
include h

lemma mem_nodes : a = n ∨ ∃ p ∈ n.parts, a ∈ p.nodes := by
  rw [nodes_eq] at h
  split at h
  · exact .inr (mem_nodesOf.1 h)
  · exact (mem_cons.1 h).imp_right mem_nodesOf.1

lemma nodes_sublist_of_mem_nodes : a.nodes.Sublist n.nodes := by
  induction n using partsInduction with
  | h n ih =>
    rcases mem_nodes h with rfl | ⟨p, hp, ha⟩
    · exact .refl _
    · exact (ih p hp ha).trans (nodes_sublist_of_mem_parts hp)

lemma nodes_subset : a.nodes ⊆ n.nodes := (nodes_sublist_of_mem_nodes h).subset

lemma sizeOf_le_of_mem_nodes : sizeOf a ≤ sizeOf n := by
  induction n using partsInduction with
  | h n ih =>
    rcases mem_nodes h with rfl | ⟨p, hp, ha⟩
    · exact Nat.le_refl _
    · exact Nat.le_trans (ih p hp ha) (Nat.le_of_lt (sizeOf_lt_of_mem_parts hp))

end

lemma sizeOf_lt_of_mem_get {s : Slot} (h : a ∈ (n.get s).nodes) : sizeOf a < sizeOf n := by
  rcases get_cases n s with hpart | habsent
  · exact Nat.lt_of_le_of_lt (sizeOf_le_of_mem_nodes h) (sizeOf_lt_of_mem_parts hpart)
  · rw [habsent] at h
    cases h

lemma eq_of_shared (hnodup : (nodesOf ps).Nodup) (hp : p ∈ ps) (hq : q ∈ ps) (hyp : y ∈ p.nodes)
    (hyq : y ∈ q.nodes) : p = q := by
  induction ps with
  | nil => cases hp
  | cons c ps ih =>
    rw [nodesOf] at hnodup
    have hdisjoint := disjoint_of_nodup_append hnodup
    rcases mem_cons.1 hp with rfl | hp'
    · rcases mem_cons.1 hq with rfl | hq'
      · rfl
      · exact absurd (mem_nodesOf.2 ⟨q, hq', hyq⟩) (hdisjoint hyp)
    · rcases mem_cons.1 hq with rfl | hq'
      · exact absurd (mem_nodesOf.2 ⟨p, hp', hyp⟩) (hdisjoint hyq)
      · exact ih hnodup.of_append_right hp' hq'

lemma mem_nodes_of_shared (hnodup : (nodesOf ps).Nodup) (hp : p ∈ ps) (hq : q ∈ ps) (hyp : y ∈ p.nodes)
    (hyq : y ∈ q.nodes) (ha : a ∈ p.nodes) : a ∈ q.nodes :=
  eq_of_shared hnodup hp hq hyp hyq ▸ ha

lemma nodesOf_eq (ps : List Node) : nodesOf ps = ps.flatMap nodes := by
  induction ps with
  | nil => rfl
  | cons p ps ih => rw [nodesOf, ih, flatMap_cons]

lemma nodesOf_opened_sublist (p : Node) : (nodesOf p.opened).Sublist p.nodes := by
  rcases place_cases p with hseq | ⟨hfill, hseq⟩ | hnode
  · rw [opened_run hseq]
    exact nodesOf_parts_sublist p
  · rw [opened_filler hfill hseq]
    exact nil_sublist _
  · rw [opened_node hnode, nodesOf_eq, flatMap_singleton]

lemma nodesOf_visitedOf_sublist {fs : List Fill} : (nodesOf (visitedOf fs ps)).Sublist (nodesOf ps) := by
  fun_induction visitedOf fs ps with
  | case1 f fs p ps ih =>
    rw [nodesOf_eq, flatMap_append, ← nodesOf_eq, ← nodesOf_eq, nodesOf]
    exact (nodesOf_opened_sublist p).append ih
  | case2 => exact nil_sublist _

lemma nodesOf_visited_sublist (n : Node) : (nodesOf n.visited).Sublist (nodesOf n.parts) := nodesOf_visitedOf_sublist

lemma nodes_sublist_of_mem_visited (h : c ∈ n.visited) : c.nodes.Sublist n.nodes :=
  (nodes_sublist_nodesOf h).trans ((nodesOf_visited_sublist n).trans (nodesOf_parts_sublist n))

lemma nodes_sublist_of_mem_met (h : c ∈ n.met) : c.nodes.Sublist n.nodes :=
  of_met (P := fun c => c.nodes.Sublist n.nodes) (fun _ h _ hc => (nodes_sublist_of_mem_parts hc).trans h) (.refl _) h

lemma mem_nodes_of_mem_met (h : c ∈ n.met) : c.nodes ⊆ n.nodes := (nodes_sublist_of_mem_met h).subset

/-! ## Fillers -/

inductive Orderly : Node → Prop
  | mk {n : Node} : (n.kind.isFiller = true → n.mark = none) → (∀ p ∈ n.parts, Orderly p) → Orderly n

mutual

theorem orderly_number : ∀ (n : Node) (next : Nat), Orderly (number n next).1
  | .mk k t ps m, next => by
    cases hk : k.isFiller with
    | true =>
      rw [number_filler t ps m hk]
      exact .mk (fun _ => rfl) (orderly_numberList ps next)
    | false =>
      rw [number_node t ps m hk]
      exact .mk (fun hfill => absurd (hk.symm.trans hfill) nofun) (orderly_numberList ps (next + 1))

theorem orderly_numberList : ∀ (ps : List Node) (next : Nat), ∀ p ∈ (numberList ps next).1, Orderly p
  | [], _ => fun _ hp => absurd hp not_mem_nil
  | p :: ps, next => by
    rw [numberList_cons]
    exact forall_mem_cons.2 ⟨orderly_number p next, orderly_numberList ps _⟩

end

namespace Orderly

variable (h : Orderly n)
include h

lemma mark_of_isFiller (hfill : n.kind.isFiller = true) : n.mark = none := by
  obtain ⟨hn, -⟩ := h
  exact hn hfill

lemma of_mem_parts (hp : p ∈ n.parts) : Orderly p := by
  obtain ⟨-, hparts⟩ := h
  exact hparts p hp

lemma get (s : Slot) : Orderly (n.get s) := by
  rcases get_cases n s with hpart | habsent
  · exact h.of_mem_parts hpart
  · rw [habsent]
    exact .mk (fun _ => rfl) fun _ hp => absurd hp not_mem_nil

lemma of_mem_opened (hc : c ∈ n.opened) : Orderly c := by
  rcases cases_of_mem_opened hc with ⟨rfl, -⟩ | ⟨-, hc⟩
  · exact h
  · exact h.of_mem_parts hc

lemma of_mem_met (hc : c ∈ n.met) : Orderly c := of_met (fun _ h _ hc => h.of_mem_parts hc) h hc

lemma of_mem_nodes (ha : a ∈ n.nodes) : Orderly a := by
  induction n using partsInduction with
  | h n ih =>
    rcases mem_nodes ha with rfl | ⟨p, hp, ha⟩
    · exact h
    · exact ih p hp (h.of_mem_parts hp) ha

lemma self_mem_nodes {m : Nat} (hm : n.mark = some m) : n ∈ n.nodes := by
  refine Node.self_mem_nodes (Bool.eq_false_iff.2 fun hfill => ?_)
  rw [h.mark_of_isFiller hfill] at hm
  cases hm

end Orderly

end Mender.Syntax.Node

/-! ## Trees in which each node has its mark

In a module that was read, each node has a mark of its own. So a node is found by its mark, and it stands in one place only:
two nodes that hold the same node directly are the same (`Numbered.eq_of_shared`). -/

namespace Mender.Syntax.Node

lemma mark_of_identical {a b : Node} (h : a.identical b = true) : a.mark.isSome = true ∧ b.mark.isSome = true := by
  rw [identical] at h
  split at h
  next i j hi hj =>
    rw [hi, hj]
    exact ⟨rfl, rfl⟩
  next => cases h

/-- Each node of the tree has a mark of its own, and nothing else has a mark. -/
structure Numbered (n : Node) : Prop where
  orderly : Orderly n
  nodup : (n.nodes.map mark).Nodup
  marked : ∀ a ∈ n.nodes, a.mark.isSome = true

lemma numbered_of_read {source : String} {module : Node} (h : ofModule? source = some module) : Numbered module := by
  obtain ⟨n, rfl⟩ := exists_numbered h
  refine ⟨orderly_number n 0, nodup_map_mark_numbered n, fun a ha => ?_⟩
  obtain ⟨m, hm⟩ := exists_mark ha
  rw [hm]
  rfl

namespace Numbered

variable {n a c b d : Node} (h : Numbered n)
include h

lemma of_mem_nodes (ha : a ∈ n.nodes) : Numbered a where
  orderly := h.orderly.of_mem_nodes ha
  nodup := h.nodup.sublist ((nodes_sublist_of_mem_nodes ha).map mark)
  marked c hc := h.marked c (nodes_subset ha hc)

lemma of_mem_met (hc : c ∈ n.met) : Numbered c where
  orderly := h.orderly.of_mem_met hc
  nodup := h.nodup.sublist ((nodes_sublist_of_mem_met hc).map mark)
  marked d hd := h.marked d ((nodes_sublist_of_mem_met hc).subset hd)

lemma nodup_nodes : n.nodes.Nodup := h.nodup.of_map

lemma eq_of_mark (ha : a ∈ n.nodes) (hb : b ∈ n.nodes) (hmark : a.mark = b.mark) :
    a = b := List.inj_on_of_nodup_map h.nodup ha hb hmark

lemma eq_of_identical (ha : a ∈ n.nodes) (hb : b ∈ n.nodes) (hab : a.identical b = true) : a = b := by
  rw [identical] at hab
  split at hab
  next i j hi hj => exact h.eq_of_mark ha hb (by rw [hi, hj, beq_iff_eq.1 hab])
  next => cases hab

lemma isFiller_of_mark (hmark : n.mark.isSome = true) : n.kind.isFiller = false := by
  rw [Bool.eq_false_iff]
  intro hfill
  rw [h.orderly.mark_of_isFiller hfill] at hmark
  cases hmark

lemma mem_nodes_of_mem_list {s : Slot} (ha : a ∈ n.nodes) (hc : c ∈ a.list s)
    (hmark : c.mark.isSome = true) : c ∈ n.nodes := by
  obtain ⟨m, hm⟩ := Option.isSome_iff_exists.1 hmark
  have horderly := ((h.of_mem_nodes ha).orderly.get s).of_mem_parts (mem_items hc)
  have hsub := (nodes_sublist_of_mem_parts (mem_items hc)).trans (nodes_get_sublist a s)
  exact nodes_subset ha (hsub.subset (horderly.self_mem_nodes hm))

lemma eq_of_shared (hc : c ∈ n.visited) (hd : d ∈ n.visited) (hac : a ∈ c.nodes) (had : a ∈ d.nodes) : c = d := by
  have hnodup : (nodesOf n.visited).Nodup :=
    h.nodup_nodes.sublist ((nodesOf_visited_sublist n).trans (nodesOf_parts_sublist n))
  exact Node.eq_of_shared hnodup hc hd hac had

end Numbered

end Mender.Syntax.Node
