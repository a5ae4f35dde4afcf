import Mender.Proofs.Syntax.Cleared
import Mender.Scope.Facts

/-!
# The node around a node

`Facts.parent?` looks the node around a node up in a table of marks. In a numbered module it finds just the node that holds
the other directly (`parent?_eq_some_iff`), so what is under a node by the table is inside it (`mem_nodes_of_isUnder`).
-/

namespace Mender.Scope.Facts

open Syntax Node List Option

variable {n p c a module : Node} {source : String}

mutual

def tops : Node → List Node
  | .mk k t ps m => if k.isFiller then topsOf ps else [.mk k t ps m]

def topsOf : List Node → List Node
  | [] => []
  | p :: ps => tops p ++ topsOf ps

end

def children (n : Node) : List Node := topsOf n.parts

lemma mem_tops_self (h : n.kind.isFiller = false) : n ∈ tops n := by
  obtain ⟨k, t, ps, m⟩ := n
  have hnode : k.isFiller = false := h
  rw [tops, if_neg (Bool.eq_false_iff.1 hnode)]
  exact mem_cons_self ..

lemma tops_subset_of_mem {ps : List Node} (h : p ∈ ps) : tops p ⊆ topsOf ps := by
  induction ps with
  | nil => cases h
  | cons q ps ih =>
    rcases mem_cons.1 h with rfl | h
    · exact subset_append_left ..
    · exact List.Subset.trans (ih h) (subset_append_right ..)

lemma mem_children_of_mem_parts (hp : p ∈ n.parts) (h : c = p ∨ p.kind = .seq ∧ c ∈ p.parts)
    (hnode : c.kind.isFiller = false) : c ∈ children n := by
  rcases h with rfl | ⟨hseq, hc⟩
  · exact tops_subset_of_mem hp (mem_tops_self hnode)
  · have htops : tops p = topsOf p.parts := by
      obtain ⟨k, t, ps, m⟩ := p
      cases hseq
      rw [tops]
      exact if_pos rfl
    exact tops_subset_of_mem hp (htops ▸ tops_subset_of_mem hc (mem_tops_self hnode))

lemma mem_children_of_visited (h : c ∈ n.visited) (hnode : c.kind.isFiller = false) : c ∈ children n := by
  obtain ⟨p, hp, h⟩ := mem_visitedOf h
  exact mem_children_of_mem_parts hp (h.imp_left And.left) hnode

mutual

def withParents (parent : Option Nat) : Node → List (Node × Option Nat)
  | .mk k t ps m => if k.isFiller then withParentsOf parent ps else (.mk k t ps m, parent) :: withParentsOf m ps

def withParentsOf (parent : Option Nat) : List Node → List (Node × Option Nat)
  | [] => []
  | p :: ps => withParents parent p ++ withParentsOf parent ps

end

mutual

theorem map_fst_withParents : ∀ (parent : Option Nat) (n : Node), (withParents parent n).map Prod.fst = n.nodes
  | parent, .mk k t ps m => by
    rw [withParents, Node.nodes]
    split
    · exact map_fst_withParentsOf parent ps
    · rw [map_cons, map_fst_withParentsOf m ps]

theorem map_fst_withParentsOf : ∀ (parent : Option Nat) (ps : List Node), (withParentsOf parent ps).map Prod.fst = nodesOf ps
  | _, [] => rfl
  | parent, p :: ps => by
    rw [withParentsOf, nodesOf, map_append, map_fst_withParents parent p, map_fst_withParentsOf parent ps]

end

mutual

theorem map_snd_withParents : ∀ (parent : Option Nat) (n : Node), (withParents parent n).map Prod.snd = parentMarks parent n
  | parent, .mk k t ps m => by
    rw [withParents, parentMarks]
    split
    · exact map_snd_withParentsOf parent ps
    · rw [map_cons, map_snd_withParentsOf m ps]

theorem map_snd_withParentsOf : ∀ (parent : Option Nat) (ps : List Node),
    (withParentsOf parent ps).map Prod.snd = parentMarksOf parent ps
  | _, [] => rfl
  | parent, p :: ps => by
    rw [withParentsOf, parentMarksOf, map_append, map_snd_withParents parent p, map_snd_withParentsOf parent ps]

end

mutual

theorem mem_withParents_iff : ∀ {parent : Option Nat} {n c : Node} {p : Option Nat},
    (c, p) ∈ withParents parent n ↔ (c ∈ tops n ∧ p = parent) ∨ ∃ a ∈ n.nodes, c ∈ children a ∧ p = a.mark
  | parent, .mk k t ps m, c, p => by
    rw [withParents, tops, Node.nodes]
    split
    · exact mem_withParentsOf_iff
    · rw [mem_cons, mem_withParentsOf_iff, Prod.mk.injEq, mem_singleton]
      constructor
      · rintro (h | ⟨hc, rfl⟩ | ⟨a, ha, h⟩)
        · exact .inl h
        · exact .inr ⟨_, mem_cons_self .., hc, rfl⟩
        · exact .inr ⟨a, mem_cons_of_mem _ ha, h⟩
      · rintro (h | ⟨a, ha, h⟩)
        · exact .inl h
        · rcases mem_cons.1 ha with rfl | ha
          · exact .inr (.inl h)
          · exact .inr (.inr ⟨a, ha, h⟩)

theorem mem_withParentsOf_iff : ∀ {parent : Option Nat} {ps : List Node} {c : Node} {p : Option Nat},
    (c, p) ∈ withParentsOf parent ps ↔ (c ∈ topsOf ps ∧ p = parent) ∨ ∃ a ∈ nodesOf ps, c ∈ children a ∧ p = a.mark
  | _, [], c, p => by simp [withParentsOf, topsOf, nodesOf]
  | parent, q :: ps, c, p => by
    rw [withParentsOf, topsOf, nodesOf, mem_append, mem_withParents_iff, mem_withParentsOf_iff]
    simp only [mem_append, or_and_right, exists_or]
    exact or_or_or_comm

end

lemma mem_nodes_of_mem_children (h : c ∈ children a) : c ∈ a.nodes := by
  have hentry : (c, none) ∈ withParentsOf none a.parts := mem_withParentsOf_iff.2 (.inl ⟨h, rfl⟩)
  have hmem : c ∈ nodesOf a.parts := by
    rw [← map_fst_withParentsOf none]
    exact mem_map_of_mem hentry
  exact (nodesOf_parts_sublist a).subset hmem

/-! ## Looking up -/

def Counted (n : Node) : Prop := n.nodes.map mark = (range n.nodes.length).map some

lemma counted_of_read (h : ofModule? source = some module) : Counted module := by
  obtain ⟨n, rfl⟩ := exists_numbered h
  have hlength : n.count = n.numbered.nodes.length := by
    simpa using (congrArg length (map_mark_numbered n)).symm
  rw [Counted, ← hlength, map_mark_numbered]

lemma exists_of_read {f : Facts} (h : (ofModule? source).isSome = true)
    (hf : f = .of ((ofModule? source).getD .absent)) : ∃ module, ofModule? source = some module ∧ f = .of module := by
  obtain ⟨module, hread⟩ := Option.isSome_iff_exists.1 h
  exact ⟨module, hread, by rw [hf, hread, Option.getD_some]⟩

section

variable {module s : Node} (h : Counted module) {i fuel : Nat}
include h

lemma mark_of_getElem? (hi : module.nodes[i]? = some a) : a.mark = some i := by
  have hmark : (module.nodes.map mark)[i]? = some a.mark := by rw [List.getElem?_map, hi, map_some]
  obtain ⟨hlt, -⟩ := List.getElem?_eq_some_iff.1 hi
  rw [h, List.getElem?_map, List.getElem?_range hlt] at hmark
  exact (some.inj hmark).symm

lemma node?_eq_some_iff : (of module).node? i = some a ↔ a ∈ module.nodes ∧ a.mark = some i := by
  have hnode : (of module).node? i = module.nodes[i]? := by
    change module.nodes.toArray[i]? = _
    rw [getElem?_toArray]
  rw [hnode]
  constructor
  · intro hi
    exact ⟨mem_of_getElem? hi, mark_of_getElem? h hi⟩
  · rintro ⟨ha, hmark⟩
    obtain ⟨j, hj⟩ := mem_iff_getElem?.1 ha
    cases hmark.symm.trans (mark_of_getElem? h hj)
    exact hj

lemma parent?_eq_some_iff (hc : c ∈ module.nodes) : (of module).parent? c = some a ↔ a ∈ module.nodes ∧ c ∈ children a := by
  obtain ⟨i, hi⟩ := mem_iff_getElem?.1 hc
  have hmark := mark_of_getElem? h hi
  have hfst : (withParents none module)[i]?.map Prod.fst = some c := by
    rw [← getElem?_map, map_fst_withParents, hi]
  obtain ⟨⟨c', p⟩, hentry, rfl⟩ := map_eq_some_iff.1 hfst
  have hsnd : (parentMarks none module).toArray.getD i none = p := by
    rw [← map_snd_withParents, Array.getD_eq_getD_getElem?, getElem?_toArray, getElem?_map, hentry]
    rfl
  have hparent : (of module).parent? c' = p.bind (of module).node? := by
    rw [parent?, hmark]
    exact congrArg (bind · (of module).node?) hsnd
  rw [hparent]
  constructor
  · intro hp
    obtain ⟨j, rfl, hj⟩ := bind_eq_some_iff.1 hp
    obtain ⟨ha, haj⟩ := (node?_eq_some_iff h).1 hj
    rcases mem_withParents_iff.1 (mem_of_getElem? hentry) with ⟨-, hnone⟩ | ⟨a', ha', hc', haj'⟩
    · cases hnone
    · have heq := (node?_eq_some_iff h).2 ⟨ha', haj'.symm⟩
      cases hj.symm.trans heq
      exact ⟨ha, hc'⟩
  · rintro ⟨ha, hca⟩
    -- the entry for the node with this parent can only be the one at its own place
    have hmem : (c', a.mark) ∈ withParents none module := mem_withParents_iff.2 (.inr ⟨a, ha, hca, rfl⟩)
    obtain ⟨j, hj⟩ := mem_iff_getElem?.1 hmem
    have hnode : module.nodes[j]? = some c' := by
      rw [← map_fst_withParents none module, getElem?_map, hj]
      rfl
    cases hmark.symm.trans (mark_of_getElem? h hnode)
    cases hentry.symm.trans hj
    obtain ⟨k, hk⟩ := mem_iff_getElem?.1 ha
    have hself := mark_of_getElem? h hk
    rw [hself]
    exact (node?_eq_some_iff h).2 ⟨ha, hself⟩

lemma mem_nodes_of_mem_pathTo (hn : n ∈ module.nodes) (hp : p ∈ (of module).pathTo fuel n) :
    p ∈ module.nodes ∧ (p = n ∨ n ∈ p.nodes) := by
  induction fuel generalizing n with
  | zero =>
    rw [pathTo, mem_singleton] at hp
    exact ⟨hp ▸ hn, .inl hp⟩
  | succ fuel ih =>
    rw [pathTo, mem_cons] at hp
    rcases hp with rfl | hp
    · exact ⟨hn, .inl rfl⟩
    · split at hp
      next q hparent =>
        obtain ⟨hq, hchild⟩ := (parent?_eq_some_iff h hn).1 hparent
        obtain ⟨hmem, hinside⟩ := ih hq hp
        refine ⟨hmem, .inr ?_⟩
        rcases hinside with rfl | hinside
        · exact mem_nodes_of_mem_children hchild
        · exact nodes_subset hinside (mem_nodes_of_mem_children hchild)
      next => cases hp

lemma mem_nodes_of_isUnder (hnumbered : Numbered module) (hn : n ∈ module.nodes)
    (hs : s.mark.isSome = true → s ∈ module.nodes) (hunder : (of module).isUnder n s = true) : n ∈ s.nodes := by
  obtain ⟨p, hp, hsame⟩ := any_eq_true.1 hunder
  obtain ⟨hmem, hinside⟩ := mem_nodes_of_mem_pathTo h hn hp
  obtain rfl := hnumbered.eq_of_identical hmem (hs (mark_of_identical hsame).2) hsame
  rcases hinside with rfl | hinside
  · exact self_mem_nodes ((hnumbered.of_mem_nodes hn).isFiller_of_mark (hnumbered.marked _ hn))
  · exact hinside

end

end Mender.Scope.Facts

/-! ## What is known about the nodes of a module

Every node of a numbered module has a position (`exists_span`), so no question about where a node is fails. -/

namespace Mender.Syntax.Node

open List

mutual

theorem number_cleared : ∀ (n : Node) (next : Nat), number n.cleared next = number n next
  | .mk k t ps m, next => by rw [cleared_mk, number, number, numberList_cleared, numberList_cleared]

theorem numberList_cleared : ∀ (ps : List Node) (next : Nat), numberList (ps.map cleared) next = numberList ps next
  | [], _ => rfl
  | p :: ps, next => by rw [map_cons, numberList_cons, numberList_cons, number_cleared, numberList_cleared]

end

lemma count_numbered (n : Node) : n.numbered.count = n.count := by
  rw [Node.count, ← number_cleared, numbered, cleared_number, number_cleared, Node.count]

lemma mark_lt_count {n c : Node} (hc : c ∈ n.numbered.nodes) {m : Nat} (hm : c.mark = some m) : m < n.count := by
  have hmem : some m ∈ n.numbered.nodes.map mark := hm ▸ mem_map_of_mem hc
  rw [map_mark_numbered] at hmem
  obtain ⟨m', hm', heq⟩ := mem_map.1 hmem
  cases heq
  exact mem_range.1 hm'

lemma size_foldl_spans (found : List (Nat × Span)) (acc : Array Span) :
    (found.foldl (fun acc e => acc.setIfInBounds e.1 e.2) acc).size = acc.size := by
  induction found generalizing acc with
  | nil => rfl
  | cons e found ih => rw [foldl_cons, ih, Array.size_setIfInBounds]

lemma size_spans (n : Node) : n.spans.size = n.count := by
  rw [spans, size_foldl_spans, Array.size_replicate]

end Mender.Syntax.Node

namespace Mender.Scope.Facts

open Syntax Node

variable {n c : Node}

lemma exists_span (hc : c ∈ n.numbered.nodes) : ∃ s, (of n.numbered).span c = .ok s := by
  obtain ⟨m, hm⟩ := exists_mark hc
  have hlt : m < (of n.numbered).spans.size := by
    change m < n.numbered.spans.size
    rw [size_spans, count_numbered]
    exact mark_lt_count hc hm
  refine ⟨(of n.numbered).spans[m], ?_⟩
  rw [span, hm, Option.bind_some, Array.getElem?_eq_getElem hlt]

lemma exists_line (hc : c ∈ n.numbered.nodes) : ∃ l, (of n.numbered).line c = .ok l := by
  obtain ⟨s, hs⟩ := exists_span hc
  exact ⟨s.start.line, by rw [line, hs]; rfl⟩

end Mender.Scope.Facts
