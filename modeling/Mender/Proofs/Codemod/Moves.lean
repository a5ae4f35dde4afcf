import Mender.Codemod.Walrus
import Mender.Proofs.Edit.Heads
import Mender.Proofs.Scope.Parents

/-!
# Assignments that move

An assignment moves if its line and the `if` that tests the variable follow one another in some node of the module. In a
numbered module a node has one neighbour on each side, so each `if` gets at most one assignment (`movedInto?`), and each
assignment moves into at most one `if` (`movedFrom?`). Both come to the same for neighbours.

* `children_eq` — neighbours follow one another as a pass visits them;
* `movedInto?_of_neighbours`, `movedFrom?_of_neighbours` — what moves between neighbours.
-/

namespace Mender.Syntax.Node

open List

lemma mem_zip_tail_iff {α : Type} {l : List α} {a b : α} : (a, b) ∈ l.zip l.tail ↔ ∃ l₁ l₂, l = l₁ ++ a :: b :: l₂ := by
  induction l with
  | nil => simp
  | cons c l ih =>
    cases l with
    | nil =>
      constructor
      · intro h
        cases h
      · rintro ⟨_ | ⟨_, _⟩, l₂, h⟩ <;> simp at h
    | cons d l =>
      rw [tail_cons] at ih ⊢
      rw [zip_cons_cons, mem_cons, ih]
      constructor
      · rintro (h | ⟨l₁, l₂, h⟩)
        · cases h
          exact ⟨[], l, rfl⟩
        · exact ⟨c :: l₁, l₂, by rw [h, cons_append]⟩
      · rintro ⟨_ | ⟨c', l₁⟩, l₂, h⟩
        · cases h
          exact .inl rfl
        · rw [cons_append, cons.injEq] at h
          exact .inr ⟨l₁, l₂, h.2⟩

/-- A list without repetitions is split at one of its members in one way only. -/
lemma eq_of_nodup_append {α : Type} {l₁ l₂ l₁' l₂' : List α} {a : α} (hnodup : (l₁ ++ a :: l₂).Nodup)
    (h : l₁ ++ a :: l₂ = l₁' ++ a :: l₂') : l₁ = l₁' ∧ l₂ = l₂' := by
  rw [nodup_middle, nodup_cons, mem_append, not_or] at hnodup
  obtain ⟨hl₁, -, hl₂⟩ := (append_cons_inj_of_notMem hnodup.1.1 hnodup.1.2).1 h
  exact ⟨hl₁, hl₂⟩

lemma visitedOf_eq_flatMap {fs : List Fill} {ps : List Node} (h : ps.length ≤ fs.length) :
    visitedOf fs ps = ps.flatMap opened := by
  induction ps generalizing fs with
  | nil => cases fs <;> rfl
  | cons p ps ih =>
    cases fs with
    | nil => cases h
    | cons f fs => rw [visitedOf, ih (Nat.le_of_succ_le_succ h), flatMap_cons]

lemma Settled.children_eq {n : Node} (h : Settled n) : n.children = n.visited.filter fun c => ! c.kind.isFiller := by
  rw [visited, visitedOf_eq_flatMap (by rw [h.length, length_map]), filter_flatMap, children]
  congr 1
  funext p
  rw [opened]
  split
  · rfl
  · split
    · rfl
    next hfill => simp [hfill]

lemma exists_part_of_mem_children {n c : Node} (h : c ∈ n.children) :
    c.kind.isFiller = false ∧ ∃ p ∈ n.parts, c = p ∨ p.kind = .seq ∧ c ∈ p.parts := by
  obtain ⟨p, hp, hc⟩ := mem_flatMap.1 h
  split at hc
  next hseq =>
    obtain ⟨hc, hnode⟩ := mem_filter.1 hc
    exact ⟨by simpa using hnode, p, hp, .inr ⟨beq_iff_eq.1 hseq, hc⟩⟩
  next =>
    split at hc
    next => cases hc
    next hfill =>
      obtain rfl := mem_singleton.1 hc
      exact ⟨Bool.eq_false_iff.2 hfill, c, hp, .inl rfl⟩

lemma filter_sublist_nodesOf (ps : List Node) : (ps.filter fun c => ! c.kind.isFiller).Sublist (nodesOf ps) := by
  induction ps with
  | nil => exact .slnil
  | cons p ps ih =>
    rw [nodesOf]
    cases hfill : p.kind.isFiller with
    | true =>
      rw [filter_cons_of_neg (by simp [hfill])]
      exact ih.trans (sublist_append_right ..)
    | false =>
      rw [filter_cons_of_pos (by simp [hfill]), nodes_eq, if_neg (by simp [hfill])]
      exact (ih.trans (sublist_append_right ..)).cons_cons p

lemma children_sublist (n : Node) : n.children.Sublist n.nodes := by
  refine Sublist.trans ?_ (nodesOf_parts_sublist n)
  rw [nodesOf_eq]
  refine Sublist.flatMap_right _ fun p hp => ?_
  split
  next => exact (filter_sublist_nodesOf p.parts).trans (nodesOf_parts_sublist p)
  next =>
    split
    next => exact nil_sublist _
    next hfill =>
      rw [singleton_sublist]
      exact self_mem_nodes (Bool.eq_false_iff.2 hfill)

end Mender.Syntax.Node

namespace Mender.Codemod

open Syntax Node Scope List Option

variable {line e assign target value a b n c module next : Node} {k : Kind}

/-- The nodes that follow one another directly below some node of the module. -/
def neighbours (module : Node) : List (Node × Node) := module.nodes.flatMap fun n => n.children.zip n.children.tail

/-- The expression that an assignment becomes in the test of an `if` statement, if one moves into it. -/
def movedInto? (module c : Node) : Option Node :=
  (neighbours module).findSome? fun pair =>
    if pair.2.identical c then (walrusMove? pair.1 pair.2).map Prod.snd else none

/-- The expression that an assignment becomes, if it moves. -/
def movedFrom? (module assign : Node) : Option Node :=
  (assign.mark.bind fun m => (walrusMoves module).find? (·.1 == m)).map Prod.snd

lemma walrusMoves_eq : walrusMoves module = (neighbours module).filterMap fun pair => walrusMove? pair.1 pair.2 := by
  rw [walrusMoves, neighbours, filterMap_flatMap]

lemma exists_of_walrusMove? {m : Nat} (h : walrusMove? line next = some (m, e)) :
    ∃ assign target value, singleAssign? line = some (assign, target, value) ∧ next.kind = .ifStatement ∧
      walrusFor? target value (next.get .test) = some e ∧ assign.mark = some m := by
  obtain ⟨⟨assign, target, value⟩, hsingle, h⟩ := bind_eq_some_iff.1 h
  dsimp only at h
  split at h
  · obtain ⟨_, hfail, -⟩ := bind_eq_some_iff.1 h
    cases hfail
  next hkind =>
    obtain ⟨e', he', h⟩ := bind_eq_some_iff.1 h
    obtain ⟨m', hm', h⟩ := bind_eq_some_iff.1 h
    cases h
    exact ⟨assign, target, value, hsingle, by simpa using hkind, he', hm'⟩

lemma exists_of_singleAssign? (h : singleAssign? line = some (assign, target, value)) :
    line.kind = .simpleStatementLine ∧ line.list .body = [assign] ∧ assign.kind = .assign ∧
      ∃ item, assign.list .targets = [item] ∧ target = item.get .target ∧ target.kind = .name ∧
        value = assign.get .value := by
  revert h
  fun_cases singleAssign? line with
  | case1 assign' hbody hline item htargets hassign hname =>
    rintro ⟨⟩
    exact ⟨hline, hbody, hassign, item, htargets, rfl, beq_iff_eq.1 hname, rfl⟩
  | _ => rintro ⟨⟩

lemma singleAssign?_of_kind_ne (h : line.kind ≠ .simpleStatementLine) : singleAssign? line = none := by
  rw [eq_none_iff_forall_ne_some]
  rintro ⟨assign, target, value⟩ hsingle
  exact h (exists_of_singleAssign? hsingle).1

lemma mem_children_of_singleAssign? (h : singleAssign? line = some (assign, target, value)) : assign ∈ line.children := by
  obtain ⟨-, hbody, hassign, -⟩ := exists_of_singleAssign? h
  have hmem : assign ∈ (line.get .body).items := by
    change assign ∈ line.list .body
    simp [hbody]
  refine mem_flatMap.2 ⟨line.get .body, ?_, ?_⟩
  · rcases get_cases line .body with hpart | habsent
    · exact hpart
    · rw [habsent] at hmem
      cases hmem
  · rw [items] at hmem
    split at hmem
    next hseq =>
      rw [if_pos (beq_iff_eq.2 hseq)]
      exact mem_filter.2 ⟨hmem, by rw [hassign]; rfl⟩
    next => cases hmem

lemma mem_nodes_of_neighbours (h : (a, b) ∈ neighbours module) : a ∈ module.nodes ∧ b ∈ module.nodes := by
  obtain ⟨n, hn, hpair⟩ := mem_flatMap.1 h
  obtain ⟨l₁, l₂, hchildren⟩ := mem_zip_tail_iff.1 hpair
  have hmem {c : Node} (hc : c ∈ n.children) : c ∈ module.nodes := nodes_subset hn ((children_sublist n).subset hc)
  exact ⟨hmem (by simp [hchildren]), hmem (by simp [hchildren])⟩

/-! ## Modules that were read -/

section

variable {source : String} (hread : ofModule? source = some module)
include hread

lemma eq_of_mem_children (ha : a ∈ module.nodes) (hb : b ∈ module.nodes) (hca : c ∈ a.children)
    (hcb : c ∈ b.children) : a = b := by
  have hc := nodes_subset ha ((children_sublist a).subset hca)
  have hparent {d : Node} (hd : d ∈ module.nodes) (hcd : c ∈ d.children) : (Facts.of module).parent? c = some d := by
    obtain ⟨hnode, p, hp, hcp⟩ := exists_part_of_mem_children hcd
    exact (Facts.parent?_eq_some_iff (Facts.counted_of_read hread) hc).2 ⟨hd, Facts.mem_children_of_mem_parts hp hcp hnode⟩
  exact some.inj ((hparent ha hca).symm.trans (hparent hb hcb))

lemma nodup_children (hn : n ∈ module.nodes) : n.children.Nodup :=
  ((numbered_of_read hread).of_mem_nodes hn).nodup_nodes.sublist (children_sublist n)

lemma exists_of_neighbours (hn : n ∈ module.nodes) (hpair : (a, b) ∈ neighbours module)
    (h : a ∈ n.children ∨ b ∈ n.children) : ∃ l₁ l₂, n.children = l₁ ++ a :: b :: l₂ := by
  obtain ⟨n', hn', hpair⟩ := mem_flatMap.1 hpair
  obtain ⟨l₁, l₂, hchildren⟩ := mem_zip_tail_iff.1 hpair
  obtain rfl : n' = n := by
    rcases h with h | h <;> exact eq_of_mem_children hread hn' hn (by simp [hchildren]) h
  exact ⟨l₁, l₂, hchildren⟩

lemma eq_of_neighbours {a' b' : Node} (h : (a, b) ∈ neighbours module) (h' : (a', b') ∈ neighbours module)
    (heq : a = a' ∨ b = b') : a = a' ∧ b = b' := by
  obtain ⟨n, hn, hpair⟩ := mem_flatMap.1 h
  obtain ⟨l₁, l₂, hchildren⟩ := mem_zip_tail_iff.1 hpair
  obtain ⟨l₁', l₂', hchildren'⟩ := exists_of_neighbours hread hn h' (by rcases heq with rfl | rfl <;> simp [hchildren])
  have hnodup := nodup_children hread hn
  rw [hchildren] at hnodup hchildren'
  rcases heq with rfl | rfl
  · exact ⟨rfl, (cons.inj (eq_of_nodup_append hnodup hchildren').2).1⟩
  · rw [append_cons] at hnodup hchildren'
    rw [append_cons l₁'] at hchildren'
    exact ⟨(append_singleton_inj.1 (eq_of_nodup_append hnodup hchildren').1).2, rfl⟩

lemma identical_self (hc : c ∈ module.nodes) : c.identical c = true := by
  obtain ⟨m, hm⟩ := isSome_iff_exists.1 ((numbered_of_read hread).marked c hc)
  simp [identical, hm]

lemma exists_of_movedInto? (hc : c ∈ module.nodes) (h : movedInto? module c = some e) :
    ∃ line m, (line, c) ∈ neighbours module ∧ walrusMove? line c = some (m, e) := by
  obtain ⟨⟨line, next⟩, hpair, hmove⟩ := exists_of_findSome?_eq_some h
  split at hmove
  next hsame =>
    obtain rfl := (numbered_of_read hread).eq_of_identical (mem_nodes_of_neighbours hpair).2 hc hsame
    obtain ⟨⟨m, e'⟩, hmove', rfl⟩ := map_eq_some_iff.1 hmove
    exact ⟨line, m, hpair, hmove'⟩
  next => cases hmove

lemma movedInto?_of_neighbours (hpair : (line, c) ∈ neighbours module) :
    movedInto? module c = (walrusMove? line c).map Prod.snd := by
  have hc := (mem_nodes_of_neighbours hpair).2
  cases hinto : movedInto? module c with
  | none =>
    have hnone := findSome?_eq_none_iff.1 hinto (line, c) hpair
    rw [if_pos (identical_self hread hc)] at hnone
    exact hnone.symm
  | some e =>
    obtain ⟨line', m, hpair', hmove⟩ := exists_of_movedInto? hread hc hinto
    obtain ⟨rfl, -⟩ := eq_of_neighbours hread hpair hpair' (.inr rfl)
    rw [hmove]
    rfl

lemma exists_of_movedFrom? (hassign : assign ∈ module.nodes) (h : movedFrom? module assign = some e) :
    ∃ line next target value m, (line, next) ∈ neighbours module ∧
      singleAssign? line = some (assign, target, value) ∧ walrusMove? line next = some (m, e) := by
  obtain ⟨⟨m, e'⟩, hfind, rfl⟩ := map_eq_some_iff.1 h
  obtain ⟨m', hm', hfind⟩ := bind_eq_some_iff.1 hfind
  have hmark := find?_some hfind
  have hmem := mem_of_find?_eq_some hfind
  rw [walrusMoves_eq, mem_filterMap] at hmem
  obtain ⟨⟨line, next⟩, hpair, hmove⟩ := hmem
  obtain ⟨assign', target, value, hsingle, -, -, hm⟩ := exists_of_walrusMove? hmove
  have hassign' := nodes_subset (mem_nodes_of_neighbours hpair).1
    ((children_sublist line).subset (mem_children_of_singleAssign? hsingle))
  obtain rfl := (numbered_of_read hread).eq_of_mark hassign' hassign (by rw [hm, hm', ← beq_iff_eq.1 hmark])
  exact ⟨line, next, target, value, m, hpair, hsingle, hmove⟩

section

variable (hline : line ∈ module.nodes) (hsingle : singleAssign? line = some (assign, target, value))
include hline hsingle

lemma exists_next_of_movedFrom? (h : movedFrom? module assign = some e) :
    ∃ next m, (line, next) ∈ neighbours module ∧ walrusMove? line next = some (m, e) := by
  have hchild := mem_children_of_singleAssign? hsingle
  obtain ⟨line', next, _, _, m, hpair, hsingle', hmove⟩ :=
    exists_of_movedFrom? hread (nodes_subset hline ((children_sublist line).subset hchild)) h
  obtain rfl := eq_of_mem_children hread hline (mem_nodes_of_neighbours hpair).1 hchild (mem_children_of_singleAssign? hsingle')
  exact ⟨next, m, hpair, hmove⟩

lemma movedFrom?_of_neighbours (hpair : (line, next) ∈ neighbours module) :
    movedFrom? module assign = (walrusMove? line next).map Prod.snd := by
  cases hmoved : movedFrom? module assign with
  | none =>
    rw [eq_comm, map_eq_none_iff, eq_none_iff_forall_ne_some]
    rintro ⟨m, e⟩ hmove
    obtain ⟨assign', target', value', hsingle', -, -, hm⟩ := exists_of_walrusMove? hmove
    cases hsingle.symm.trans hsingle'
    rw [movedFrom?, hm, bind_some, map_eq_none_iff, find?_eq_none] at hmoved
    refine absurd (beq_self_eq_true m) (hmoved (m, e) ?_)
    rw [walrusMoves_eq, mem_filterMap]
    exact ⟨(line, next), hpair, hmove⟩
  | some e =>
    obtain ⟨next', m, hpair', hmove⟩ := exists_next_of_movedFrom? hread hline hsingle hmoved
    obtain ⟨-, rfl⟩ := eq_of_neighbours hread hpair hpair' (.inl rfl)
    rw [hmove]
    rfl

end

end

/-! ## From one statement to the next -/

/-- The expression that is left over behind a node, for the next statement. -/
def owed? (module c : Node) : Option Node :=
  if c.kind = .assign then movedFrom? module c else (singleAssign? c).bind fun single => movedFrom? module single.1

def nextStatement? (ns : List Node) : Option Node := ns.find? fun c => ! isInner c.kind

lemma isInner_of_isFiller (h : k.isFiller = true) : isInner k = true := by
  revert h
  cases k <;> decide

lemma exists_of_nextStatement? {ns : List Node} (h : nextStatement? ns = some c) :
    ∃ front back, ns = front ++ c :: back ∧ (∀ d ∈ front, isInner d.kind = true) ∧ isInner c.kind = false := by
  obtain ⟨hc, front, back, rfl, hfront⟩ := find?_eq_some_iff_append.1 h
  exact ⟨front, back, rfl, fun d hd => by simpa using hfront d hd, by simpa using hc⟩

lemma nextStatement?_cons_of_inner (h : isInner c.kind = true) (ns : List Node) :
    nextStatement? (c :: ns) = nextStatement? ns := by
  rw [nextStatement?, find?_cons_of_neg (by simp [h])]
  rfl

lemma nextStatement?_cons (h : isInner c.kind = false) (ns : List Node) :
    nextStatement? (c :: ns) = some c := find?_cons_of_pos (by simp [h])

lemma isFiller_of_isInner_eq_false (h : isInner k = false) : k.isFiller = false := by
  rw [Bool.eq_false_iff]
  intro hfill
  rw [isInner_of_isFiller hfill] at h
  cases h

lemma kind_of_walrusMove? {move : Nat × Node} (h : walrusMove? line next = some move) :
    line.kind = .simpleStatementLine ∧ next.kind = .ifStatement := by
  obtain ⟨assign, target, value, hsingle, hkind, -⟩ := exists_of_walrusMove? h
  exact ⟨(exists_of_singleAssign? hsingle).1, hkind⟩

lemma walrusMove?_of_inner (h : isInner line.kind = true ∨ isInner next.kind = true) : walrusMove? line next = none := by
  rw [eq_none_iff_forall_ne_some]
  intro move hmove
  obtain ⟨hline, hnext⟩ := kind_of_walrusMove? hmove
  rw [hline, hnext] at h
  rcases h with h | h <;> cases h

lemma exists_visited_of_singleAssign? (hsettled : Settled line) (h : singleAssign? line = some (assign, target, value)) :
    Settled assign ∧ ∃ l₁ l₂, line.visited = l₁ ++ assign :: l₂ ∧ (∀ d ∈ l₁, MadeOf isInner d) ∧
      ∀ d ∈ l₂, MadeOf isInner d := by
  obtain ⟨hkind, hbody, -⟩ := exists_of_singleAssign? h
  have hopened : (line.get .body).opened = [assign] := by
    have hseq : (line.get .body).kind = .seq := kind_of_mem_items (hbody ▸ mem_cons_self : assign ∈ line.list .body)
    rw [opened_run hseq, ← items_run hseq]
    exact hbody
  have hinner {s : Slot} (hs : s ∈ Kind.simpleStatementLine.slots) (hseat : isSeat .simpleStatementLine s = false) :
      ∀ d ∈ (line.get s).opened, MadeOf isInner d := by
    rw [← hkind] at hs hseat
    exact fun d hd => (hsettled.inner hs hseat).of_mem_opened hd
  refine ⟨hsettled.seated (s := .body) (by rw [hkind]; rfl) (by simp [hopened]), (line.get .leadingLines).opened,
    (line.get .trailing).opened, ?_, hinner (by decide) rfl, hinner (by decide) rfl⟩
  -- a line has three places
  have hlength := hsettled.length
  obtain ⟨k, text, parts, mark⟩ := line
  cases hkind
  obtain ⟨a, b, c, rfl⟩ := length_eq_three.1 hlength
  have hvisited : visited (.mk .simpleStatementLine text [a, b, c] mark) = a.opened ++ (b.opened ++ (c.opened ++ [])) := rfl
  have hb : b.opened = [assign] := hopened
  rw [hvisited, hb, append_nil]
  rfl

lemma nextStatement?_filter (ns : List Node) :
    nextStatement? (ns.filter fun c => ! c.kind.isFiller) = nextStatement? ns := by
  rw [nextStatement?, find?_filter]
  congr 1
  funext c
  cases hkind : isInner c.kind with
  | true => simp
  | false => simp [isFiller_of_isInner_eq_false hkind]

lemma mem_nodes_of_statement (hn : n ∈ module.nodes) (hsettled : Settled n) (hc : c ∈ n.visited)
    (hkind : isInner c.kind = false) : c ∈ n.children ∧ c ∈ module.nodes := by
  have hmem : c ∈ n.children := by
    rw [hsettled.children_eq]
    exact mem_filter.2 ⟨hc, by simp [isFiller_of_isInner_eq_false hkind]⟩
  exact ⟨hmem, nodes_subset hn ((children_sublist n).subset hmem)⟩

lemma movedInto?_of_kind_ne {source : String} (hread : ofModule? source = some module) (hc : c ∈ module.met)
    (hkind : c.kind ≠ .ifStatement) : movedInto? module c = none := by
  rw [eq_none_iff_forall_ne_some]
  intro e he
  cases hmark : c.mark with
  | none =>
    obtain ⟨pair, -, hpair⟩ := exists_of_findSome?_eq_some he
    split at hpair
    next hsame =>
      have hsome := (mark_of_identical hsame).2
      rw [hmark] at hsome
      cases hsome
    next => cases hpair
  | some m =>
    have hmem := mem_nodes_of_mem_met hc (((numbered_of_read hread).orderly.of_mem_met hc).self_mem_nodes hmark)
    obtain ⟨line, m', -, hmove⟩ := exists_of_movedInto? hread hmem he
    exact hkind (kind_of_walrusMove? hmove).2

section

variable {source : String} (hread : ofModule? source = some module) (hn : n ∈ module.nodes) {front back : List Node}
include hread hn

/-- What moves into the next statement moves from the node right in front of it. -/
lemma movedInto?_next (hchildren : n.children = front ++ back) : (nextStatement? back).bind (movedInto? module) =
    front.getLast?.bind fun a => back.head?.bind fun b => (walrusMove? a b).map Prod.snd := by
  have hneighbours {l₁ l₂ : List Node} {a b : Node} (h : n.children = l₁ ++ a :: b :: l₂) : (a, b) ∈ neighbours module :=
    mem_flatMap.2 ⟨n, hn, mem_zip_tail_iff.2 ⟨l₁, l₂, h⟩⟩
  have hnone {b : Node} (hb : isInner b.kind = true) :
      (front.getLast?.bind fun a => (walrusMove? a b).map Prod.snd) = none := by
    simp [walrusMove?_of_inner (.inr hb)]
  cases hnext : nextStatement? back with
  | none =>
    cases back with
    | nil => simp
    | cons b back => exact (hnone (by simpa using find?_eq_none.1 hnext b (.head _))).symm
  | some c =>
    obtain ⟨between, rest, rfl, hbetween, hkind⟩ := exists_of_nextStatement? hnext
    rcases eq_nil_or_concat between with rfl | ⟨between, a, rfl⟩
    · rcases eq_nil_or_concat front with rfl | ⟨front, a, rfl⟩
      · -- nothing stands in front of the first child
        refine eq_none_iff_forall_ne_some.2 fun e he => ?_
        have hmem : c ∈ n.children := by simp [hchildren]
        obtain ⟨line, m, hpair, -⟩ :=
          exists_of_movedInto? hread (nodes_subset hn ((children_sublist n).subset hmem)) he
        obtain ⟨l₁, l₂, hsplit⟩ := exists_of_neighbours hread hn hpair (.inr hmem)
        rw [append_cons] at hsplit
        have hnodup := nodup_children hread hn
        rw [hsplit] at hnodup hchildren
        exact absurd (eq_of_nodup_append hnodup hchildren).1 (by simp)
      · rw [bind_some, movedInto?_of_neighbours hread (hneighbours (by simpa using hchildren))]
        simp
    · have ha : isInner a.kind = true := hbetween a (by simp)
      have hsplit : n.children = (front ++ between) ++ a :: c :: rest := by simpa using hchildren
      rw [bind_some, movedInto?_of_neighbours hread (hneighbours hsplit), walrusMove?_of_inner (.inl ha)]
      cases between with
      | nil => exact (hnone ha).symm
      | cons b between => exact (hnone (hbetween b (.head _))).symm

lemma owed?_eq (hsingle : singleAssign? n = none) (hchildren : n.children = front ++ c :: back) :
    owed? module c = back.head?.bind fun b => (walrusMove? c b).map Prod.snd := by
  have hchild : c ∈ n.children := by simp [hchildren]
  have hc := nodes_subset hn ((children_sublist n).subset hchild)
  rw [owed?]
  cases hline : singleAssign? c with
  | none =>
    have hnone (b : Node) : walrusMove? c b = none := by simp [walrusMove?, hline]
    simp only [hnone, map_none, bind_none, bind_fun_none]
    split
    · -- an assignment that moves stands in a line, and not here
      refine eq_none_iff_forall_ne_some.2 fun e he => ?_
      obtain ⟨line, next, target, value, m, hpair, hline, -⟩ := exists_of_movedFrom? hread hc he
      obtain rfl := eq_of_mem_children hread hn (mem_nodes_of_neighbours hpair).1 hchild (mem_children_of_singleAssign? hline)
      rw [hsingle] at hline
      cases hline
    · rfl
  | some single =>
    obtain ⟨assign, target, value⟩ := single
    rw [if_neg (by rw [(exists_of_singleAssign? hline).1]; decide), bind_some]
    cases back with
    | nil =>
      refine eq_none_iff_forall_ne_some.2 fun e he => ?_
      obtain ⟨next, m, hpair, -⟩ := exists_next_of_movedFrom? hread hc hline he
      obtain ⟨l₁, l₂, hsplit⟩ := exists_of_neighbours hread hn hpair (.inl hchild)
      have hnodup := nodup_children hread hn
      rw [hsplit] at hnodup hchildren
      exact absurd (eq_of_nodup_append hnodup hchildren).2 (cons_ne_nil _ _)
    | cons b back =>
      exact movedFrom?_of_neighbours hread hc hline (mem_flatMap.2 ⟨n, hn, mem_zip_tail_iff.2 ⟨front, back, hchildren⟩⟩)

end

end Mender.Codemod
