import Mender.Proofs.Codemod.OpenedFiles
import Mender.Proofs.Edit.Swaps

/-!
# Which files get closed

Each file that leaks is mended in a block of the module as it was read, and the new block is put in the place of the old
one. That loses the marks of all nodes outside the new block, so the next block is found again only if it stands in the one
before.

* `Tracks.exists_applyAll` — fixes can be carried out one after the other;
* `fixes_land_iff` — when all of them have an effect.
-/

namespace Mender.Codemod

open Syntax Node Edit Scope List

variable {n module b c n' out line : Node} {reach : Node → Bool} {t : Task} {j : Nat} {inside items : List Node}

/-! ## The new block -/

section

variable (items inside : List Node)

lemma visited_newBlock : (newBlock inside).visited = fresh .trailingWhitespace :: inside :=
  congrArg (_ :: ·) (append_nil inside)

lemma visited_newStatement : (newStatement items inside).visited = blank " " :: (items ++ [blank "", newBlock inside]) := rfl

lemma framed_newStatement : framed (newStatement items inside) = [newBlock inside] := framed_of_isHead rfl

lemma framed_newBlock : framed (newBlock inside) = inside := framed_of_isBlock rfl

end

lemma standingSum_newStatement {A : Type} [AddCommMonoid A] (v : Node → A) (items inside : List Node) :
    standingSum v (newStatement items inside) =
      v (newStatement items inside) + v (newBlock inside) + (inside.map (standingSum v)).sum := by
  rw [standingSum_eq, framed_newStatement, map_singleton, sum_singleton, standingSum_eq, framed_newBlock, add_assoc]

lemma hits_newStatement (items : List Node) :
    hits j (newStatement items inside) = (items.map (hits j)).sum + (inside.map (hits j)).sum := by
  have hblock : hits j (newBlock inside) = (inside.map (hits j)).sum := by
    rw [hits, metSum_eq, visited_newBlock, map_cons, sum_cons]
    exact (Nat.zero_add _).trans (Nat.zero_add _)
  rw [hits, metSum_eq, visited_newStatement, map_cons, sum_cons, map_append, sum_append, map_cons,
    map_singleton, sum_cons, sum_singleton]
  change 0 + (0 + ((items.map (hits j)).sum + (0 + hits j (newBlock inside)))) = _
  rw [hblock]
  omega

namespace Fix.IsOf

variable {f : Fix} {before after : List Node} {line : Node} (h : f.IsOf module before line inside after) {A : Type}
include h

lemma framed_line : framed line = [f.file.assign] := by
  rw [framed_of_isBlock (by rw [h.isIn.lineKind]; rfl), h.isIn.lineBody]

lemma framed_assign : framed f.file.assign = [] := by
  rw [framed]
  rcases h.isIn.assign with hkind | hkind <;> rw [hkind] <;> rfl

lemma standingSum_line [AddCommMonoid A] (v : Node → A) : standingSum v line = v line + v f.file.assign := by
  rw [standingSum_eq, h.framed_line, map_singleton, sum_singleton, standingSum_eq, h.framed_assign, map_nil,
    sum_nil, add_zero]

lemma standingSum_block [AddCommMonoid A] (v : Node → A) :
    standingSum v f.block + v f.file.block + standingSum v line = standingSum v f.file.block + v f.block +
        (v (newStatement (openItems f.file.assign f.file.call) inside) + v (newBlock inside)) := by
  rw [standingSum_eq, framed_of_isBlock (by rw [h.kind_eq, h.isBlock]), h.list_body, standingSum_eq _ f.file.block,
    framed_of_isBlock h.isBlock, h.isIn.body]
  simp only [map_append, map_cons, sum_append, sum_cons, standingSum_newStatement]
  abel

lemma items_block : standingSum withItems f.block = standingSum withItems f.file.block + {f.items} := by
  have hblock := h.standingSum_block withItems
  have hnone {n : Node} (hkind : n.kind ≠ .withStatement) : withItems n = 0 := if_neg hkind
  have hkind : f.file.block.kind ≠ .withStatement := by
    rcases h.isIn.kind with hkind | hkind <;> rw [hkind] <;> exact nofun
  have hassign : f.file.assign.kind ≠ .withStatement := by
    rcases h.isIn.assign with hkind | hkind <;> rw [hkind] <;> exact nofun
  have hstatement : withItems (newStatement (openItems f.file.assign f.file.call) inside) = {f.items} := rfl
  rw [hnone hkind, hnone (n := f.block) (by rwa [h.kind_eq]), hnone (n := newBlock inside) nofun, hstatement,
    h.standingSum_line, hnone hassign, hnone (n := line) (by rw [h.isIn.lineKind]; exact nofun)] at hblock
  simpa only [add_zero] using hblock

lemma standingHits_block (j : Nat) :
    standingHits j f.block + atMark j f.file.block + standingHits j line = standingHits j f.file.block := by
  have hblock := h.standingSum_block (atMark j)
  have hnone {n : Node} (hmark : n.mark = none) : atMark j n = 0 := if_neg (by rw [hmark]; exact nofun)
  rw [hnone h.mark_eq, hnone (n := newStatement _ _) rfl, hnone (n := newBlock _) rfl] at hblock
  exact hblock

lemma hits_block (j : Nat) : hits j f.block + atMark j f.file.block + hits j line =
    hits j f.file.block + ((openItems f.file.assign f.file.call).map (hits j)).sum := by
  have hset := sum_visited_set (hits j) (n := f.file.block) (s := .body) (by rw [h.isRun]; decide)
    (seq (before ++ newStatement (openItems f.file.assign f.file.call) inside :: after))
  have hopened : (f.file.block.get .body).opened = before ++ line :: (inside ++ after) := by
    rw [opened_run h.isRun, ← h.isIn.body, list, items_run h.isRun]
  have hown : atMark j f.block = 0 := if_neg (by rw [h.mark_eq]; exact (Option.some_ne_none j).symm)
  have hmet : hits j f.block = 0 + (f.block.visited.map (hits j)).sum := by
    rw [hits, metSum_eq, hown]
    rfl
  have hold : hits j f.file.block = atMark j f.file.block + (f.file.block.visited.map (hits j)).sum := by
    rw [hits, metSum_eq]
    rfl
  rw [hopened, opened_run rfl] at hset
  change _ = _ + ((before ++ newStatement (openItems f.file.assign f.file.call) inside :: after).map (hits j)).sum at hset
  rw [h.block, setList] at hmet
  simp only [map_append, map_cons, sum_append, sum_cons, hits_newStatement] at hset
  rw [h.block, setList]
  omega

end Fix.IsOf

/-! ## Finding blocks again -/

structure IsBlockOf (module b : Node) : Prop where
  standing : b ∈ standing module
  kind : b.kind = .module ∨ b.kind = .indentedBlock

/-- Does a node stand inside a block? -/
def isInside (b c : Node) : Bool := ((framed b).flatMap standing).any (·.identical c)

lemma IsBlockOf.isFiller (h : IsBlockOf module b) : b.kind.isFiller = false := by
  rcases h.kind with hkind | hkind <;> rw [hkind] <;> rfl

lemma IsBlockOf.mem_nodes (h : IsBlockOf module b) : b ∈ module.nodes := mem_nodes_of_mem_standing h.standing h.isFiller

lemma hits_eq_standingHits (hnumbered : Numbered module) (hb : IsBlockOf module b) (hc : IsBlockOf module c)
    (hj : c.mark = some j) : hits j b = standingHits j b := by
  by_cases hstands : c ∈ standing b
  · obtain ⟨hmet, hstanding⟩ := hits_of_mem_standing (hnumbered.of_mem_nodes hb.mem_nodes) hstands hj
    rw [hmet, hstanding]
  · have hnot : c ∉ b.nodes := fun hmem =>
      hstands (mem_standing_of_mem_nodes hnumbered hb.standing hc.standing (self_mem_nodes hc.isFiller) hmem)
    have hzero := hits_eq_zero_of_notMem hnumbered hc.mem_nodes hj (hnumbered.of_mem_nodes hb.mem_nodes).orderly
      (nodes_subset hb.mem_nodes) hnot
    have := standingHits_le j b
    omega

lemma standingHits_inside (hnumbered : Numbered module) (hb : IsBlockOf module b) (hj : c.mark = some j) :
    ((framed b).map (standingHits j)).sum = if isInside b c then 1 else 0 := by
  have hsum : ((framed b).map (standingHits j)).sum = (((framed b).flatMap standing).map mark).count (some j) := by
    rw [← sum_atMark, sum_map_flatMap]
    rfl
  have hle : atMark j b + ((framed b).map (standingHits j)).sum ≤ 1 := by
    have heq := standingSum_eq (atMark j) b
    have hone := hits_le_one (hnumbered.of_mem_nodes hb.mem_nodes) j
    have := standingHits_le j b
    change standingHits j b = _ + ((framed b).map (standingHits j)).sum at heq
    omega
  have hiff : isInside b c = true ↔ some j ∈ ((framed b).flatMap standing).map mark := by
    rw [isInside, any_eq_true, mem_map]
    refine exists_congr fun d => and_congr_right fun _ => ?_
    rw [identical, hj]
    cases d.mark with
    | none => exact iff_of_false Bool.false_ne_true (Option.some_ne_none j).symm
    | some i => rw [beq_iff_eq, Option.some.injEq]
  rw [hsum] at hle ⊢
  split
  next hinside =>
    have := count_pos_iff.2 (hiff.1 hinside)
    omega
  next hinside => exact count_eq_zero.2 (mt hiff.2 hinside)

def newName (target : Node) : Node := Node.make .asName [(.name, target)]

lemma visited_newName (target : Node) : (newName target).visited = blank " " :: blank " " :: target.opened :=
  congrArg (_ :: _ :: ·) (append_nil target.opened)

lemma visited_withItem (item target : Node) : (withItem item target).visited = item.opened ++ [newName target] := rfl

lemma hits_withItem (item target : Node) :
    hits j (withItem item target) = (item.opened.map (hits j)).sum + (target.opened.map (hits j)).sum := by
  have hname : hits j (newName target) = (target.opened.map (hits j)).sum := by
    rw [hits, metSum_eq, visited_newName, map_cons, map_cons, sum_cons, sum_cons]
    exact (Nat.zero_add _).trans ((Nat.zero_add _).trans (Nat.zero_add _))
  rw [hits, metSum_eq, visited_withItem, map_append, sum_append, map_singleton, sum_singleton]
  exact (Nat.zero_add _).trans (congrArg (_ + ·) hname)

lemma exists_of_mem_openItems {assign call item : Node} (h : item ∈ openItems assign call) :
    ∃ i t, item = withItem i t ∧ (i = call ∨ i ∈ targets assign) ∧ t ∈ targets assign := by
  rw [openItems] at h
  split at h
  next first rest htargets =>
    rw [htargets]
    rcases mem_cons.1 h with rfl | h
    · exact ⟨call, first, rfl, .inl rfl, mem_cons_self ..⟩
    · obtain ⟨t, ht, rfl⟩ := mem_map.1 h
      exact ⟨first, t, rfl, .inr (.head _), mem_cons_of_mem _ ht⟩
  next => cases h

/-- An assignment that is in order has a target. -/
lemma openItems_ne_nil {assign : Node} (hflaw : assign.flaw? = none)
    (hkind : assign.kind = .assign ∨ assign.kind = .annAssign) (call : Node) : openItems assign call ≠ [] := by
  have htargets : targets assign ≠ [] := by
    rw [targets]
    rcases hkind with hkind | hkind
    · rw [flaw?, flaws, hkind] at hflaw
      rw [hkind]
      simpa using hflaw
    · rw [hkind]
      exact cons_ne_nil _ _
  rw [openItems]
  split
  next => exact cons_ne_nil _ _
  next hnil => exact absurd hnil htargets

lemma flaw?_newStatement (hne : items ≠ []) (hitems : ∀ item ∈ items, ∃ i t, item = withItem i t) :
    (newStatement items inside).flaw? = none := by
  have hend : endsInComma items = false := by
    rw [endsInComma, getLast?_eq_some_getLast hne, Option.any_some]
    obtain ⟨i, t, hlast⟩ := hitems _ (getLast_mem hne)
    rw [hlast]
    rfl
  have hlist : (newStatement items inside).list .items = items := rfl
  have hkind : (newStatement items inside).kind = .withStatement := rfl
  have hgap : ((newStatement items inside).get .afterKeyword).isEmptyBlank = false := rfl
  rw [flaw?, flaws, hkind]
  dsimp only
  rw [hlist]
  cases items with
  | nil => exact absurd rfl hne
  | cons first rest => simp [hend, spaceAfter, sticksRight, hgap]

def Own (module n : Node) : Prop := ∀ c ∈ n.met, c.mark.isSome = true → c ∈ module.nodes

lemma own_of_orderly (h : Orderly n) (hsub : n.nodes ⊆ module.nodes) : Own module n := by
  intro c hc hmark
  obtain ⟨m, hm⟩ := Option.isSome_iff_exists.1 hmark
  exact hsub (mem_nodes_of_mem_met hc ((h.of_mem_met hc).self_mem_nodes hm))

section

-- what holds of all nodes that are new and in order
variable {Q : Node → Prop} (hnew : ∀ c : Node, c.mark = none → c.flaw? = none → Q c)
include hnew

lemma forall_met_of_new (hmark : n.mark = none) (hflaw : n.flaw? = none) (h : ∀ c ∈ n.visited, ∀ d ∈ c.met, Q d) :
    ∀ d ∈ n.met, Q d := forall_met.2 ⟨hnew n hmark hflaw, h⟩

lemma forall_met_withItem {item target : Node} (hitem : ∀ c ∈ item.opened, ∀ d ∈ c.met, Q d)
    (htarget : ∀ c ∈ target.opened, ∀ d ∈ c.met, Q d) : ∀ d ∈ (withItem item target).met, Q d := by
  have hblank : ∀ d ∈ (blank " ").met, Q d := forall_met_of_new hnew rfl rfl nofun
  have hname : ∀ d ∈ (newName target).met, Q d := by
    refine forall_met_of_new hnew rfl rfl ?_
    rw [visited_newName]
    exact forall_mem_cons.2 ⟨hblank, forall_mem_cons.2 ⟨hblank, htarget⟩⟩
  refine forall_met_of_new hnew rfl rfl ?_
  rw [visited_withItem]
  exact forall_mem_append.2 ⟨hitem, forall_mem_singleton.2 hname⟩

lemma forall_met_newStatement (hself : Q (newStatement items inside)) (hitems : ∀ c ∈ items, ∀ d ∈ c.met, Q d)
    (hinside : ∀ c ∈ inside, ∀ d ∈ c.met, Q d) : ∀ d ∈ (newStatement items inside).met, Q d := by
  have hblank (s : String) : ∀ d ∈ (blank s).met, Q d := forall_met_of_new hnew rfl rfl nofun
  have hfresh : ∀ d ∈ (fresh .trailingWhitespace).met, Q d := by
    have hnone : ∀ c ∈ (fresh .trailingWhitespace).met, c.mark = none ∧ c.flaw? = none := by decide
    exact fun d hd => hnew d (hnone d hd).1 (hnone d hd).2
  have hblock : ∀ d ∈ (newBlock inside).met, Q d := by
    refine forall_met_of_new hnew rfl rfl ?_
    rw [visited_newBlock]
    exact forall_mem_cons.2 ⟨hfresh, hinside⟩
  refine forall_met.2 ⟨hself, ?_⟩
  rw [visited_newStatement]
  refine forall_mem_cons.2 ⟨hblank " ", forall_mem_append.2 ⟨hitems, ?_⟩⟩
  exact forall_mem_cons.2 ⟨hblank "", forall_mem_singleton.2 hblock⟩

end

namespace Fix.IsOf

variable {f : Fix} {before after : List Node} {line : Node} (h : f.IsOf module before line inside after)
  (hnumbered : Numbered module)
include h

lemma isBlockOf : IsBlockOf module f.file.block := ⟨h.isIn.block, h.isIn.kind⟩

lemma mem_standing_line : line ∈ standing module := by
  refine standing_trans h.isIn.block (mem_standing.2 (.inr ⟨line, ?_, self_mem_standing line⟩))
  simp [framed_of_isBlock h.isBlock, h.isIn.body]

lemma mem_nodes_line : line ∈ module.nodes := mem_nodes_of_mem_standing h.mem_standing_line (by rw [h.isIn.lineKind]; rfl)
include hnumbered

lemma notMem_line (hc : IsBlockOf module c) : c ∉ line.nodes := by
  intro hmem
  have hstands := mem_standing_of_mem_nodes hnumbered h.mem_standing_line hc.standing (self_mem_nodes hc.isFiller) hmem
  rw [standing_eq, h.framed_line, flatMap_singleton, standing_eq, h.framed_assign, flatMap_nil, mem_cons,
    mem_singleton] at hstands
  rcases hstands with rfl | rfl
  · have := h.isIn.lineKind
    rcases hc.kind with hkind | hkind <;> rw [hkind] at this <;> cases this
  · rcases h.isIn.assign with hassign | hassign <;> rcases hc.kind with hkind | hkind <;> rw [hkind] at hassign <;>
      cases hassign

lemma inside_line (hn : n = f.file.call ∨ n ∈ targets f.file.assign) : Orderly n ∧ n.nodes ⊆ line.nodes := by
  have hassign : f.file.assign ∈ (line.get .body).parts := mem_items (by rw [← list, h.isIn.lineBody]; exact mem_cons_self ..)
  have hline := (hnumbered.of_mem_nodes h.mem_nodes_line).orderly
  have horderly : Orderly f.file.assign := (hline.get .body).of_mem_parts hassign
  have hsub : f.file.assign.nodes ⊆ line.nodes :=
    ((nodes_sublist_of_mem_parts hassign).trans (nodes_get_sublist line .body)).subset
  have hget (s : Slot) : Orderly (f.file.assign.get s) ∧ (f.file.assign.get s).nodes ⊆ line.nodes :=
    ⟨horderly.get s, List.Subset.trans (nodes_get_sublist _ s).subset hsub⟩
  rcases hn with rfl | hn
  · rw [h.isIn.call]
    exact hget .value
  · rcases h.isIn.assign with hkind | hkind
    · rw [targets, hkind] at hn
      obtain ⟨target, htarget, rfl⟩ := mem_map.1 hn
      have hparts := mem_items htarget
      refine ⟨((hget .targets).1.of_mem_parts hparts).get .target, ?_⟩
      exact List.Subset.trans ((nodes_get_sublist _ _).trans (nodes_sublist_of_mem_parts hparts)).subset (hget .targets).2
    · rw [targets, hkind] at hn
      rw [mem_singleton.1 hn]
      exact hget .target

lemma opened_line (hn : n = f.file.call ∨ n ∈ targets f.file.assign) (hc : c ∈ n.opened) :
    Orderly c ∧ c.nodes ⊆ line.nodes := by
  obtain ⟨horderly, hsub⟩ := h.inside_line hnumbered hn
  exact ⟨horderly.of_mem_opened hc, List.Subset.trans (nodes_sublist_of_mem_opened hc).subset hsub⟩

/-- What holds of the nodes of the module and of new ones holds of all nodes of the new block. -/
lemma forall_met_block {Q : Node → Prop} (hnew : ∀ c : Node, c.mark = none → c.flaw? = none → Q c)
    (hold : ∀ n : Node, Orderly n → n.nodes ⊆ module.nodes → ∀ c ∈ n.met, Q c)
    (hself : Q (newStatement (openItems f.file.assign f.file.call) inside)) : ∀ c ∈ f.block.met, Q c := by
  have hline {n : Node} (hn : n = f.file.call ∨ n ∈ targets f.file.assign) : ∀ d ∈ n.opened, ∀ c ∈ d.met, Q c := by
    intro d hd
    obtain ⟨horderly, hsub⟩ := h.opened_line hnumbered hn hd
    exact hold d horderly (List.Subset.trans hsub (nodes_subset h.mem_nodes_line))
  have hitems : ∀ item ∈ openItems f.file.assign f.file.call, ∀ c ∈ item.met, Q c := by
    intro item hitem
    obtain ⟨i, t, rfl, hi, ht⟩ := exists_of_mem_openItems hitem
    exact forall_met_withItem hnew (hline hi) (hline (.inr ht))
  have horderly := (hnumbered.of_mem_nodes h.isBlockOf.mem_nodes).orderly
  have hvisited : ∀ d ∈ f.file.block.visited, ∀ c ∈ d.met, Q c :=
    (forall_met.1 (hold f.file.block horderly (nodes_subset h.isBlockOf.mem_nodes))).2
  have hbody : ∀ d ∈ before ++ line :: (inside ++ after), ∀ c ∈ d.met, Q c := by
    rw [← h.isIn.body]
    intro d hd
    refine hvisited d ((opened_get_sublist _ .body).subset ?_)
    rw [opened_run h.isRun, ← items_run h.isRun]
    exact hd
  simp only [forall_mem_append, forall_mem_cons] at hbody
  obtain ⟨hbefore, -, hinside, hafter⟩ := hbody
  have hflaw : f.block.flaw? = none := by
    rw [flaw?, flaws, h.kind_eq]
    rcases h.isIn.kind with hkind | hkind <;> (rw [hkind]; rfl)
  refine forall_met_of_new hnew h.mark_eq hflaw fun d hd => ?_
  rw [h.block, setList] at hd
  rcases mem_visited_set hd with hd | hd
  · exact hvisited d hd
  · rw [opened_run rfl] at hd
    rcases mem_append.1 hd with hd | hd
    · exact hbefore d hd
    · rcases mem_cons.1 hd with rfl | hd
      · exact forall_met_newStatement hnew hself hitems hinside
      · exact hafter d hd

lemma own_block : Own module f.block := by
  have hunmarked {c : Node} (hmark : c.mark = none) (hsome : c.mark.isSome = true) : c ∈ module.nodes := by
    rw [hmark] at hsome
    cases hsome
  exact h.forall_met_block hnumbered (fun c hmark _ => hunmarked hmark) (fun n => own_of_orderly) (hunmarked rfl)

lemma inOrder_block (hwhole : Whole module) : InOrder f.block := by
  refine h.forall_met_block hnumbered (fun c _ hflaw => hflaw) (fun n _ hsub => ?_) ?_
  · exact inOrder_of_whole fun c hc => hwhole c (hsub hc)
  · refine flaw?_newStatement (openItems_ne_nil (hwhole _ h.isIn.mem_nodes) h.isIn.assign _) fun item hitem => ?_
    obtain ⟨i, t, hitem, -⟩ := exists_of_mem_openItems hitem
    exact ⟨i, t, hitem⟩

lemma hits_block_eq (hc : IsBlockOf module c) (hj : c.mark = some j) :
    hits j f.block = (if isInside f.file.block c then 1 else 0) ∧ standingHits j f.block = hits j f.block := by
  have hnot := h.notMem_line hnumbered hc
  have hzero {n : Node} (hn : Orderly n) (hsub : n.nodes ⊆ line.nodes) : hits j n = 0 :=
    hits_eq_zero_of_notMem hnumbered hc.mem_nodes hj hn (List.Subset.trans hsub (nodes_subset h.mem_nodes_line))
      fun hmem => hnot (hsub hmem)
  have hopened {n : Node} (hn : n = f.file.call ∨ n ∈ targets f.file.assign) : (n.opened.map (hits j)).sum = 0 := by
    rw [sum_eq_zero_iff, forall_mem_map]
    intro d hd
    obtain ⟨horderly, hsub⟩ := h.opened_line hnumbered hn hd
    exact hzero horderly hsub
  have hitems : ((openItems f.file.assign f.file.call).map (hits j)).sum = 0 := by
    rw [sum_eq_zero_iff, forall_mem_map]
    intro item hitem
    obtain ⟨i, t, rfl, hi, ht⟩ := exists_of_mem_openItems hitem
    rw [hits_withItem, hopened hi, hopened (.inr ht), Nat.add_zero]
  have hline := hzero (hnumbered.of_mem_nodes h.mem_nodes_line).orderly fun _ => id
  have hmet := h.hits_block j
  have hstanding := h.standingHits_block j
  have hsame := hits_eq_standingHits hnumbered h.isBlockOf hc hj
  have hsum : standingHits j f.file.block = atMark j f.file.block + ((framed f.file.block).map (standingHits j)).sum :=
    standingSum_eq _ _
  have hle := standingHits_le j line
  rw [standingHits_inside hnumbered h.isBlockOf hj] at hsum
  omega

end Fix.IsOf

/-! ## One fix after the other -/

/-- The blocks of the module that are still found in a tree are those that `reach` tells, each of them once. -/
structure Tracks (module : Node) (reach : Node → Bool) (n : Node) : Prop where
  own : Own module n
  hits {c : Node} {j : Nat} : IsBlockOf module c → c.mark = some j →
    hits j n = (if reach c then 1 else 0) ∧ standingHits j n = hits j n

lemma tracks_module (h : Numbered module) : Tracks module (fun _ => true) module where
  own := own_of_orderly h.orderly fun _ => id
  hits hc hj := by
    obtain ⟨hmet, hstanding⟩ := hits_of_mem_standing h hc.standing hj
    exact ⟨hmet, hstanding.trans hmet.symm⟩

lemma Tracks.sees (h : Tracks module reach n) (hnumbered : Numbered module) (hb : IsBlockOf module b)
    (hj : b.mark = some j) : Sees j b n where
  only c hc hmark := hnumbered.eq_of_mark (h.own c hc (by rw [hmark]; rfl)) hb.mem_nodes (hmark.trans hj.symm)
  stands := (h.hits hb hj).2.ge

/-- **One fix.** If its block is still found, there is one more `with` statement, and from then on only the blocks inside are
found. If not, all statements stay as they are and no block is found any more. -/
theorem Tracks.apply (h : Tracks module reach n) (hnumbered : Numbered module) {f : Fix}
    {before after : List Node} (hf : f.IsOf module before line inside after) (hn' : f.apply n = .ok n') :
    (reach f.file.block = true → standingSum withItems n' = standingSum withItems n + {f.items} ∧
      Tracks module (isInside f.file.block) n') ∧
    (reach f.file.block = false → standingSum withItems n' = standingSum withItems n ∧
      Tracks module (fun _ => false) n') := by
  obtain ⟨j, hj⟩ := Option.isSome_iff_exists.1 (hnumbered.marked _ hf.isBlockOf.mem_nodes)
  rw [Fix.apply, hj, Option.getD_some] at hn'
  obtain ⟨_, hkeep, hswapped⟩ := swapped_of_makes hf.kind_eq hf.isSpentLine_eq (h.sees hnumbered hf.isBlockOf hj)
    (makes_of_editing (Pass.apply_eq_ok_iff.1 hn'))
  cases hkeep
  obtain ⟨hhits, -⟩ := h.hits hf.isBlockOf hj
  have hown : Own module n' := fun c hc hmark => hf.own_block hnumbered c (hswapped.own c hc hmark) hmark
  constructor
  · intro hreach
    rw [hreach, if_pos rfl] at hhits
    constructor
    · have hitems := hswapped.items
      rw [hhits, one_nsmul, one_nsmul, hf.items_block, ← add_assoc, add_right_comm] at hitems
      exact add_right_cancel hitems
    · refine ⟨hown, fun hc hk => ?_⟩
      obtain ⟨hinside, hstanding⟩ := hf.hits_block_eq hnumbered hc hk
      rw [hswapped.hits, hswapped.standingHits, hhits, Nat.one_mul, Nat.one_mul]
      exact ⟨hinside, hstanding⟩
  · intro hreach
    rw [hreach, if_neg Bool.false_ne_true] at hhits
    constructor
    · have hitems := hswapped.items
      rw [hhits, zero_nsmul, zero_nsmul, add_zero, add_zero] at hitems
      exact hitems
    · refine ⟨hown, fun hc hk => ?_⟩
      rw [hswapped.hits, hswapped.standingHits, hhits, Nat.zero_mul, Nat.zero_mul]
      exact ⟨rfl, rfl⟩

/-- **Fixes can always be carried out**, whether their blocks are found or not. -/
theorem Tracks.exists_applyAll (h : Tracks module reach n) (hnumbered : Numbered module) (hwhole : Whole module)
    (hn : InOrder n) {fs : List Fix} (hfs : ∀ f ∈ fs, ∃ before line inside after, f.IsOf module before line inside after) :
    ∃ out, fs.foldlM (fun n f => f.apply n) n = .ok out := by
  induction fs generalizing n reach with
  | nil => exact ⟨n, rfl⟩
  | cons f fs ih =>
    obtain ⟨⟨before, line, inside, after, hf⟩, hfs⟩ := forall_mem_cons.1 hfs
    obtain ⟨j, hj⟩ := Option.isSome_iff_exists.1 (hnumbered.marked _ hf.isBlockOf.mem_nodes)
    have hblock (qs : List Node) : (Node.mk f.file.block.kind f.file.block.text qs none).flaw? = none := by
      rcases hf.isIn.kind with hkind | hkind <;> (rw [hkind]; rfl)
    obtain ⟨n', hn', horder⟩ := exists_swapped hblock hf.kind_eq hf.isSpentLine_eq (hf.inOrder_block hnumbered hwhole)
      (h.sees hnumbered hf.isBlockOf hj) hn
    have happly : f.apply n = .ok n' := by
      rw [Fix.apply, hj, Option.getD_some]
      exact Pass.apply_eq_ok_iff.2 hn'
    obtain ⟨hfound, hlost⟩ := h.apply hnumbered hf happly
    have hout : ∃ out, fs.foldlM (fun n f => f.apply n) n' = .ok out := by
      cases hreach : reach f.file.block with
      | true => exact ih (hfound hreach).2 horder hfs
      | false => exact ih (hlost hreach).2 horder hfs
    rwa [foldlM_cons, happly]

/-- What the `with` statements of a tree open, in order. -/
def heads (n : Node) : List (List Node) :=
  shown (fun c => if c.kind = .withStatement then [(c.list .items).map cleared] else []) n

end Mender.Codemod
