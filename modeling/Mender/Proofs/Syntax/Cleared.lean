import Mender.Proofs.Syntax.Inside
import Mender.Proofs.Syntax.Rebuilt

/-!
# Trees without marks

What a tree says does not depend on its marks, and whether a node is in order does not either (`flaw?_cleared`). So a
tree that is in order is rebuilt as it is by a pass that changes nothing (`editing_plain`).
-/

namespace Mender.Syntax.Node

open List

variable (n : Node) (s : Slot) {ps ns : List Node}

@[simp] lemma kind_cleared : n.cleared.kind = n.kind := by
  cases n
  rfl

@[simp] lemma text_cleared : n.cleared.text = n.text := by
  cases n
  rfl

lemma clearedList_eq (ps : List Node) : clearedList ps = ps.map cleared := by
  induction ps with
  | nil => rfl
  | cons p ps ih => rw [clearedList, ih, map_cons]

@[simp] lemma parts_cleared : n.cleared.parts = n.parts.map cleared := by
  cases n
  exact clearedList_eq _

lemma cleared_mk {k : Kind} {t : String} (m : Option Nat) : cleared (.mk k t ps m) = .mk k t (ps.map cleared) none := by
  rw [cleared, clearedList_eq]

mutual

/-- Trees are the same if they only differ in their marks. -/
theorem same_iff : ∀ {a b : Node}, a.same b = true ↔ a.cleared = b.cleared
  | .mk k t ps m, .mk k' t' ps' m' => by
    rw [same, cleared_mk, cleared_mk, Bool.and_eq_true, Bool.and_eq_true, beq_iff_eq, beq_iff_eq, sameList_iff, mk.injEq,
      and_assoc]
    simp

theorem sameList_iff : ∀ {ps qs : List Node}, sameList ps qs = true ↔ ps.map cleared = qs.map cleared
  | [], [] => by simp [sameList]
  | [], _ :: _ | _ :: _, [] => by simp [sameList]
  | p :: ps, q :: qs => by
    rw [sameList, Bool.and_eq_true, same_iff, sameList_iff, map_cons, map_cons, cons.injEq]

end

@[simp] lemma get_cleared : n.cleared.get s = (n.get s).cleared := by
  rw [get, get, kind_cleared, parts_cleared]
  cases n.kind.slots.idxOf? s with
  | none => rfl
  | some i =>
    simp only [getD_eq_getElem?_getD, getElem?_map]
    cases n.parts[i]? <;> rfl

lemma cleared_set (part : Node) : (n.set s part).cleared = n.cleared.set s part.cleared := by
  rw [Node.set, Node.set, kind_cleared]
  cases n.kind.slots.idxOf? s with
  | none =>
    cases n
    rfl
  | some i =>
    dsimp only
    rw [cleared_mk, text_cleared, parts_cleared, map_set]

lemma cleared_make (k : Kind) (changes : List (Slot × Node)) (t : String) : (make k changes t).cleared =
      changes.foldl (fun n c => n.set c.1 c.2.cleared) ((fresh k).withText t).cleared := by
  have hfold (n : Node) : (changes.foldl (fun n c => n.set c.1 c.2) n).cleared =
      changes.foldl (fun n c => n.set c.1 c.2.cleared) n.cleared := by
    induction changes generalizing n with
    | nil => rfl
    | cons c cs ih => rw [foldl_cons, foldl_cons, ih, cleared_set]
  rw [make, setAll, hfold]
  rfl

@[simp] lemma items_cleared : n.cleared.items = n.items.map cleared := by
  rw [items, items, kind_cleared, parts_cleared]
  split <;> rfl

@[simp] lemma list_cleared : n.cleared.list s = (n.list s).map cleared := by
  rw [list, list, get_cleared, items_cleared]

@[simp] lemma isPresent_cleared : n.cleared.isPresent = n.isPresent := by
  rw [isPresent, isPresent, kind_cleared]

/-! ## Whether a node is in order -/

@[simp] lemma isEmptyBlank_cleared : n.cleared.isEmptyBlank = n.isEmptyBlank := by
  rw [isEmptyBlank, isEmptyBlank, kind_cleared, text_cleared]

@[simp] lemma isParenthesized_cleared : n.cleared.isParenthesized = n.isParenthesized := by
  rw [isParenthesized, isParenthesized, list_cleared, list_cleared, isEmpty_map, isEmpty_map]

@[simp] lemma literalMark_cleared : Assemble.literalMark n.cleared = Assemble.literalMark n := by
  rw [Assemble.literalMark, Assemble.literalMark, kind_cleared, get_cleared, text_cleared, text_cleared]

@[simp] lemma besideWordTo_cleared (depth : Nat) (side : Side) (n : Node) :
    besideWordTo depth side n.cleared = besideWordTo depth side n := by
  induction depth generalizing side n with
  | zero => rfl
  | succ depth ih =>
    unfold besideWordTo
    simp only [isParenthesized_cleared, kind_cleared, get_cleared, ih, literalMark_cleared, list_cleared,
      getLast?_map, head?_map, Option.any_map]

mutual

@[simp] theorem depth_cleared : ∀ n : Node, n.cleared.depth = n.depth
  | .mk k t ps m => by rw [cleared_mk, depth, depth, depthOf_cleared]

theorem depthOf_cleared : ∀ ps : List Node, depth.depthOf (ps.map cleared) = depth.depthOf ps
  | [] => rfl
  | p :: ps => by rw [map_cons, depth.depthOf, depth.depthOf, depth_cleared, depthOf_cleared]

end

@[simp] lemma besideWord_cleared (side : Side) (n : Node) : n.cleared.besideWord side = n.besideWord side := by
  rw [besideWord, besideWord, besideWordTo_cleared, besideWordTo_cleared, depth_cleared]

@[simp] lemma sticksRight_cleared (gap e : Node) : sticksRight gap.cleared e.cleared = sticksRight gap e := by
  rw [sticksRight, sticksRight, isEmptyBlank_cleared, besideWord_cleared]

@[simp] lemma sticksLeft_cleared (gap e : Node) : sticksLeft gap.cleared e.cleared = sticksLeft gap e := by
  rw [sticksLeft, sticksLeft, isEmptyBlank_cleared, besideWord_cleared]

@[simp] lemma spaceAfter_cleared (gap e : Node) (what : String) :
    spaceAfter gap.cleared e.cleared what = spaceAfter gap e what := by
  rw [spaceAfter, spaceAfter, sticksRight_cleared]

@[simp] lemma spaceBefore_cleared (gap e : Node) (what : String) :
    spaceBefore gap.cleared e.cleared what = spaceBefore gap e what := by
  rw [spaceBefore, spaceBefore, sticksLeft_cleared]

@[simp] lemma argumentFlaws_cleared (keyword spread : Bool) (as : List Node) :
    argumentFlaws keyword spread (as.map cleared) = argumentFlaws keyword spread as := by
  induction as generalizing keyword spread with
  | nil => rfl
  | cons a as ih => simp only [map_cons, argumentFlaws, text_cleared, get_cleared, isPresent_cleared, ih]

@[simp] lemma beforeLoop_cleared (elt loop : Node) : beforeLoop elt.cleared loop.cleared = beforeLoop elt loop := by
  rw [beforeLoop, beforeLoop, get_cleared, get_cleared, spaceBefore_cleared, isPresent_cleared]

@[simp] lemma conditionFlaws_cleared (inner prev : Node) (cs : List Node) :
    conditionFlaws inner.cleared prev.cleared (cs.map cleared) = conditionFlaws inner prev cs := by
  induction cs generalizing prev with
  | nil => rw [map_nil, conditionFlaws, conditionFlaws, isPresent_cleared, beforeLoop_cleared]
  | cons c cs ih => rw [map_cons, conditionFlaws, conditionFlaws, get_cleared, get_cleared, spaceBefore_cleared, ih]

@[simp] lemma isWordOperator_cleared (op : Node) : isWordOperator op.cleared = isWordOperator op := by
  rw [isWordOperator, isWordOperator, kind_cleared]

@[simp] lemma comparisonsFlaw_cleared (prev : Node) (cs : List Node) :
    comparisonsFlaw prev.cleared (cs.map cleared) = comparisonsFlaw prev cs := by
  induction cs generalizing prev with
  | nil => rfl
  | cons c cs ih => simp only [map_cons, comparisonsFlaw, get_cleared, isWordOperator_cleared, sticksLeft_cleared, ih]

@[simp] lemma endsInComma_cleared (ns : List Node) : endsInComma (ns.map cleared) = endsInComma ns := by
  simp only [endsInComma, getLast?_map, Option.any_map, get_cleared, kind_cleared]

@[simp] lemma forFlaws_cleared : n.cleared.forFlaws = n.forFlaws := by
  simp only [forFlaws, get_cleared, spaceAfter_cleared, spaceBefore_cleared]

lemma flaw?_cleared : n.cleared.flaw? = n.flaw? := by
  rw [flaw?, flaw?]
  congr 2
  rw [flaws, flaws, kind_cleared]
  split
  all_goals
    simp only [get_cleared, kind_cleared, text_cleared, isPresent_cleared, list_cleared, sticksLeft_cleared,
      sticksRight_cleared, spaceAfter_cleared, spaceBefore_cleared, argumentFlaws_cleared, beforeLoop_cleared,
      comparisonsFlaw_cleared, conditionFlaws_cleared, isWordOperator_cleared, isEmptyBlank_cleared, isEmpty_map,
      endsInComma_cleared, forFlaws_cleared]
  case h_27 =>
    cases n.list .items <;> simp

/-! ## Trees that are in order -/

/-- Can all of a tree be written down? -/
def Whole : Prop := ∀ c ∈ n.nodes, c.flaw? = none

mutual

theorem nodes_cleared : ∀ n : Node, n.cleared.nodes = n.nodes.map cleared
  | .mk k t ps m => by
    rw [cleared_mk, nodes, nodes, nodesOf_cleared]
    split
    · rfl
    · rw [map_cons, cleared_mk]

theorem nodesOf_cleared : ∀ ps : List Node, nodesOf (ps.map cleared) = (nodesOf ps).map cleared
  | [] => rfl
  | p :: ps => by rw [map_cons, nodesOf, nodesOf, nodes_cleared, nodesOf_cleared, map_append]

end

lemma whole_cleared : Whole n.cleared ↔ Whole n := by
  simp only [Whole, nodes_cleared, forall_mem_map, flaw?_cleared]

mutual

theorem cleared_number : ∀ (n : Node) (next : Nat), (number n next).1.cleared = n.cleared
  | .mk k t ps m, next => by
    rw [number]
    split <;> simp only [cleared_mk, map_cleared_numberList]

theorem map_cleared_numberList : ∀ (ps : List Node) (next : Nat), (numberList ps next).1.map cleared = ps.map cleared
  | [], _ => rfl
  | p :: ps, next => by
    rw [numberList_cons, map_cons, map_cons, cleared_number, map_cleared_numberList]

end

lemma whole_of_read {source : String} {module : Node} (h : ofModule? source = some module) : Whole module := by
  obtain ⟨n, hn, rfl, -⟩ := exists_whole h
  rw [← whole_cleared, numbered, cleared_number, whole_cleared]
  exact hn

lemma Whole.of_mem_met {n c : Node} (h : Whole n) (hc : c ∈ n.met) : Whole c := fun d hd => h d (mem_nodes_of_mem_met hc hd)

lemma Whole.of_mem_visited {n c : Node} (h : Whole n) (hc : c ∈ n.visited) : Whole c := h.of_mem_met (visited_subset hc)

lemma flaw?_of_isFiller {n : Node} (h : n.kind.isFiller = true) : n.flaw? = none := by
  unfold Kind.isFiller at h
  split at h
  case h_6 => cases h
  all_goals
    next hkind =>
      rw [flaw?, flaws, hkind]
      rfl

lemma Whole.flaw? {n : Node} (h : Whole n) : n.flaw? = none := by
  cases hfill : n.kind.isFiller with
  | true => exact flaw?_of_isFiller hfill
  | false => exact h n (self_mem_nodes hfill)

lemma isSpentLine_cleared : n.cleared.isSpentLine = n.isSpentLine := by
  rw [isSpentLine, isSpentLine, kind_cleared, list_cleared, isEmpty_map]

/-! ## Trees that are kept -/

def Unchanged (n n' : Node) : Prop := n'.cleared = n.cleared

variable {n} {n' p p' : Node} {ms : List Node} {fs : List Fill} {R : Node → Edit → Prop}

lemma steady_unchanged : Steady Unchanged :=
  steady_of_kind (fun h => by rw [← kind_cleared, h, kind_cleared]) fun h => by
    rw [← isSpentLine_cleared, h, isSpentLine_cleared]

lemma map_cleared_of_forall₂ (h : Forall₂ Unchanged ns ms) : ms.map cleared = ns.map cleared := by
  induction h with
  | nil => rfl
  | cons hc _ ih => rw [map_cons, map_cons, hc, ih]

lemma KeptPart.unchanged (h : KeptPart Unchanged p p') : Unchanged p p' := by
  cases h with
  | @run items hseq hitems =>
    have hmap := map_cleared_of_forall₂ hitems
    obtain ⟨k, t, ps, m⟩ := p
    rw [Unchanged, cleared_mk, cleared_mk]
    exact congrArg (mk k t · none) hmap
  | filler => rfl
  | node _ h => exact h

lemma PartsTo.map_cleared {qs : List Node} (h : PartsTo R fs ps qs) (hkeep : KeepsIn R Unchanged (visitedOf fs ps)) :
    qs.map cleared = ps.map cleared :=
  map_cleared_of_forall₂ ((keptPart_of_partsTo steady_unchanged h hkeep).imp fun _ _ hpart =>
    hpart.elim KeptPart.unchanged (congrArg cleared))

lemma RebuiltTo.unchanged (h : RebuiltTo R n n') (hkeep : KeepsIn R Unchanged n.visited) : Unchanged n n' := by
  have hparts := h.parts.map_cleared hkeep
  obtain ⟨k, t, ps, m⟩ := n
  obtain ⟨k', t', ps', m'⟩ := n'
  obtain rfl : k' = k := h.kind
  obtain rfl : t' = t := h.text
  rw [Unchanged, cleared_mk, cleared_mk]
  exact congrArg (Node.mk k' t' · none) hparts

/-- A tree in which each node is kept if those in it are. -/
lemma unchanged_of_kept (hR : ∀ c ∈ n.met, ∀ e, R c e → ∃ new, RebuiltTo R c new ∧ e = .keep new) {e : Edit} (h : R n e) :
    ∃ n', e = .keep n' ∧ Unchanged n n' := by
  induction n generalizing e with
  | h n ih =>
    rw [forall_met] at hR
    obtain ⟨new, hnew, rfl⟩ := hR.1 e h
    exact ⟨new, rfl, hnew.unchanged fun c hc e => ih c hc (hR.2 c hc)⟩

def Stays (g : Node → Except Fault Edit) (n : Node) : Prop := ∃ n', g n = .ok (.keep n') ∧ Unchanged n n'

variable {g : Node → Except Fault Edit}

lemma Stays.exists_keep (h : Stays g n) (P : Prop) : ∃ e, g n = .ok e ∧ (P → ∃ n', e = .keep n') :=
  h.elim fun n' hn' => ⟨_, hn'.1, fun _ => ⟨n', rfl⟩⟩

lemma keepsIn_of_stays (h : ∀ c ∈ ns, Stays g c) : KeepsIn (g · = .ok ·) Unchanged ns := by
  intro c hc e he
  obtain ⟨c', hc', hsame⟩ := h c hc
  cases hc'.symm.trans he
  exact ⟨c', rfl, hsame⟩

lemma exists_rebuildRun (isBody : Bool) (h : ∀ c ∈ ns, ∃ e, g c = .ok e) : ∃ ms, rebuildRun g isBody ns = .ok ms := by
  induction ns with
  | nil => exact ⟨[], rfl⟩
  | cons n ns ih =>
    obtain ⟨⟨e, he⟩, hns⟩ := forall_mem_cons.1 h
    obtain ⟨ms, hms⟩ := ih hns
    exact ⟨_, by rw [rebuildRun, he, hms]; rfl⟩

lemma exists_rebuildRun_of_stays (isBody : Bool) (h : ∀ c ∈ ns, Stays g c) :
    ∃ ms, rebuildRun g isBody ns = .ok ms ∧ ms.map cleared = ns.map cleared := by
  obtain ⟨ms, hms⟩ := exists_rebuildRun isBody fun c hc => ((h c hc).exists_keep True).imp fun _ => And.left
  exact ⟨ms, hms, map_cleared_of_forall₂ (forall₂_of_runTo steady_unchanged (runTo_of_rebuildRun hms) (keepsIn_of_stays h))⟩

lemma exists_rebuildPart (f : Fill) (h : ∀ c ∈ p.opened, ∃ e, g c = .ok e ∧ (c = p → ∃ c', e = .keep c')) :
    ∃ p', rebuildPart g f p = .ok p' := by
  rcases place_cases p with hseq | ⟨hfill, hseq⟩ | hnode
  · rw [opened_run hseq] at h
    obtain ⟨ms, hms⟩ := exists_rebuildRun (f == .body) fun c hc => (h c hc).imp fun _ => And.left
    exact ⟨_, by rw [rebuildPart_run _ _ hseq, hms]; rfl⟩
  · exact ⟨p, rebuildPart_filler _ _ hfill hseq⟩
  · obtain ⟨e, he, hkeep⟩ := h p (by simp [opened_node hnode])
    obtain ⟨p', rfl⟩ := hkeep rfl
    exact ⟨p', by rw [rebuildPart_node _ _ hnode, he]; rfl⟩

/-- Parts can be put together if nodes are dropped from rows only. -/
lemma exists_rebuildParts (h : ∀ c ∈ visitedOf fs ps, ∃ e, g c = .ok e ∧ (c ∈ ps → ∃ c', e = .keep c')) :
    ∃ qs, rebuildParts g fs ps = .ok qs := by
  fun_induction visitedOf fs ps with
  | case1 f fs p ps ih =>
    obtain ⟨hp, hps⟩ := forall_mem_append.1 h
    obtain ⟨p', hp'⟩ := exists_rebuildPart f fun c hc => (hp c hc).imp fun _ => .imp_right fun hkeep heq => hkeep (heq ▸ .head _)
    obtain ⟨qs, hqs⟩ := ih fun c hc => (hps c hc).imp fun _ => .imp_right fun hkeep hmem => hkeep (.tail _ hmem)
    exact ⟨p' :: qs, by rw [rebuildParts, hp', hqs]; rfl⟩
  | case2 fs ps hnot => exact ⟨ps, rebuildParts.eq_2 _ _ _ hnot⟩

lemma exists_rebuild (hflaw : n.flaw? = none) (h : ∀ c ∈ n.visited, Stays g c) :
    ∃ n', n.rebuild g = .ok n' ∧ Unchanged n n' := by
  obtain ⟨qs, hqs⟩ := exists_rebuildParts fun c hc => (h c hc).exists_keep _
  have hmap := (partsTo_of_rebuildParts hqs).map_cleared (keepsIn_of_stays h)
  have hsame : (mk n.kind n.text qs none).cleared = n.cleared := by
    rw [cleared_mk, hmap, ← cleared_mk n.mark]
    cases n
    rfl
  refine ⟨.mk n.kind n.text qs none, ?_, hsame⟩
  rw [rebuild, hqs]
  show sound _ = _
  rw [sound, ← flaw?_cleared, hsame, flaw?_cleared, hflaw]

lemma stays_of_keepsAt {p : Pass Unit} (hp : p.GoesIn) (hkeeps : ∀ c ∈ n.met, p.KeepsAt c) (h : Whole n) :
    Stays p.editing n := by
  induction n with
  | h n ih =>
    rw [forall_met] at hkeeps
    obtain ⟨n', hn', hsame⟩ := exists_rebuild h.flaw? fun c hc => ih c hc (hkeeps.2 c hc) (h.of_mem_visited hc)
    exact ⟨n', by rw [Pass.editing_eq hp, hn']; exact hkeeps.1 n', hsame⟩

end Mender.Syntax.Node

/-! ## Modules

What is read as a module is a node of that kind with a run of statements in it (`isModule_of_read`). Nothing that an edit
puts into other places changes that. -/

namespace Mender.Syntax.Node

open List Option

structure IsModule (n : Node) : Prop where
  kind : n.kind = .module
  body : (n.get .body).kind = .seq

variable {n module c : Node}

lemma IsModule.set (h : IsModule n) {s : Slot} (hs : Slot.body ≠ s) (part : Node) : IsModule (n.set s part) where
  kind := (kind_set n s part).trans h.kind
  body := by rw [get_set_of_ne hs, h.body]

lemma IsModule.setAll (h : IsModule n) {changes : List (Slot × Node)} (hs : ∀ c ∈ changes, Slot.body ≠ c.1) :
    IsModule (n.setAll changes) := by
  have hstart : IsModule n.unmarked := by
    cases n
    exact ⟨h.kind, h.body⟩
  rw [Node.setAll]
  generalize n.unmarked = n at hstart
  induction changes generalizing n with
  | nil => exact hstart
  | cons c cs ih =>
    rw [foldl_cons]
    exact ih (forall_mem_cons.1 hs).2 _ (hstart.set (hs c (.head _)) c.2)

lemma isModule_iff_cleared : IsModule n.cleared ↔ IsModule n := by
  constructor
  · rintro ⟨hkind, hbody⟩
    rw [get_cleared, kind_cleared] at hbody
    exact ⟨(kind_cleared n).symm.trans hkind, hbody⟩
  · rintro ⟨hkind, hbody⟩
    exact ⟨(kind_cleared n).trans hkind, by rw [get_cleared, kind_cleared, hbody]⟩

lemma isModule_rule {unit : String} {parts : List Part} (h : Assemble.rule unit .file parts = some n) : IsModule n := by
  change some (Assemble.fileNode ((parts.getLast?.map (·.lines)).getD []) (parts.dropLast.map (·.node))) = some n at h
  cases h
  generalize parts.dropLast.map (·.node) = body
  cases body <;> exact ⟨rfl, rfl⟩

lemma exists_parts_of_derive? {ts : List Token} {d : Tree} (h : Rule.derive? .file ts = some d) :
    ∃ parts, d = .node .file parts := by
  rw [Rule.derive?] at h
  split at h
  next t hderive =>
    cases h
    generalize 200 * (ts.length + 2) = fuel at hderive
    cases fuel with
    | zero => cases hderive
    | succ fuel =>
      rw [Gram.derive, map_eq_some_iff] at hderive
      obtain ⟨⟨parts, rest⟩, -, heq⟩ := hderive
      cases heq
      rw [Tree.ofRule.eq_def]
      split <;> exact ⟨_, rfl⟩
  next => cases h

lemma isModule_of_read {source : String} (h : ofModule? source = some module) : IsModule module := by
  rw [ofModule?] at h
  obtain ⟨⟨n, unit⟩, hread, h⟩ := bind_eq_some_iff.1 h
  obtain ⟨n', hwhole, h⟩ := bind_eq_some_iff.1 h
  obtain ⟨rfl, -⟩ := whole?_eq_some_iff.1 hwhole
  obtain ⟨-, h⟩ := ite_none_right_eq_some.1 h
  cases h
  obtain ⟨ts, -, hread⟩ := bind_eq_some_iff.1 hread
  obtain ⟨d, hderive, hread⟩ := bind_eq_some_iff.1 hread
  obtain ⟨part, htree, hread⟩ := bind_eq_some_iff.1 hread
  cases hread
  obtain ⟨ds, rfl⟩ := exists_parts_of_derive? hderive
  rw [Assemble.tree] at htree
  split at htree
  next => cases htree
  next parts _ =>
    obtain ⟨root, hroot, rfl⟩ := map_eq_some_iff.1 htree
    have hmodule := isModule_rule hroot
    rw [← isModule_iff_cleared, numbered, cleared_number, isModule_iff_cleared]
    have hheader (c : Prop) [Decidable c] : IsModule (if c then root.setList .header [] else root) := by
      split
      · exact hmodule.set (s := .header) (by decide) _
      · exact hmodule
    refine IsModule.setAll ?_ (by simp)
    split <;> exact hheader _

/-! ## Rebuilding a module -/

lemma exists_opened {fs : List Fill} {ps : List Node} (h : c ∈ visitedOf fs ps) : ∃ p ∈ ps, c ∈ p.opened := by
  obtain ⟨i, -, p, hp, hc⟩ := exists_getElem?_of_mem_visitedOf h
  exact ⟨p, mem_of_getElem? hp, hc⟩

namespace IsModule

variable {n : Node} (h : IsModule n)
include h

lemma exists_parts : ∃ header run rest, n.parts = header :: run :: rest ∧ n.get .body = run ∧ run.kind = .seq := by
  obtain ⟨hkind, hbody⟩ := h
  have hi : n.kind.slots.idxOf? .body = some 1 := by rw [hkind]; rfl
  rw [get_eq_getD hi] at hbody ⊢
  match hparts : n.parts with
  | [] | [_] =>
    rw [hparts] at hbody
    cases hbody
  | header :: run :: rest =>
    rw [hparts] at hbody
    exact ⟨header, run, rest, rfl, rfl, hbody⟩

lemma exists_rebuild {g : Node → Except Fault Edit} {body : List Node} (hbody : rebuildRun g true (n.list .body) = .ok body)
    (hother : ∀ header run rest, n.parts = header :: run :: rest → ∀ p ∈ header :: rest, ∀ c ∈ p.opened, Stays g c) :
    ∃ n', n.rebuild g = .ok n' ∧ n'.list .body = body ∧ (n'.setList .body []).cleared = (n.setList .body []).cleared := by
  obtain ⟨header, run, rest, hparts, hget, hrun⟩ := h.exists_parts
  specialize hother header run rest hparts
  obtain ⟨header', hheader⟩ := exists_rebuildPart .none fun c hc => (hother header (.head _) c hc).exists_keep _
  have hsameheader := (keptPart_of_partTo steady_unchanged (partTo_of_rebuildPart hheader)
    (keepsIn_of_stays (hother header (.head _)))).unchanged
  have hstays : ∀ c ∈ visitedOf ((Kind.module.shape.map Prod.snd).drop 2) rest, Stays g c := by
    intro c hc
    obtain ⟨p, hp, hc⟩ := exists_opened hc
    exact hother p (.tail _ hp) c hc
  obtain ⟨rest', hrest⟩ := exists_rebuildParts fun c hc => (hstays c hc).exists_keep _
  have hsamerest := (partsTo_of_rebuildParts hrest).map_cleared (keepsIn_of_stays hstays)
  have hpart : rebuildPart g .body run = .ok (.mk run.kind run.text body run.mark) := by
    rw [list, hget, items_run hrun] at hbody
    rw [rebuildPart_run _ _ hrun]
    exact congrArg (· >>= _) hbody
  have hps : rebuildParts g (Kind.module.shape.map Prod.snd) (header :: run :: rest) =
      .ok (header' :: .mk run.kind run.text body run.mark :: rest') := by
    change (do
      let a ← rebuildPart g .none header
      let as ← (do
        let b ← rebuildPart g .body run
        let bs ← rebuildParts g ((Kind.module.shape.map Prod.snd).drop 2) rest
        pure (b :: bs))
      pure (a :: as)) = _
    rw [hheader, hpart, hrest]
    rfl
  refine ⟨.mk .module n.text (header' :: .mk run.kind run.text body run.mark :: rest') none, ?_, ?_, ?_⟩
  · rw [rebuild, h.kind, hparts, hps]
    rfl
  · exact items_run (p := .mk run.kind run.text body run.mark) hrun
  · have hi : n.kind.slots.idxOf? .body = some 1 := by rw [h.kind]; rfl
    rw [setList, setList, set_eq hi, set_eq (i := 1) rfl, cleared_mk, cleared_mk, h.kind, hparts]
    change Node.mk .module n.text (header'.cleared :: (seq []).cleared :: rest'.map cleared) none = _
    rw [hsameheader, hsamerest]
    rfl

end IsModule

end Mender.Syntax.Node
