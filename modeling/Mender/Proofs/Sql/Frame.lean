import Mender.Proofs.Edit.Blocks
import Mender.Proofs.Edit.Tidy
import Mender.Proofs.Sql.Rounds
import Mender.Proofs.Syntax.Writing

/-!
# What mending queries leaves alone

A round replaces leaves of its query and its call, and they stand in the call or in assignments. The passes that tidy up
afterwards run over the whole module, so they also reach statements that have nothing to do with the query.

* `exists_isAbout` — all that a round replaces stands in what the round is about;
* `statements_kept_iff` — when a statement stays as it is.
-/

namespace Mender.Codemod

open Syntax Node Scope Edit Sql Pass List

/-! ## Where leaves stand -/

variable {f : Facts} {n c d a value s p module l : Node} {r : Round}

lemma mem_nodes_of_parent? {n? : Option Node} (h : n?.bind f.parent? = some p) : p ∈ f.nodes.toList := by
  obtain ⟨n, -, h⟩ := Option.bind_eq_some_iff.1 h
  obtain ⟨m, -, h⟩ := Option.bind_eq_some_iff.1 h
  obtain ⟨m', -, h⟩ := Option.bind_eq_some_iff.1 h
  exact Array.mem_toList_iff.2 (Array.mem_of_getElem? h)

lemma exists_of_valueOfName? (h : valueOfName? f n = .ok (some value)) :
    ∃ a ∈ f.nodes.toList, (a.kind = .assign ∨ a.kind = .annAssign) ∧ value = a.get .value := by
  rw [valueOfName?] at h
  obtain ⟨b?, -, h⟩ := of_bind h
  cases b? with
  | none => cases h
  | some b =>
    dsimp only at h
    split at h
    · cases h
    · obtain ⟨node?, -, h⟩ := of_bind h
      split at h
      case h_1 => cases h
      case h_2 a hparent =>
        split at h
        case isTrue => cases h
        case isFalse hkind =>
          have hkind' : a.kind = .assign ∨ a.kind = .annAssign := by
            simpa [or_iff_not_imp_left] using hkind
          split at h
          case isTrue => cases h
          case isFalse =>
            obtain ⟨scope, -, h⟩ := of_bind h
            split at h
            case isTrue =>
              cases h
              exact ⟨a, mem_nodes_of_parent? hparent, hkind', rfl⟩
            case isFalse => cases h

def IsAssignment (n : Node) : Prop := n.kind = .assign ∨ n.kind = .annAssign

def StandsIn (f : Facts) (n l : Node) : Prop :=
  l.nodes ⊆ n.nodes ∨ ∃ a ∈ f.nodes.toList, IsAssignment a ∧ l.nodes ⊆ (a.get .value).nodes

lemma inside_of_mem_openedParts (hn : Orderly n) (hc : c ∈ openedParts n) : Orderly c ∧ c.nodes ⊆ n.nodes := by
  have hget : ∀ s, Orderly (n.get s) ∧ (n.get s).nodes ⊆ n.nodes := fun s => ⟨hn.get s, (nodes_get_sublist n s).subset⟩
  have hlist : ∀ s, c ∈ n.list s → Orderly c ∧ c.nodes ⊆ n.nodes := fun s hmem =>
    ⟨(hn.get s).of_mem_parts (mem_items hmem),
      List.Subset.trans (nodes_sublist_of_mem_parts (mem_items hmem)).subset (hget s).2⟩
  rw [openedParts] at hc
  split at hc
  case h_1 => exact hlist .parts hc
  case h_2 =>
    rcases mem_cons.1 hc with rfl | hc
    · exact hget .expression
    · exact hlist .formatSpec hc
  case h_3 =>
    rcases mem_cons.1 hc with rfl | hc
    · exact hget .left
    · cases mem_singleton.1 hc
      exact hget .right

lemma standsIn_of_leavesTo (hf : ∀ a ∈ f.nodes.toList, Orderly a) {fuel : Nat} {ls : List Node} (hn : Orderly n)
    (h : leavesTo f fuel n = .ok ls) (hl : l ∈ ls) : Orderly l ∧ StandsIn f n l := by
  induction fuel generalizing n ls with
  | zero => cases h
  | succ fuel ih =>
    have hself : ls = [n] → Orderly l ∧ StandsIn f n l := by
      rintro rfl
      cases mem_singleton.1 hl
      exact ⟨hn, .inl fun _ => id⟩
    rw [leavesTo] at h
    split at h
    case isTrue =>
      obtain ⟨value?, hvalue, h⟩ := of_bind h
      cases value? with
      | none => exact hself (Except.ok.inj h).symm
      | some value =>
        obtain ⟨a, ha, hkind, rfl⟩ := exists_of_valueOfName? hvalue
        obtain ⟨horderly, hinside | helsewhere⟩ := ih ((hf a ha).get .value) h hl
        · exact ⟨horderly, .inr ⟨a, ha, hkind, hinside⟩⟩
        · exact ⟨horderly, .inr helsewhere⟩
    case isFalse =>
      split at h
      case isTrue =>
        obtain ⟨lss, hlss, h⟩ := of_bind h
        cases h
        obtain ⟨ls, hls, hl⟩ := mem_flatten.1 hl
        obtain ⟨c, hc, hcls⟩ := exists_of_mem_mapM hlss hls
        obtain ⟨hcorderly, hcinside⟩ := inside_of_mem_openedParts hn hc
        obtain ⟨horderly, hinside | helsewhere⟩ := ih hcorderly hcls hl
        · exact ⟨horderly, .inl (List.Subset.trans hinside hcinside)⟩
        · exact ⟨horderly, .inr helsewhere⟩
      case isFalse => exact hself (Except.ok.inj h).symm

/-! ## What a round is about -/

/-- Is a round about a node: its call, or an assignment that a leaf of its query comes from? -/
def Round.IsAbout (r : Round) (a : Node) : Prop := a = r.call ∨ IsAssignment a ∧ ∃ l ∈ r.query, l.node ∈ (a.get .value).nodes

/-- Is a round about nothing in a tree? -/
def Round.SparesTree (r : Round) (s : Node) : Prop := ∀ a ∈ s.nodes, ¬ r.IsAbout a

structure Round.IsOf (r : Round) (f : Facts) (n : Node) : Prop where
  facts : f = .of n.numbered
  call : r.call ∈ n.numbered.nodes
  query : query? f r.call = .ok (some r.source)
  leaves : OnLeaves r.query r.work

lemma isFrame_of_isAbout (hr : r.IsOf f n) (h : r.IsAbout a) : isFrame a.kind = false := by
  obtain ⟨-, hkind, -⟩ := eq_of_query? hr.query
  rcases h with rfl | ⟨hassign | hassign, -⟩
  · rw [hkind]
    rfl
  · rw [hassign]
    rfl
  · rw [hassign]
    rfl

lemma exists_isAbout_of_leaf (hr : r.IsOf f n) {l : Leaf} (hl : l ∈ r.query) {m : Nat} (hm : l.node.mark = some m) :
    ∃ a ∈ n.numbered.nodes, r.IsAbout a ∧ l.node ∈ a.nodes ∧ sizeOf l.node < sizeOf a := by
  have horderly : Orderly n.numbered := orderly_number n 0
  have hnodes : f.nodes.toList = n.numbered.nodes := by rw [hr.facts, Facts.of, toList_toArray]
  obtain ⟨-, -, arg, hargs, hleaves⟩ := eq_of_query? hr.query
  have harg : arg ∈ (r.call.get .args).parts := mem_items (by rw [← list, hargs]; exact mem_singleton.2 rfl)
  obtain ⟨ls, hls, hleaves⟩ := of_bind hleaves
  have hmap : ls.map (Sql.leaf f) = r.query := Except.ok.inj hleaves
  obtain ⟨node, hnode, rfl⟩ := mem_map.1 (hmap ▸ hl)
  obtain ⟨hlorderly, hstands⟩ := standsIn_of_leavesTo (fun a ha => horderly.of_mem_nodes (hnodes ▸ ha))
    ((((horderly.of_mem_nodes hr.call).get .args).of_mem_parts harg).get .value) hls hnode
  have hself := hlorderly.self_mem_nodes hm
  rcases hstands with hinside | ⟨a, ha, hassign, hinside⟩
  · have hmem : node ∈ (r.call.get .args).nodes :=
      (nodes_sublist_of_mem_parts harg).subset ((nodes_get_sublist arg .value).subset (hinside hself))
    exact ⟨r.call, hr.call, .inl rfl, (nodes_get_sublist _ _).subset hmem, sizeOf_lt_of_mem_get hmem⟩
  · have hmem := hinside hself
    exact ⟨a, hnodes ▸ ha, .inr ⟨hassign, Sql.leaf f node, hl, hmem⟩, (nodes_get_sublist _ _).subset hmem, sizeOf_lt_of_mem_get hmem⟩

lemma exists_isAbout (hr : r.IsOf f n) (hc : c ∈ n.numbered.nodes) {x : Replacement}
    (h : replacementOf? (r.replacements f) c = some x) :
    ∃ a ∈ n.numbered.nodes, r.IsAbout a ∧ c ∈ a.nodes ∧ (c = r.call ∨ sizeOf c < sizeOf a) := by
  obtain ⟨m, hm, hmem⟩ := mem_of_replacementOf? h
  rcases mem_append.1 hmem with hmem | hmem
  · obtain ⟨l, hl, hlm⟩ := (hr.leaves m x hmem).1
    obtain ⟨a, ha, habout, hla, hsize⟩ := exists_isAbout_of_leaf hr hl hlm
    have heq : c = l.node := eq_of_mark_eq hc (nodes_subset ha hla) (hm.trans hlm.symm)
    exact ⟨a, ha, habout, heq ▸ hla, .inr (heq ▸ hsize)⟩
  · obtain ⟨m', hm'⟩ := exists_mark hr.call
    rw [hm'] at hmem
    cases mem_singleton.1 hmem
    have heq : c = r.call := eq_of_mark_eq hc hr.call (hm.trans hm'.symm)
    obtain ⟨-, hkind, -⟩ := eq_of_query? hr.query
    have hself : r.call ∈ r.call.nodes := self_mem_nodes (by rw [hkind]; rfl)
    exact ⟨r.call, hr.call, .inl rfl, heq ▸ hself, .inl heq⟩

/-! ## Ways to statements -/

def Framed (module c : Node) : Prop := ∀ a ∈ module.nodes, ∀ y ∈ a.nodes, y ∈ c.nodes → a ∈ c.nodes ∨ isFrame a.kind = true

lemma nodes_sublist_of_mem_blocks (h : d ∈ blocks c) : d.nodes.Sublist c.nodes := by
  obtain ⟨s, -, h⟩ := mem_flatMap.1 h
  exact (nodes_sublist_of_mem_opened h).trans (nodes_get_sublist c s)

lemma mem_nodes_of_mem_opened {q y : Node} (hnodup : q.nodes.Nodup) (hd : d ∈ q.opened) (ha : a ∈ q.nodes)
    (hya : y ∈ a.nodes) (hyd : y ∈ d.nodes) : a ∈ d.nodes := by
  rcases cases_of_mem_opened hd with ⟨rfl, -⟩ | ⟨hseq, hd⟩
  · exact ha
  · rw [nodes_eq, hseq] at ha hnodup
    obtain ⟨p, hp, hap⟩ := mem_nodesOf.1 ha
    exact mem_nodes_of_shared hnodup hp hd (nodes_subset hap hya) hyd hap

lemma framed_of_mem_blocks (hnodup : c.nodes.Nodup) (hkind : isFrame c.kind = true)
    (hd : d ∈ blocks c) (h : Framed module c) : Framed module d := by
  intro a ha y hya hyd
  rcases h a ha y hya ((nodes_sublist_of_mem_blocks hd).subset hyd) with hac | hframe
  · obtain ⟨s, -, hd⟩ := mem_flatMap.1 hd
    have hyget := (nodes_sublist_of_mem_opened hd).subset hyd
    rcases mem_nodes hac with rfl | ⟨p, hp, hap⟩
    · exact .inr hkind
    · rcases get_cases c s with hpart | habsent
      · have hag : a ∈ (c.get s).nodes := mem_nodes_of_shared ((nodesOf_parts_sublist c).nodup hnodup) hp hpart
          (nodes_subset hap hya) hyget hap
        exact .inl (mem_nodes_of_mem_opened ((nodes_get_sublist c s).nodup hnodup) hd hag hya hyd)
      · rw [habsent] at hd
        cases hd
  · exact .inr hframe

structure IsBlock (n c : Node) : Prop where
  sublist : c.nodes.Sublist n.numbered.nodes
  orderly : Orderly c
  framed : Framed n.numbered c

lemma isBlock_module (n : Node) : IsBlock n n.numbered := ⟨.refl _, orderly_number n 0, fun _ ha _ _ _ => .inl ha⟩

lemma IsBlock.of_mem_blocks (h : IsBlock n c) (hkind : isFrame c.kind = true) (hd : d ∈ blocks c) : IsBlock n d where
  sublist := (nodes_sublist_of_mem_blocks hd).trans h.sublist
  orderly := by
    obtain ⟨s, -, hd⟩ := mem_flatMap.1 hd
    exact (h.orderly.get s).of_mem_opened hd
  framed := framed_of_mem_blocks (h.sublist.nodup (nodup_map_mark_numbered n).of_map) hkind hd h.framed

/-! ## What a round leaves alone -/

lemma avoids_of_sparesTree (hr : r.IsOf f n) (hc : IsBlock n c) (h : r.SparesTree c) : Avoids (r.replacements f) c := by
  intro d hd
  cases hx : replacementOf? (r.replacements f) d with
  | none => rfl
  | some x =>
    obtain ⟨m, hm, -⟩ := mem_of_replacementOf? hx
    have hdc : d ∈ c.nodes := mem_nodes_of_mem_met hd ((hc.orderly.of_mem_met hd).self_mem_nodes hm)
    obtain ⟨a, ha, habout, hda, -⟩ := exists_isAbout hr (hc.sublist.subset hdc) hx
    -- what the round is about is no frame, so it would stand in the tree
    rcases hc.framed a ha d hda hdc with hac | hframe
    · exact absurd habout (h a hac)
    · rw [isFrame_of_isAbout hr habout] at hframe
      cases hframe

lemma keepsAt_of_isBlock (hr : r.IsOf f n) (hc : IsBlock n c)
    (hkind : isFrame c.kind = true ∨ isStatement c.kind = true) : (replacing (r.replacements f)).KeepsAt c := by
  refine replacing_keepsAt ?_
  cases hx : replacementOf? (r.replacements f) c with
  | none => rfl
  | some x =>
    obtain ⟨m, hm, -⟩ := mem_of_replacementOf? hx
    have hself := hc.orderly.self_mem_nodes hm
    obtain ⟨a, ha, habout, hca, hsize⟩ := exists_isAbout hr (hc.sublist.subset hself) hx
    rcases hc.framed a ha c hca hself with hac | hframe
    · rcases hsize with rfl | hlt
      · obtain ⟨-, hcall, -⟩ := eq_of_query? hr.query
        rw [hcall] at hkind
        rcases hkind with hkind | hkind <;> cases hkind
      · exact absurd (sizeOf_le_of_mem_nodes hac) (Nat.not_le_of_lt hlt)
    · rw [isFrame_of_isAbout hr habout] at hframe
      cases hframe

/-! ## Statements that have nothing to do with a query -/

section

variable {t : Task} {qs : List (Node × List Leaf)} {rs : List Round} (hfacts : t.facts = .of n.numbered)
  (hqs : queries t.facts = .ok qs) (hrounds : t.rounds qs = .ok rs)
include hfacts hqs hrounds

lemma isOf_of_mem (hr : r ∈ rs) : r.IsOf t.facts n := by
  obtain ⟨hsub, hquery⟩ := sublist_queries hqs
  have hsource : r.source ∈ qs := (t.reached_sublist qs).subset (Task.map_source_rounds hrounds ▸ mem_map_of_mem hr)
  have hcall := hsub.subset (mem_map_of_mem hsource)
  rw [hfacts] at hcall
  exact ⟨hfacts, (Node.perm_nodesAfter _).subset hcall, hquery _ hsource, Task.onLeaves_of_mem hrounds hr⟩

lemma exists_stands_of_sparesTree {out s : Node} (hout : became (t.passes rs) n.numbered = some out)
    {w : List Node} (hway : Way (IsBlock n) n.numbered w s) : ∃ s', Stands (t.passes rs) n.numbered out s s' := by
  cases rs with
  | nil =>
    cases hout
    exact ⟨s, hway.stands hway (forall₂_same.2 fun _ _ => rfl)⟩
  | cons r rs =>
    have hr := isOf_of_mem hfacts hqs hrounds (.head _)
    have hkeeps : Way (replacing (r.replacements t.facts)).KeepsAt n.numbered w s :=
      hway.mono fun c hkind hc => keepsAt_of_isBlock hr hc hkind
    have hpasses : t.passes (r :: rs) = replacing (r.replacements t.facts) :: (t.passes (r :: rs)).tail := rfl
    rw [hpasses] at hout ⊢
    refine hkeeps.exists_stands (replacing_goesIn _) (fun p hp => ?_) hout
    exact Task.gentle_passes hrounds (mem_of_mem_tail hp)

end

/-- **Other statements are kept just if their texts are tidy.** A module is read from a text, and mending its queries
succeeds. A statement that holds neither the call that is mended nor an assignment whose value gave its query a leaf is
still there in the end. It is the same as before, and written the same, if and only if there was nothing to mend at all
or it has no empty texts to take out: no field of an f-string and no side of an operator, whichever it is. -/
theorem statements_kept_iff {source : String} {module : Node} (hread : Node.ofModule? source = some module) {t : Task}
    (hfacts : t.facts = .of module) {qs : List (Node × List Leaf)} (hqs : queries t.facts = .ok qs) {out : Node}
    {notes : Notes} (hrun : t.parameterizeQueries = .ok (out, notes)) :
    ∃ rs, t.rounds qs = .ok rs ∧ ∀ s, HasStatement module s → (∀ r, rs.head? = some r → r.SparesTree s) →
      ∃ s', Stands (t.passes rs) module out s s' ∧ (alike s s' = true ↔ rs = [] ∨ Tidy s) ∧
        (alike s s' = true → SameWriting s.printer s'.printer) := by
  obtain ⟨n, rfl⟩ := Node.exists_numbered hread
  obtain ⟨rs, hrounds, hout, -⟩ := Task.exists_rounds_of_parameterizeQueries hqs hrun
  have hmodule : t.module = n.numbered := by rw [Task.module, hfacts, Facts.of]
  rw [hmodule] at hout
  refine ⟨rs, hrounds, fun s hs hspares => ?_⟩
  obtain ⟨w, hway⟩ := hs
  have hblocks : Way (IsBlock n) n.numbered w s :=
    hway.handedDown (isBlock_module n) fun hkind hd hc => hc.of_mem_blocks hkind hd
  obtain ⟨s', hstands⟩ := exists_stands_of_sparesTree hfacts hqs hrounds hout hblocks
  refine ⟨s', hstands, ?_, sameWriting_of_alike⟩
  obtain ⟨hfill, htextual, -⟩ := kind_of_isStatement hway.kind_last
  have hbecame := hstands.became_eq
  have hpasses : t.passes rs =
      (rs.map (Round.replacements t.facts)).flatMap fun x => [replacing x, emptyTexts, textParts] := by
    rw [flatMap_map]
    rfl
  rw [hpasses] at hbecame
  have havoids : ∀ x, (rs.map (Round.replacements t.facts)).head? = some x → Avoids x s := by
    intro x hx
    rw [head?_map, Option.map_eq_some_iff] at hx
    obtain ⟨r, hr, rfl⟩ := hx
    exact avoids_of_sparesTree (isOf_of_mem hfacts hqs hrounds (mem_of_mem_head? hr)) hblocks.at_last
      (hspares r hr)
  rw [(alike_of_rounds_iff havoids htextual hfill hbecame).2, map_eq_nil_iff]

lemma sparesTree_of_marks (h : ∀ a ∈ s.nodes, a.mark ≠ r.call.mark ∧ ∀ l ∈ r.query, a.mark ≠ l.node.mark) :
    r.SparesTree s := by
  rintro a ha (rfl | ⟨-, l, hl, hmem⟩)
  · exact (h _ ha).1 rfl
  · exact (h l.node (nodes_subset ha ((nodes_get_sublist a .value).subset hmem))).2 l hl rfl

/-- A sum that has nothing to do with the query, but an empty side. -/
def emptyRemainder : String := "execute(\"select '\" + x + \"'\")\ny = \"%s\" % \"\"\n"

def emptyRemainderModule : Node := (Node.ofModule? emptyRemainder).getD .absent

def emptyRemainderTask : Task := { facts := .of emptyRemainderModule }

def emptyRemainderQueries : List (Node × List Leaf) := (queries emptyRemainderTask.facts).toOption.getD []

def emptyRemainderRounds : List Round := (emptyRemainderTask.rounds emptyRemainderQueries).toOption.getD []

def emptyRemainderLine : Node := (blocks emptyRemainderModule).getD 1 .absent

def emptyRemainderStatement : Node := (blocks emptyRemainderLine).getD 0 .absent

lemma emptyRemainder_run : (Node.ofModule? emptyRemainder).isSome = true ∧
    (queries emptyRemainderTask.facts).isOk = true ∧ emptyRemainderTask.parameterizeQueries.isOk = true ∧
    emptyRemainderRounds.length = 1 ∧ ¬ Tidy emptyRemainderStatement := by
  decide +kernel

lemma emptyRemainder_way : isFrame emptyRemainderModule.kind = true ∧ (blocks emptyRemainderModule).length = 2 ∧
    isFrame emptyRemainderLine.kind = true ∧ (blocks emptyRemainderLine).length = 1 ∧
    isStatement emptyRemainderStatement.kind = true ∧
    ∀ r ∈ emptyRemainderRounds, ∀ a ∈ emptyRemainderStatement.nodes,
      a.mark ≠ r.call.mark ∧ ∀ l ∈ r.query, a.mark ≠ l.node.mark := by
  decide +kernel

lemma getD_mem {ns : List Node} {i : Nat} (h : i < ns.length) : ns.getD i .absent ∈ ns := by
  rw [getD_eq_getElem _ _ h]
  exact getElem_mem h

/-- The statement behind the query is changed: `y = "%s" % ""` becomes `y = "%s"`. -/
theorem emptyRemainder_not_kept : ∃ out notes rs s', emptyRemainderTask.parameterizeQueries = .ok (out, notes) ∧
      emptyRemainderTask.rounds emptyRemainderQueries = .ok rs ∧
      HasStatement emptyRemainderModule emptyRemainderStatement ∧
      (∀ r ∈ rs, r.SparesTree emptyRemainderStatement) ∧
      Stands (emptyRemainderTask.passes rs) emptyRemainderModule out emptyRemainderStatement s' ∧
      alike emptyRemainderStatement s' = false := by
  obtain ⟨hread, hqs, hrun, hlength, huntidy⟩ := emptyRemainder_run
  obtain ⟨hmodule, hlines, hline, hstatements, hstatement, hmarks⟩ := emptyRemainder_way
  obtain ⟨module, hread⟩ := Option.isSome_iff_exists.1 hread
  obtain ⟨qs, hqs⟩ := exists_of_isOk hqs
  obtain ⟨⟨out, notes⟩, hrun⟩ := exists_of_isOk hrun
  have hmodule' : emptyRemainderModule = module := by rw [emptyRemainderModule, hread, Option.getD_some]
  have hqs' : emptyRemainderQueries = qs := by rw [emptyRemainderQueries, hqs]; rfl
  have hfacts : emptyRemainderTask.facts = .of module := by rw [emptyRemainderTask, hmodule']
  rw [← hqs'] at hqs
  obtain ⟨rs, hrounds, hkept⟩ := statements_kept_iff hread hfacts hqs hrun
  have hrs : emptyRemainderRounds = rs := by rw [emptyRemainderRounds, hrounds]; rfl
  have hspares : ∀ r ∈ rs, r.SparesTree emptyRemainderStatement := fun r hr => sparesTree_of_marks (hmarks r (hrs ▸ hr))
  have hhas : HasStatement emptyRemainderModule emptyRemainderStatement :=
    ⟨[emptyRemainderLine, emptyRemainderStatement], .cons hmodule trivial (getD_mem (by omega))
      (.cons hline trivial (getD_mem (by omega)) (.last hstatement trivial))⟩
  obtain ⟨s', hstands, hiff, -⟩ := hkept emptyRemainderStatement (hmodule' ▸ hhas) fun r hr =>
    hspares r (mem_of_mem_head? hr)
  refine ⟨out, notes, rs, s', hrun, hrounds, hhas, hspares, hmodule'.symm ▸ hstands, Bool.eq_false_iff.2 fun halike => ?_⟩
  rcases hiff.1 halike with hnil | htidy
  · rw [hrs, hnil] at hlength
    cases hlength
  · exact huntidy htidy

end Mender.Codemod
