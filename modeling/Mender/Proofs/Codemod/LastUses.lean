import Mender.Proofs.Codemod.OpenedFiles
import Mender.Proofs.Scope.Nested

/-!
# What a closed file is still used for

The statement that opens a file takes in what follows up to the last use of the file. Only the uses in the scope of a name
count for that. They all get into the statement, and a reference from another scope gets there only by chance.

* `references_inside_iff` — when all uses of the file are inside the new statement;
* `wrapped_statements_kept` — the statements of a block stay the same, in their order.
-/

namespace Mender.Codemod

open Syntax Node Edit Scope List Option

variable {t : Task} {module x n line : Node} {a : Access}

/-! ## The last use -/

lemma exists_of_lastUse {index : Nat} {places : List (Option Nat)} {last : Option Nat}
    (h : lastUse index places = .ok last) :
    (∀ place ∈ places, ∃ i l, place = some i ∧ last = some l ∧ index + 1 + i ≤ l) ∧
      ∀ l, last = some l → ∃ i, some i ∈ places ∧ l = index + 1 + i := by
  -- the fold looks at the last place last, so the induction takes places off the end
  induction places using reverseRecOn generalizing last with
  | nil =>
    cases h
    exact ⟨nofun, nofun⟩
  | append_singleton places place ih =>
    rw [lastUse, foldlM_append] at h
    obtain ⟨previous, hprevious, h⟩ := of_bind h
    obtain ⟨hplaces, hlast⟩ := ih hprevious
    rw [foldlM_cons] at h
    obtain ⟨next, hnext, h⟩ := of_bind h
    cases h
    cases place with
    | none => cases hnext
    | some i =>
      cases hnext
      constructor
      · rw [forall_mem_append, forall_mem_singleton]
        refine ⟨fun place hplace => ?_, i, _, rfl, rfl, le_max_right ..⟩
        obtain ⟨j, l, rfl, rfl, hle⟩ := hplaces place hplace
        exact ⟨j, _, rfl, rfl, hle.trans (le_max_left ..)⟩
      · rintro l ⟨⟩
        rcases Nat.le_total (previous.getD 0) (index + 1 + i) with hle | hle
        · exact ⟨i, mem_append_right _ (mem_singleton_self _), Nat.max_eq_right hle⟩
        · cases previous with
          | none =>
            rw [getD_none] at hle
            omega
          | some l =>
            obtain ⟨j, hj, hl⟩ := hlast l rfl
            exact ⟨j, mem_append_left _ hj, (Nat.max_eq_left hle).trans hl⟩

lemma exists_of_lastHolder? {statements : List Node} {i : Nat} (h : t.lastHolder? n statements = some i) :
    ∃ s, statements[i]? = some s ∧ t.facts.isUnder n s = true := by
  obtain ⟨⟨s, j⟩, hlast, rfl⟩ := map_eq_some_iff.1 h
  obtain ⟨hmem, hunder⟩ := mem_filter.1 (mem_of_getLast? hlast)
  exact ⟨s, mem_zipIdx_iff_getElem?.1 hmem, hunder⟩

/-! ## Uses and references -/

namespace Task

/-- May an access mean what a target binds? -/
def refersTo (t : Task) (a : Access) (target : Node) : Bool :=
  (t.facts.scopes.referents a).any fun b => b.name == target.text && target.mark.map .defined == some b.origin

/-- Is an access made in the scope of the target itself? -/
def isOwn (t : Task) (a : Access) (target : Node) : Bool := t.facts.scopes.scope? target == some a.scope

end Task

/-- Is a node the one that stands for an access? -/
def isNodeOf (a : Access) (n : Node) : Bool := a.node.isSome && n.mark == a.node

/-- Is an access made in one of some statements? -/
def holds (statements : List Node) (a : Access) : Bool := (nodesOf statements).any (isNodeOf a)

/-- The statements that are put under the new `with` statement. -/
def Fix.inside (f : Fix) : List Node := (((f.block.list .body).getD f.file.index .absent).get .body).list .body

lemma Fix.IsOf.inside_eq {f : Fix} {before inside after : List Node}
    (h : f.IsOf module before line inside after) : f.inside = inside := by
  rw [Fix.inside, h.list_body, ← h.isIn.index, getD_append_right _ _ _ _ le_rfl, Nat.sub_self]
  rfl

namespace Task

variable {uses names behind before : List Node}

lemma exists_of_usesOf? {r : OpenedFile} (h : t.usesOf? r = .ok (some uses)) :
    ∃ names found, t.reachedNames r = .ok names ∧ (∀ x ∈ names, x.kind = .name) ∧ names.mapM t.uses = .ok found ∧
      uses = found.flatten := by
  rw [usesOf?] at h
  obtain ⟨names, hnames, h⟩ := of_bind h
  split at h
  next => cases h
  next hkinds =>
    obtain ⟨found, hfound, h⟩ := of_bind h
    cases h
    exact ⟨names, found, hnames, by simpa using hkinds, hfound, rfl⟩

variable {source : String} (hread : ofModule? source = some module) (hfacts : t.facts = .of module)
  {found : List (List Node)} {line x n : Node} {f : Fix}
include hread hfacts

lemma mem_nodes_of_nodeOf (h : t.nodeOf a = .ok n) : n ∈ module.nodes ∧ isNodeOf a n = true := by
  rw [nodeOf] at h
  split at h
  next n' hnode =>
    cases h
    obtain ⟨m, hm, hnode⟩ := bind_eq_some_iff.1 hnode
    rw [hfacts] at hnode
    obtain ⟨hmem, hmark⟩ := (Facts.node?_eq_some_iff (Facts.counted_of_read hread)).1 hnode
    refine ⟨hmem, ?_⟩
    rw [isNodeOf, hm, hmark, isSome_some, Bool.true_and, beq_self_eq_true]
  next => cases h

lemma forall_of_uses (h : t.uses x = .ok uses) : (∀ a ∈ t.facts.accesses x, ∃ n ∈ uses, isNodeOf a n = true) ∧
      ∀ n ∈ uses, n ∈ module.nodes ∧ ∃ a ∈ t.facts.accesses x, isNodeOf a n = true := by
  constructor
  · intro a ha
    obtain ⟨n, hn, hnode⟩ := exists_mem_of_mapM h ha
    exact ⟨n, hn, (mem_nodes_of_nodeOf hread hfacts hnode).2⟩
  · intro n hn
    obtain ⟨a, ha, hnode⟩ := exists_of_mem_mapM h hn
    obtain ⟨hmem, hnode⟩ := mem_nodes_of_nodeOf hread hfacts hnode
    exact ⟨hmem, a, ha, hnode⟩

lemma forall_of_mapM_uses (h : names.mapM t.uses = .ok found) :
    (∀ x ∈ names, ∀ a ∈ t.facts.accesses x, ∃ n ∈ found.flatten, isNodeOf a n = true) ∧
      ∀ n ∈ found.flatten, n ∈ module.nodes ∧ ∃ x ∈ names, ∃ a ∈ t.facts.accesses x, isNodeOf a n = true := by
  constructor
  · intro x hx a ha
    obtain ⟨ns, hns, huses⟩ := exists_mem_of_mapM h hx
    obtain ⟨n, hn, hnode⟩ := (forall_of_uses hread hfacts huses).1 a ha
    exact ⟨n, mem_flatten_of_mem hns hn, hnode⟩
  · intro n hn
    obtain ⟨ns, hns, hn⟩ := mem_flatten.1 hn
    obtain ⟨x, hx, huses⟩ := exists_of_mem_mapM h hns
    obtain ⟨hmem, a, ha, hnode⟩ := (forall_of_uses hread hfacts huses).2 n hn
    exact ⟨hmem, x, hx, a, ha, hnode⟩

lemma inside_of_mended
    (hin : f.file.IsIn module before line behind) (hmem : uses ⊆ module.nodes) (h : t.mended f.file uses = .ok f.block) :
    uses ⊆ nodesOf f.inside ∧ f.inside <+: behind ∧
      ((uses = [] ∧ f.inside = behind) ∨ ∃ n ∈ uses, ∃ s, f.inside.getLast? = some s ∧ n ∈ s.nodes) := by
  obtain ⟨inside, after, last, hof, hbehind, hlast, hinside⟩ := exists_of_mended hin h
  have hnumbered := numbered_of_read hread
  have hheld {n : Node} {i : Nat} (hn : n ∈ uses) (hi : t.lastHolder? n behind = some i) :
      ∃ s, behind[i]? = some s ∧ n ∈ s.nodes := by
    obtain ⟨s, hs, hunder⟩ := exists_of_lastHolder? hi
    rw [hfacts] at hunder
    refine ⟨s, hs, Facts.mem_nodes_of_isUnder (Facts.counted_of_read hread) hnumbered (hmem hn) (fun hmark => ?_) hunder⟩
    refine hnumbered.mem_nodes_of_mem_list hin.block_mem (s := .body) ?_ hmark
    rw [hin.body]
    exact mem_append_right _ (.tail _ (mem_of_getElem? hs))
  obtain ⟨hplaces, hlastPlace⟩ := exists_of_lastUse hlast
  rw [List.forall_mem_map] at hplaces
  rw [hof.inside_eq]
  refine ⟨fun n hn => ?_, ⟨after, hbehind.symm⟩, ?_⟩
  · obtain ⟨i, l, hi, rfl, hle⟩ := hplaces n hn
    obtain ⟨s, hs, hns⟩ := hheld hn hi
    have htaken : inside[i]? = some s := by
      rw [hinside, upTo, getElem?_take_of_lt (by omega), hs]
    exact (nodes_sublist_nodesOf (mem_of_getElem? htaken)).subset hns
  · cases last with
    | none =>
      refine .inl ⟨eq_nil_iff_forall_not_mem.2 fun n hn => ?_, hinside⟩
      obtain ⟨i, l, -, hl, -⟩ := hplaces n hn
      cases hl
    | some l =>
      obtain ⟨i, hi, rfl⟩ := hlastPlace l rfl
      obtain ⟨n, hn, hi⟩ := mem_map.1 hi
      obtain ⟨s, hs, hns⟩ := hheld hn hi
      have hcount : f.file.index + 1 + i - f.file.index = i + 1 := by omega
      refine .inr ⟨n, hn, s, ?_, hns⟩
      rw [hinside, upTo, hcount, getLast?_take, if_neg (Nat.succ_ne_zero i), Nat.add_sub_cancel, hs]
      rfl

/-- The statement takes in all accesses to the names in their scopes. It ends with the last of them, or with the block if
there are none. -/
lemma accesses_inside (hin : f.file.IsIn module before line behind) (hfound : names.mapM t.uses = .ok found)
    (h : t.mended f.file found.flatten = .ok f.block) :
    f.inside <+: behind ∧ (((∀ x ∈ names, t.facts.accesses x = []) ∧ f.inside = behind) ∨
        ∃ x ∈ names, ∃ a ∈ t.facts.accesses x, ∃ s, f.inside.getLast? = some s ∧ holds [s] a = true) ∧
      ∀ x ∈ names, ∀ a ∈ t.facts.accesses x, holds f.inside a = true := by
  obtain ⟨hused, hmem⟩ := forall_of_mapM_uses hread hfacts hfound
  obtain ⟨hinside, hstart, hlast⟩ := inside_of_mended hread hfacts hin (fun n hn => (hmem n hn).1) h
  refine ⟨hstart, hlast.imp ?_ ?_, ?_⟩
  · rintro ⟨hnone, hall⟩
    rw [hnone] at hused
    exact ⟨fun x hx => eq_nil_iff_forall_not_mem.2 fun a ha => not_mem_nil (hused x hx a ha).choose_spec.1, hall⟩
  · rintro ⟨n, hn, s, hs, hns⟩
    obtain ⟨-, x, hx, a, ha, hnode⟩ := hmem n hn
    refine ⟨x, hx, a, ha, s, hs, any_eq_true.2 ⟨n, ?_, hnode⟩⟩
    rw [nodesOf_eq, flatMap_singleton]
    exact hns
  · intro x hx a ha
    obtain ⟨n, hn, hnode⟩ := hused x hx a ha
    exact any_eq_true.2 ⟨n, hinside hn, hnode⟩

end Task

lemma mem_accesses_of_isOwn (ha : a ∈ t.facts.scopes.accesses) (hkind : x.kind = .name)
    (hrefers : t.refersTo a x = true) (hown : t.isOwn a x = true) : a ∈ t.facts.accesses x := by
  obtain ⟨b, hb, hname⟩ := any_eq_true.1 hrefers
  rw [Bool.and_eq_true, beq_iff_eq, Scopes.name_of_mem_referents hb] at hname
  obtain ⟨k, text, ps, m⟩ := x
  cases hkind
  have hsimple : simpleName? (.mk .name text ps m) = some text := by rw [simpleName?]
  rw [Facts.accesses, beq_iff_eq.1 hown]
  change a ∈ t.facts.scopes.accessesOf a.scope _
  rw [Scopes.accessesOf, hsimple, Array.mem_toList_iff, Array.mem_filter, Bool.and_eq_true, beq_self_eq_true, beq_iff_eq]
  exact ⟨ha, rfl, hname.1⟩

/-- **Which references are left outside.** The statement that closes a file takes in all uses of its names in their own
scopes, and ends with the last of them; without any it takes in all that follows. So no reference to the file is left outside
just if all references from other scopes are inside. -/
theorem references_inside_iff {source : String} {module : Node} (hread : Node.ofModule? source = some module) {t : Task}
    (hfacts : t.facts = .of module) {out : Node} {notes : Notes} (hrun : t.closeFiles = .ok (out, notes)) :
    ∃ files fixes, t.openedFiles = .ok files ∧ t.fixes files = .ok fixes ∧ notes.changes = t.changesFor fixes ∧
      ∀ f ∈ fixes, ∃ names behind, t.reachedNames f.file = .ok names ∧
        behind = (f.file.block.list .body).drop (f.file.index + 1) ∧ f.inside <+: behind ∧
        (((∀ x ∈ names, t.facts.accesses x = []) ∧ f.inside = behind) ∨
          ∃ x ∈ names, ∃ a ∈ t.facts.accesses x, ∃ s, f.inside.getLast? = some s ∧ holds [s] a = true) ∧
        (∀ x ∈ names, ∀ a ∈ t.facts.accesses x, holds f.inside a = true) ∧
        ((∀ x ∈ names, ∀ a ∈ t.facts.scopes.accesses, t.refersTo a x = true → holds f.inside a = true) ↔
          ∀ x ∈ names, ∀ a ∈ t.facts.scopes.accesses, t.refersTo a x = true → t.isOwn a x = false →
            holds f.inside a = true) := by
  obtain ⟨files, fixes, hfiles, hfixes, hchanges, -, -⟩ := exists_of_closeFiles hrun
  have hrs := exists_of_openedFiles hread hfacts hfiles
  refine ⟨files, fixes, hfiles, hfixes, hchanges, fun f hf => ?_⟩
  obtain ⟨hfile, uses, huses, -, hmended⟩ := Task.exists_of_mem_fixes hfixes hf
  obtain ⟨before, line, behind, hin⟩ := hrs f.file hfile
  obtain ⟨names, found, hnames, hkinds, hfound, rfl⟩ := Task.exists_of_usesOf? huses
  obtain ⟨hstart, hlast, hown⟩ := Task.accesses_inside hread hfacts hin hfound hmended
  refine ⟨names, behind, hnames, hin.drop_body.symm, hstart, hlast, hown, ?_, ?_⟩
  · exact fun hall x hx a ha hrefers _ => hall x hx a ha hrefers
  · intro hforeign x hx a ha hrefers
    cases hscope : t.isOwn a x with
    | true => exact hown x hx a (mem_accesses_of_isOwn ha (hkinds x hx) hrefers hscope)
    | false => exact hforeign x hx a ha hrefers hscope

/-- A file that a function reads after it was read in the module itself. -/
def readLater : String := "f = open('a')\nf.read()\ndef g():\n    return f.read()\n"

def readLaterTask : Task := { facts := .of ((Node.ofModule? readLater).getD .absent) }

/-- Is a reference from another scope left outside the statement that closes the file? -/
def Task.leavesOut (t : Task) (f : Fix) (names : List Node) : Bool :=
  names.any fun x => t.facts.scopes.accesses.any fun a => t.refersTo a x && ! t.isOwn a x && ! holds f.inside a

lemma readLater_run : (Node.ofModule? readLater).isSome = true ∧ (readLaterTask.closeFiles.toOption.map (·.1.code)) =
      some "with open('a') as f:\n    f.read()\ndef g():\n    return f.read()\n" ∧
    ((readLaterTask.openedFiles >>= readLaterTask.fixes).toOption.map fun fixes => fixes.map fun f =>
      (readLaterTask.reachedNames f.file).toOption.map (readLaterTask.leavesOut f)) = some [some true] := by
  decide +kernel

theorem readLater_leftOut : ∃ out notes, readLaterTask.closeFiles = .ok (out, notes) ∧
    out.code = "with open('a') as f:\n    f.read()\ndef g():\n    return f.read()\n" ∧
    ∃ files fixes f names, readLaterTask.openedFiles = .ok files ∧ readLaterTask.fixes files = .ok fixes ∧ f ∈ fixes ∧
      readLaterTask.reachedNames f.file = .ok names ∧
      ¬ ∀ x ∈ names, ∀ a ∈ readLaterTask.facts.scopes.accesses, readLaterTask.refersTo a x = true →
        holds f.inside a = true := by
  obtain ⟨hread, hrun, hleft⟩ := readLater_run
  obtain ⟨module, hread, hfacts⟩ := Facts.exists_of_read hread (f := readLaterTask.facts) rfl
  obtain ⟨r, hout, hrun⟩ := exists_of_toOption_map hrun
  refine ⟨r.1, r.2, hout, hrun, ?_⟩
  obtain ⟨files, fixes, hfiles, hfixes, -, hall⟩ := references_inside_iff hread hfacts hout
  have hfixes' : (readLaterTask.openedFiles >>= readLaterTask.fixes) = .ok fixes := by
    rw [hfiles]
    exact hfixes
  rw [hfixes'] at hleft
  obtain ⟨f, rfl, hf⟩ := map_eq_singleton_iff.1 (some.inj hleft)
  obtain ⟨names, -, hnames, -, -, -, -, hiff⟩ := hall f (mem_singleton_self f)
  refine ⟨files, [f], f, names, hfiles, hfixes, mem_singleton_self f, hnames, fun hinside => ?_⟩
  rw [hnames] at hf
  obtain ⟨x, hx, hx'⟩ := any_eq_true.1 (some.inj hf)
  obtain ⟨a, ha, hleave⟩ := Array.any_eq_true'.1 hx'
  simp only [Bool.and_eq_true, Bool.not_eq_true'] at hleave
  obtain ⟨⟨hrefers, hforeign⟩, houtside⟩ := hleave
  cases houtside.symm.trans (hiff.1 hinside x hx a ha hrefers hforeign)

/-! ## Statements that are kept -/

/-- No access is in two places of a module. -/
lemma not_holds_of_holds (hnumbered : Numbered module) {inside after : List Node}
    (hsub : (nodesOf (inside ++ after)).Sublist module.nodes) (h : holds inside a = true) : holds after a = false := by
  rw [nodesOf_eq, flatMap_append, ← nodesOf_eq, ← nodesOf_eq] at hsub
  have hapart := (nodup_append.1 (hnumbered.nodup_nodes.sublist hsub)).2.2
  refine Bool.eq_false_iff.2 fun hafter => ?_
  obtain ⟨n, hn, hnode⟩ := any_eq_true.1 h
  obtain ⟨n', hn', hnode'⟩ := any_eq_true.1 hafter
  rw [isNodeOf, Bool.and_eq_true, beq_iff_eq] at hnode hnode'
  exact hapart n hn n' hn' (hnumbered.eq_of_mark (hsub.subset (mem_append_left _ hn)) (hsub.subset (mem_append_right _ hn'))
    (hnode.2.trans hnode'.2.symm))

/-- **Wrapping keeps every statement.** The line that opens a file becomes a statement that takes in what follows, and
nothing is lost, doubled or moved. The last line inside is the last one of the block with an access to one of the names, and
without any access all that follows goes inside. -/
theorem wrapped_statements_kept {source : String} {module : Node} (hread : Node.ofModule? source = some module) {t : Task}
    (hfacts : t.facts = .of module) {files : List OpenedFile} (hfiles : t.openedFiles = .ok files) {r : OpenedFile}
    (hr : r ∈ files) {names : List Node} {found : List (List Node)} (hfound : names.mapM t.uses = .ok found) {block : Node}
    (hblock : t.mended r found.flatten = .ok block) :
    ∃ statement inside after, statement.kind = .withStatement ∧ (statement.get .body).list .body = inside ∧
      block.list .body = (r.block.list .body).take r.index ++ statement :: after ∧
      (r.block.list .body).take r.index ++ (inside ++ after) = (r.block.list .body).eraseIdx r.index ∧
      (((∀ x ∈ names, t.facts.accesses x = []) ∧ after = []) ∨
        ∃ s, inside.getLast? = some s ∧ (∃ x ∈ names, ∃ a ∈ t.facts.accesses x, holds [s] a = true) ∧
          ∀ x ∈ names, ∀ a ∈ t.facts.accesses x, holds after a = false) := by
  obtain ⟨before, line, behind, hin⟩ := exists_of_openedFiles hread hfacts hfiles r hr
  let f : Fix := ⟨r, 0, block⟩
  obtain ⟨inside, after, -, hof, rfl, -⟩ := Task.exists_of_mended (f := f) hin hblock
  obtain ⟨-, hlast, hown⟩ := Task.accesses_inside (f := f) hread hfacts hin hfound hblock
  rw [hof.inside_eq] at hlast hown
  have hsub : (nodesOf (inside ++ after)).Sublist module.nodes := by
    have hlist := nodesOf_list_sublist r.block .body
    rw [hin.body, nodesOf_eq, flatMap_append, flatMap_cons, ← nodesOf_eq (inside ++ after), ← append_assoc] at hlist
    exact ((sublist_append_right ..).trans hlist).trans (nodes_sublist_of_mem_nodes hin.block_mem)
  refine ⟨_, inside, after, rfl, rfl, by rw [hin.take_body]; exact hof.list_body, ?_, ?_⟩
  · rw [eraseIdx_eq_take_drop_succ, hin.drop_body]
  · rcases hlast with ⟨hnone, hall⟩ | ⟨x, hx, a, ha, s, hs, hholds⟩
    · exact .inl ⟨hnone, by simpa using hall⟩
    · exact .inr ⟨s, hs, ⟨x, hx, a, ha, hholds⟩, fun x hx a ha => not_holds_of_holds (numbered_of_read hread) hsub (hown x hx a ha)⟩

theorem readLater_kept : ∃ files r names found block, readLaterTask.openedFiles = .ok files ∧ r ∈ files ∧
    List.mapM readLaterTask.uses names = .ok found ∧ readLaterTask.mended r found.flatten = .ok block ∧
    ∃ statement after, statement.kind = .withStatement ∧
      block.list .body = (r.block.list .body).take r.index ++ statement :: after := by
  obtain ⟨hread, -, hleft⟩ := readLater_run
  obtain ⟨module, hread, hfacts⟩ := Facts.exists_of_read hread (f := readLaterTask.facts) rfl
  obtain ⟨fixes, hfixes, hleft⟩ := exists_of_toOption_map hleft
  obtain ⟨files, hfiles, hfixes⟩ := of_bind hfixes
  obtain ⟨f, rfl, -⟩ := map_eq_singleton_iff.1 hleft
  obtain ⟨hfile, uses, huses, -, hblock⟩ := Task.exists_of_mem_fixes hfixes (mem_singleton_self f)
  obtain ⟨names, found, -, -, hfound, rfl⟩ := Task.exists_of_usesOf? huses
  obtain ⟨statement, -, after, hkind, -, hbody, -⟩ := wrapped_statements_kept hread hfacts hfiles hfile hfound hblock
  exact ⟨files, f.file, names, found, f.block, hfiles, hfile, hfound, hblock, statement, after, hkind, hbody⟩

end Mender.Codemod
