import Mathlib.Data.List.Perm.Subperm
import Mathlib.Logic.Relation
import Mender.Proofs.Codemod.LastUses
import Mender.Proofs.Codemod.Leaks

/-!
# Names that go around in a circle

The codemod that closes files follows a file from name to name. Names that are assigned to each other have no last one, and
the search for them fails, whatever its bound. In all other modules the bound is large enough.

* `Task.reachedFrom_isOk_iff` — when the search from a name succeeds;
* `Task.fixes_isOk_iff` — when all fixes can be made;
* `closing_succeeds_iff` — when the codemod comes to an end.
-/

namespace Mender.Codemod

open Syntax Node Edit Scope List Relation Option

variable {t : Task} {module x y line : Node} {fuel : Nat}

namespace Task

/-- Is the value of a name assigned to another name? -/
def HandsOn (t : Task) (x y : Node) : Prop := ∃ ys, t.assignedTo x = .ok ys ∧ y ∈ ys ∧ y.kind = .name

/-- All ways from name to name end, with names whose uses are known. -/
inductive Ends (t : Task) : Node → Prop
  | mk {x : Node} : (t.assignedTo x).isOk = true → (∀ y, t.HandsOn x y → t.Ends y) → t.Ends x

lemma reachedFrom_succ_isOk_iff : (t.reachedFrom (fuel + 1) x).isOk = true ↔
    (t.assignedTo x).isOk = true ∧ ∀ y, t.HandsOn x y → (t.reachedFrom fuel y).isOk = true := by
  rw [reachedFrom, bind_isOk_iff, isOk_iff_exists]
  constructor
  · rintro ⟨ys, hys, hfurther⟩
    obtain ⟨yss, hyss, -⟩ := bind_isOk_iff.1 hfurther
    refine ⟨⟨ys, hys⟩, ?_⟩
    rintro y ⟨ys', hys', hy, hkind⟩
    cases hys.symm.trans hys'
    exact mapM_isOk_iff.1 (isOk_iff_exists.2 ⟨yss, hyss⟩) y (mem_filter.2 ⟨hy, beq_iff_eq.2 hkind⟩)
  · rintro ⟨⟨ys, hys⟩, hfurther⟩
    refine ⟨ys, hys, bind_isOk_iff.2 ?_⟩
    obtain ⟨yss, hyss⟩ := isOk_iff_exists.1 (mapM_isOk_iff.2 fun y hy =>
      hfurther y ⟨ys, hys, (mem_filter.1 hy).1, beq_iff_eq.1 (mem_filter.1 hy).2⟩)
    exact ⟨yss, hyss, rfl⟩

lemma ends_of_isOk (h : (t.reachedFrom fuel x).isOk = true) : t.Ends x := by
  induction fuel generalizing x with
  | zero => cases h
  | succ fuel ih =>
    obtain ⟨hx, hfurther⟩ := reachedFrom_succ_isOk_iff.1 h
    exact .mk hx fun y hxy => ih (hfurther y hxy)

lemma Ends.not_circle (h : t.Ends x) : ¬ TransGen t.HandsOn x x := by
  induction h with
  | mk _ _ ih =>
    intro hcircle
    obtain ⟨y, hxy, hback⟩ := TransGen.head'_iff.1 hcircle
    exact ih y hxy (TransGen.tail' hback hxy)

lemma mem_nodes_of_mem_targets {a : Node} (ha : a ∈ module.nodes) (hx : x ∈ targets a) (hkind : x.kind = .name) :
    x ∈ module.nodes := by
  have htarget : x.nodes.Sublist a.nodes := by
    rw [targets] at hx
    split at hx
    · exact mem_singleton.1 hx ▸ nodes_get_sublist a _
    · obtain ⟨target, htarget, rfl⟩ := mem_map.1 hx
      have hitem := nodes_sublist_of_mem_parts (mem_items htarget)
      exact ((nodes_get_sublist target _).trans hitem).trans (nodes_get_sublist a _)
    · exact mem_singleton.1 hx ▸ nodes_get_sublist a _
    · split at hx
      · exact mem_singleton.1 hx ▸ (nodes_get_sublist _ _).trans (nodes_get_sublist a _)
      · cases hx
    · cases hx
  exact nodes_subset ha (htarget.subset (self_mem_nodes (by rw [hkind]; rfl)))

lemma mem_nodes_of_valueOf? {a : Node} (h : (Facts.of module).valueOf? x = .ok (some a)) : a ∈ module.nodes := by
  obtain ⟨p, hp, h⟩ := of_bind h
  obtain ⟨-, rfl⟩ := ite_some_none_eq_some.1 (Except.ok.inj h)
  rw [Facts.parent] at hp
  split at hp
  next p' hparent =>
    cases hp
    obtain ⟨m, -, hparent⟩ := bind_eq_some_iff.1 hparent
    obtain ⟨m', -, hnode⟩ := bind_eq_some_iff.1 hparent
    exact mem_toArray.1 (Array.mem_of_getElem? hnode)
  next => cases hp

lemma mem_nodes_of_handsOn (hfacts : t.facts = .of module) (h : t.HandsOn x y) : y ∈ module.nodes := by
  obtain ⟨ys, hys, hy, hkind⟩ := h
  obtain ⟨uses, -, hys⟩ := of_bind hys
  obtain ⟨found, hfound, hys⟩ := of_bind hys
  cases hys
  obtain ⟨ys, hys, hy⟩ := mem_flatten.1 hy
  obtain ⟨n, -, hn⟩ := exists_of_mem_mapM hfound hys
  obtain ⟨a?, hvalue, hn⟩ := of_bind hn
  rw [hfacts] at hvalue
  cases a? with
  | none =>
    cases hn
    cases hy
  | some a =>
    cases hn
    exact mem_nodes_of_mem_targets (mem_nodes_of_valueOf? hvalue) hy hkind

/-- Without circles the names on the way to a name are all different, so there are no more of them than nodes. -/
lemma reachedFrom_isOk_of_path {path : List Node} (hx : t.Ends x) (hfacts : t.facts = .of module)
    (hmem : x ∈ module.nodes) (hnodup : path.Nodup) (hsub : path ⊆ module.nodes) (hback : ∀ p ∈ path, TransGen t.HandsOn p x)
    (hfuel : module.nodes.length < fuel + path.length) : (t.reachedFrom fuel x).isOk = true := by
  induction fuel generalizing x path with
  | zero =>
    have hle := (subperm_of_subset hnodup hsub).length_le
    omega
  | succ fuel ih =>
    have hcircle := hx.not_circle
    obtain ⟨hassigned, hfurther⟩ := hx
    refine reachedFrom_succ_isOk_iff.2 ⟨hassigned, fun y hxy => ?_⟩
    refine ih (hfurther y hxy) (mem_nodes_of_handsOn hfacts hxy) (nodup_cons.2 ⟨mt (hback x) hcircle, hnodup⟩)
      (cons_subset.2 ⟨hmem, hsub⟩) ?_ (by rw [length_cons]; omega)
    exact forall_mem_cons.2 ⟨.single hxy, fun p hp => (hback p hp).tail hxy⟩

lemma reachedFrom_isOk_iff (hfacts : t.facts = .of module) (hmem : x ∈ module.nodes) :
    (t.reachedFrom (t.facts.nodes.size + 1) x).isOk = true ↔ t.Ends x := by
  refine ⟨ends_of_isOk, fun hx => ?_⟩
  refine reachedFrom_isOk_of_path hx hfacts hmem nodup_nil (nil_subset _) (forall_mem_nil _) ?_
  rw [hfacts]
  exact Nat.lt_succ_self _

/-! ## The uses of a file -/

lemma uses_isOk_of_reachedFrom (h : (t.reachedFrom fuel x).isOk = true) : (t.uses x).isOk = true := by
  cases fuel with
  | zero => cases h
  | succ fuel =>
    obtain ⟨uses, huses, -⟩ := bind_isOk_iff.1 (reachedFrom_succ_isOk_iff.1 h).1
    exact isOk_iff_exists.2 ⟨uses, huses⟩

/-- Where the search succeeds, the uses of all names that it comes to are known. -/
lemma uses_isOk_of_further {direct : List Node} {further : List (List Node)}
    (h : (direct.filter (·.kind == .name)).mapM (t.reachedFrom fuel) = .ok further) :
    ∀ y ∈ direct ++ further.flatten, y.kind = .name → (t.uses y).isOk = true := by
  intro y hy hkind
  induction fuel using Nat.strongRec generalizing direct further with
  | ind fuel ih =>
    rcases mem_append.1 hy with hy | hy
    · exact uses_isOk_of_reachedFrom (mapM_isOk_iff.1 (isOk_iff_exists.2 ⟨_, h⟩) y (by simp [hy, hkind]))
    · obtain ⟨ys, hys, hy⟩ := mem_flatten.1 hy
      obtain ⟨z, -, hz⟩ := exists_of_mem_mapM h hys
      cases fuel with
      | zero => cases hz
      | succ fuel =>
        obtain ⟨direct', -, hz⟩ := of_bind hz
        obtain ⟨further', hfurther', hz⟩ := of_bind hz
        cases hz
        exact ih fuel (Nat.lt_succ_self fuel) hfurther' hy

lemma usesOf?_isOk_iff {r : OpenedFile} : (t.usesOf? r).isOk = true ↔ (t.reachedNames r).isOk = true := by
  rw [usesOf?, bind_isOk_iff, isOk_iff_exists]
  refine exists_congr fun names => and_iff_left_of_imp fun hnames => ?_
  obtain ⟨further, hfurther, hnames⟩ := of_bind hnames
  cases hnames
  split
  next => rfl
  next hall =>
    refine bind_isOk_iff.2 ?_
    obtain ⟨uses, huses⟩ := isOk_iff_exists.1 (mapM_isOk_iff.2 fun y hy =>
      uses_isOk_of_further hfurther y hy (not_not.1 fun h => hall (any_eq_true.2 ⟨y, hy, bne_iff_ne.2 h⟩)))
    exact ⟨uses, huses, rfl⟩

/-! ## All files -/

lemma lastUse_isOk_iff {index : Nat} {places : List (Option Nat)} : (lastUse index places).isOk = true ↔ none ∉ places := by
  constructor
  · intro h hnone
    obtain ⟨last, hlast⟩ := isOk_iff_exists.1 h
    obtain ⟨i, -, hi, -⟩ := (exists_of_lastUse hlast).1 none hnone
    cases hi
  · intro h
    induction places using reverseRecOn with
    | nil => rfl
    | append_singleton places place ih =>
      obtain ⟨hplaces, hplace⟩ := not_or.1 (mt mem_append.2 h)
      obtain ⟨last, hlast⟩ := isOk_iff_exists.1 (ih hplaces)
      rw [lastUse, foldlM_append]
      refine bind_isOk_iff.2 ⟨last, hlast, ?_⟩
      cases place with
      | none => exact absurd (mem_singleton_self _) hplace
      | some i => rfl

lemma lastHolder?_eq_none_iff {n : Node} {statements : List Node} :
    t.lastHolder? n statements = none ↔ ¬ ∃ s ∈ statements, t.facts.isUnder n s = true := by
  rw [lastHolder?, map_eq_none_iff, getLast?_eq_none_iff, filter_eq_nil_iff]
  constructor
  · rintro h ⟨s, hs, hunder⟩
    obtain ⟨i, hi⟩ := mem_iff_getElem?.1 hs
    exact h (s, i) (mem_zipIdx_iff_getElem?.2 hi) hunder
  · exact fun h s hs hunder => h ⟨s.1, fst_mem_of_mem_zipIdx hs, hunder⟩

lemma mended_isOk_iff {r : OpenedFile} {before behind uses : List Node} (hin : r.IsIn module before line behind) :
    (t.mended r uses).isOk = true ↔ ∀ n ∈ uses, ∃ s ∈ behind, t.facts.isUnder n s = true := by
  have hwrapped (last : Option Nat) : (wrapped r last).isOk = true := by
    obtain ⟨body, hbody⟩ : ∃ body, wrapped r last = (r.block.setList .body body).sound := by
      cases last <;> exact ⟨_, rfl⟩
    rw [hbody, Node.sound, flaw?, flaws, setList, kind_set]
    rcases hin.kind with hkind | hkind <;> (rw [hkind]; rfl)
  rw [mended, hin.drop_body, bind_isOk_iff]
  simp only [hwrapped, and_true]
  rw [← isOk_iff_exists, lastUse_isOk_iff]
  simp [lastHolder?_eq_none_iff]

/-- Does the codemod come to a file? It stops at the first one that is assigned to something else than a name. -/
inductive ComesTo (t : Task) (r : OpenedFile) : List OpenedFile → Prop
  | here {files : List OpenedFile} : t.ComesTo r (r :: files)
  | further {q : OpenedFile} {files : List OpenedFile} : t.usesOf? q ≠ .ok none → t.ComesTo r files → t.ComesTo r (q :: files)

lemma ComesTo.mem {r : OpenedFile} {files : List OpenedFile} (h : t.ComesTo r files) : r ∈ files := by
  induction h with
  | here => exact .head _
  | further _ _ ih => exact .tail _ ih

lemma forall_comesTo_cons {q : OpenedFile} {files : List OpenedFile} {P : OpenedFile → Prop} :
    (∀ r, t.ComesTo r (q :: files) → P r) ↔ P q ∧ (t.usesOf? q ≠ .ok none → ∀ r, t.ComesTo r files → P r) := by
  constructor
  · exact fun h => ⟨h q .here, fun hq r hr => h r (.further hq hr)⟩
  · rintro ⟨hself, hrest⟩ r (- | ⟨hq, hr⟩)
    · exact hself
    · exact hrest hq r hr

lemma fixes_isOk_iff {files : List OpenedFile} (hlines : ∀ r ∈ files, ∃ l, t.facts.line r.call = .ok l) :
    (t.fixes files).isOk = true ↔ ∀ r, t.ComesTo r files → (t.usesOf? r).isOk = true ∧
      ∀ uses, t.usesOf? r = .ok (some uses) → t.isLeaked r uses = true → (t.mended r uses).isOk = true := by
  induction files with
  | nil => exact iff_of_true rfl fun r hr => by cases hr
  | cons q files ih =>
    obtain ⟨⟨l, hl⟩, hlines⟩ := forall_mem_cons.1 hlines
    rw [forall_comesTo_cons, ← ih hlines, fixes, bind_isOk_iff, isOk_iff_exists]
    constructor
    · rintro ⟨uses?, huses, h⟩
      rw [huses]
      refine ⟨⟨⟨uses?, rfl⟩, ?_⟩, fun hne => ?_⟩
      · rintro uses ⟨⟩ hleaked
        dsimp only at h
        rw [hleaked] at h
        obtain ⟨line, -, h⟩ := bind_isOk_iff.1 h
        obtain ⟨block, hblock, -⟩ := bind_isOk_iff.1 h
        exact isOk_iff_exists.2 ⟨block, hblock⟩
      · cases uses? with
        | none => exact absurd rfl hne
        | some uses =>
          dsimp only at h
          split at h
          next => exact h
          next =>
            obtain ⟨line, -, h⟩ := bind_isOk_iff.1 h
            obtain ⟨block, -, h⟩ := bind_isOk_iff.1 h
            obtain ⟨fs, hfs, -⟩ := bind_isOk_iff.1 h
            exact isOk_iff_exists.2 ⟨fs, hfs⟩
    · rintro ⟨⟨⟨uses?, huses⟩, hmended⟩, hrest⟩
      refine ⟨uses?, huses, ?_⟩
      cases uses? with
      | none => rfl
      | some uses =>
        have hrest := hrest (by rw [huses]; exact fun h => by cases h)
        dsimp only
        split
        next => exact hrest
        next hleaked =>
          obtain ⟨block, hblock⟩ := isOk_iff_exists.1 (hmended uses huses (by simpa using hleaked))
          obtain ⟨fs, hfs⟩ := isOk_iff_exists.1 hrest
          exact bind_isOk_iff.2 ⟨l, hl, bind_isOk_iff.2 ⟨block, hblock, bind_isOk_iff.2 ⟨fs, hfs, rfl⟩⟩⟩

end Task

section

variable {source : String} (hread : Node.ofModule? source = some module) (hfacts : t.facts = .of module)
  {files : List OpenedFile} (hfiles : t.openedFiles = .ok files)
include hread hfacts hfiles

lemma search_isOk_iff {r : OpenedFile} (hr : r ∈ files) :
    (t.reachedNames r).isOk = true ↔ ∀ x ∈ targets r.assign, x.kind = .name → t.Ends x := by
  obtain ⟨before, line, behind, hin⟩ := exists_of_openedFiles hread hfacts hfiles r hr
  have hok : (t.reachedNames r).isOk = true ↔
      (((targets r.assign).filter (·.kind == .name)).mapM (t.reachedFrom (t.facts.nodes.size + 1))).isOk = true := by
    rw [Task.reachedNames, bind_isOk_iff, isOk_iff_exists]
    exact exists_congr fun _ => and_iff_left rfl
  rw [hok, mapM_isOk_iff]
  simp only [mem_filter, beq_iff_eq, and_imp]
  refine forall₃_congr fun x hx hkind => Task.reachedFrom_isOk_iff hfacts ?_
  exact Task.mem_nodes_of_mem_targets hin.mem_nodes hx hkind

lemma block_isOk_iff {r : OpenedFile} (hr : r ∈ files) (uses : List Node) : (t.mended r uses).isOk = true ↔
    ∀ n ∈ uses, ∃ s ∈ (r.block.list .body).drop (r.index + 1), t.facts.isUnder n s = true := by
  obtain ⟨before, line, behind, hin⟩ := exists_of_openedFiles hread hfacts hfiles r hr
  rw [hin.drop_body, Task.mended_isOk_iff hin]

/-- What is left is the search and the new block: lines are known, and blocks can always be put in. -/
lemma closeFiles_isOk_iff_fixes : t.closeFiles.isOk = true ↔
    t.facts.fault = none ∧ (files ≠ [] → t.skipLines = [] ∧ t.onlyLines = []) ∧ (t.fixes files).isOk = true := by
  rw [closeFiles_isOk_iff hfiles, isOk_iff_exists]
  refine and_congr_right fun _ => and_congr_right fun _ => exists_congr fun fixes => and_iff_left_of_imp fun hfixes => ?_
  have hself : t.module = module := by rw [Task.module, hfacts]; rfl
  have hnumbered := numbered_of_read hread
  have hwhole := whole_of_read hread
  rw [hself]
  exact isOk_iff_exists.2 ((tracks_module hnumbered).exists_applyAll hnumbered hwhole (inOrder_of_whole hwhole)
    (Task.isOf_of_fixes hfixes (exists_of_openedFiles hread hfacts hfiles)))

lemma exists_line_of_openedFiles {r : OpenedFile} (hr : r ∈ files) : ∃ l, t.facts.line r.call = .ok l := by
  obtain ⟨before, line, behind, hin⟩ := exists_of_openedFiles hread hfacts hfiles r hr
  obtain ⟨n, -, rfl, -⟩ := exists_whole hread
  have hcall : r.call ∈ n.numbered.nodes := by
    have hnode : r.call.kind.isFiller = false := by rw [hin.callKind]; rfl
    rw [hin.call] at hnode ⊢
    exact nodes_subset hin.mem_nodes ((nodes_get_sublist r.assign .value).subset (self_mem_nodes hnode))
  rw [hfacts]
  exact Facts.exists_line hcall

end

/-- **Where files can be closed.** The search for the names of a file succeeds just if all ways from name to name end, and a
name that gets its own value back is on a way without end. A new statement is made just if each use of the file is in a line
behind the one that opens it. The codemod returns a module just if scopes are known, the files are found, no lines are chosen,
and all files that it comes to are like that. -/
theorem closing_succeeds_iff {source : String} {module : Node} (hread : Node.ofModule? source = some module) {t : Task}
    (hfacts : t.facts = .of module) :
    (∀ files, t.openedFiles = .ok files → ∀ r ∈ files,
      ((t.reachedNames r).isOk = true ↔ ∀ x ∈ targets r.assign, x.kind = .name → t.Ends x) ∧
      ∀ uses, (t.mended r uses).isOk = true ↔
        ∀ n ∈ uses, ∃ s ∈ (r.block.list .body).drop (r.index + 1), t.facts.isUnder n s = true) ∧
    (t.closeFiles.isOk = true ↔ t.facts.fault = none ∧ ∃ files, t.openedFiles = .ok files ∧
      (files ≠ [] → t.skipLines = [] ∧ t.onlyLines = []) ∧
      ∀ r, t.ComesTo r files → (∀ x ∈ targets r.assign, x.kind = .name → t.Ends x) ∧
        ∀ uses, t.usesOf? r = .ok (some uses) → t.isLeaked r uses = true →
          ∀ n ∈ uses, ∃ s ∈ (r.block.list .body).drop (r.index + 1), t.facts.isUnder n s = true) ∧
    ∀ x, t.Ends x → ¬ TransGen t.HandsOn x x := by
  refine ⟨fun files hfiles r hr => ?_, ?_, fun x => Task.Ends.not_circle⟩
  · exact ⟨search_isOk_iff hread hfacts hfiles hr, block_isOk_iff hread hfacts hfiles hr⟩
  · have hrun {files : List OpenedFile} (hfiles : t.openedFiles = .ok files) :
        (t.fixes files).isOk = true ↔ ∀ r, t.ComesTo r files → (∀ x ∈ targets r.assign, x.kind = .name → t.Ends x) ∧
          ∀ uses, t.usesOf? r = .ok (some uses) → t.isLeaked r uses = true →
            ∀ n ∈ uses, ∃ s ∈ (r.block.list .body).drop (r.index + 1), t.facts.isUnder n s = true := by
      rw [Task.fixes_isOk_iff fun r hr => exists_line_of_openedFiles hread hfacts hfiles hr]
      refine forall₂_congr fun r hr => and_congr ?_ (forall₃_congr fun uses _ _ => ?_)
      · rw [Task.usesOf?_isOk_iff, search_isOk_iff hread hfacts hfiles hr.mem]
      · exact block_isOk_iff hread hfacts hfiles hr.mem uses
    constructor
    · intro h
      obtain ⟨r, hr⟩ := isOk_iff_exists.1 h
      obtain ⟨files, fixes, hfiles, -⟩ := exists_of_closeFiles hr
      obtain ⟨hfault, hlines, hfixes⟩ := (closeFiles_isOk_iff_fixes hread hfacts hfiles).1 h
      exact ⟨hfault, files, hfiles, hlines, (hrun hfiles).1 hfixes⟩
    · rintro ⟨hfault, files, hfiles, hlines, hfixes⟩
      exact (closeFiles_isOk_iff_fixes hread hfacts hfiles).2 ⟨hfault, hlines, (hrun hfiles).2 hfixes⟩

/-- A file whose name gets its own value. -/
def circle : String := "x = open('a')\nx = x\n"

def circleTask : Task := { facts := .of ((Node.ofModule? circle).getD .absent) }

lemma circle_run : (Node.ofModule? circle).isSome = true ∧ circleTask.closeFiles.isOk = false ∧
    (circleTask.openedFiles.toOption.map fun files => files.map fun r => (circleTask.reachedNames r).isOk) =
      some [false] := by
  decide +kernel

theorem circle_not_closed : circleTask.closeFiles.isOk = false ∧ ∃ files r, circleTask.openedFiles = .ok files ∧ r ∈ files ∧
    ∃ x ∈ targets r.assign, ¬ circleTask.Ends x := by
  obtain ⟨hread, hfails, hsearch⟩ := circle_run
  obtain ⟨module, hread, hfacts⟩ := Facts.exists_of_read hread (f := circleTask.facts) rfl
  obtain ⟨files, hfiles, hsearch⟩ := exists_of_toOption_map hsearch
  obtain ⟨r, rfl, hr⟩ := map_eq_singleton_iff.1 hsearch
  refine ⟨hfails, [r], r, hfiles, mem_singleton_self r, ?_⟩
  by_contra hends
  push Not at hends
  have hok := ((closing_succeeds_iff hread hfacts).1 [r] hfiles r (mem_singleton_self r)).1.2 fun x hx _ => hends x hx
  cases hr.symm.trans hok

end Mender.Codemod
