import Mender.Codemod.ResourceLeak
import Mender.Proofs.Edit.Standing
import Mender.Proofs.Scope.Parents

/-!
# Files to be closed

The codemod carries out one fix after the other (`exists_of_closeFiles`).

* `OpenedFile.IsIn` — where in a module a file is opened;
* `closeFiles_isOk_iff` — the codemod carries out one fix after the other.
-/

namespace Mender.Codemod

open Syntax Node Edit Scope List

variable {r : OpenedFile} {behind before : List Node} {rs : List OpenedFile} {line : Node}

/-! ## Opened files -/

structure OpenedFile.IsIn (module : Node) (r : OpenedFile) (before : List Node) (line : Node) (behind : List Node) : Prop where
  block : r.block ∈ standing module
  kind : r.block.kind = .module ∨ r.block.kind = .indentedBlock
  body : r.block.list .body = before ++ line :: behind
  index : before.length = r.index
  lineKind : line.kind = .simpleStatementLine
  lineBody : line.list .body = [r.assign]
  assign : r.assign.kind = .assign ∨ r.assign.kind = .annAssign
  call : r.call = r.assign.get .value
  callKind : r.call.kind = .call

lemma OpenedFile.IsIn.drop_body {module : Node} (h : r.IsIn module before line behind) :
    (r.block.list .body).drop (r.index + 1) = behind := by
  rw [h.body, ← h.index, drop_append]
  simp

lemma OpenedFile.IsIn.take_body {module : Node} (h : r.IsIn module before line behind) :
    (r.block.list .body).take r.index = before := by
  rw [h.body, ← h.index, take_left]

variable {t : Task} {module s out block : Node}

lemma OpenedFile.IsIn.block_mem (h : r.IsIn module before line behind) : r.block ∈ module.nodes :=
  mem_nodes_of_mem_standing h.block (by rcases h.kind with hkind | hkind <;> rw [hkind] <;> rfl)

lemma OpenedFile.IsIn.mem_nodes (h : r.IsIn module before line behind) : r.assign ∈ module.nodes := by
  have hline : line ∈ r.block.list .body := h.body ▸ mem_append_right _ (mem_cons_self ..)
  have hlist {n c : Node} (hc : c ∈ n.list .body) : c.nodes ⊆ n.nodes :=
    ((nodes_sublist_nodesOf hc).trans (nodesOf_list_sublist n .body)).subset
  refine nodes_subset h.block_mem (hlist hline (hlist (h.lineBody ▸ mem_singleton_self _) (self_mem_nodes ?_)))
  rcases h.assign with hkind | hkind <;> (rw [hkind]; rfl)

lemma kind_of_isOpen {n : Node} (h : t.isOpen n = .ok true) : n.kind = .call := by
  rw [Task.isOpen] at h
  split at h
  next => cases h
  next hkind => simpa using hkind

lemma exists_of_openAssign? (h : t.openAssign? line = .ok (some s)) :
    line.list .body = [s] ∧ (s.kind = .assign ∨ s.kind = .annAssign) ∧ (s.get .value).kind = .call := by
  rw [Task.openAssign?.eq_def] at h
  split at h
  next s' hbody =>
    split at h
    next hkind =>
      obtain ⟨isOpen, hopen, h⟩ := of_bind h
      split at h
      next hyes =>
        split at h
        next =>
          cases h
          exact ⟨hbody, by simpa using hkind, kind_of_isOpen (hyes ▸ hopen)⟩
        next => cases h
      next => cases h
    next => cases h
  next => cases h

section

variable {source : String} (hread : ofModule? source = some module) (hfacts : t.facts = .of module)
include hread hfacts

lemma exists_of_placeOf {block : Node} {index : Nat} (hline : line ∈ standing module)
    (hkind : line.kind = .simpleStatementLine) (h : t.placeOf line = .ok (block, index)) :
    block ∈ standing module ∧ (block.kind = .module ∨ block.kind = .indentedBlock) ∧
      ∃ before behind, block.list .body = before ++ line :: behind ∧ before.length = index := by
  have hnumbered := numbered_of_read hread
  have hcounted := Facts.counted_of_read hread
  have hmem : line ∈ module.nodes := mem_nodes_of_mem_standing hline (by rw [hkind]; rfl)
  rw [Task.placeOf] at h
  split at h
  next => cases h
  next block' hparent =>
    split at h
    next => cases h
    next hblock =>
      split at h
      next => cases h
      next index' hindex =>
        cases h
        rw [hfacts] at hparent
        have hblockKind : block.kind = .module ∨ block.kind = .indentedBlock := by simpa [or_iff_not_imp_left] using hblock
        obtain ⟨hblockMem, -⟩ := (Facts.parent?_eq_some_iff hcounted hmem).1 hparent
        refine ⟨?_, hblockKind, ?_⟩
        · rcases mem_framed_of_mem_standing hline with rfl | ⟨b, hb, hframed⟩
          · rw [(isModule_of_read hread).kind] at hkind
            cases hkind
          · have hb' := mem_nodes_of_mem_standing hb (isFiller_of_mem_framed hframed)
            have hchild := Facts.mem_children_of_visited ((framed_sublist b).subset hframed) (by rw [hkind]; rfl)
            have hother := (Facts.parent?_eq_some_iff hcounted hmem).2 ⟨hb', hchild⟩
            cases hparent.symm.trans hother
            exact hb
        · obtain ⟨hlt, hidentical, -⟩ := findIdx?_eq_some_iff_getElem.1 hindex
          have hself := hnumbered.mem_nodes_of_mem_list hblockMem (getElem_mem hlt) (mark_of_identical hidentical).1
          refine ⟨(block.list .body).take index, (block.list .body).drop (index + 1), ?_, ?_⟩
          · rw [← hnumbered.eq_of_identical hself hmem hidentical, ← drop_eq_getElem_cons hlt, take_append_drop]
          · rw [length_take, Nat.min_eq_left hlt.le]

lemma exists_of_openedFile? (hline : line ∈ standing module) (h : t.openedFile? line = .ok (some r)) :
    ∃ before behind, r.IsIn module before line behind := by
  rw [Task.openedFile?] at h
  split at h
  next => cases h
  next hkind =>
    rw [bne_iff_ne, not_not] at hkind
    obtain ⟨⟨block, index⟩, hplace, h⟩ := of_bind h
    obtain ⟨hblock, hblockKind, before, behind, hbody, hindex⟩ := exists_of_placeOf hread hfacts hline hkind hplace
    dsimp only at h
    split at h
    next => cases h
    next =>
      obtain ⟨s?, hassign, h⟩ := of_bind h
      cases s? with
      | none => cases h
      | some s =>
        cases h
        obtain ⟨hlineBody, hkind', hcall⟩ := exists_of_openAssign? hassign
        exact ⟨before, behind, hblock, hblockKind, hbody, hindex, hkind, hlineBody, hkind', rfl, hcall⟩

lemma exists_of_openedFiles (h : t.openedFiles = .ok rs) :
    ∀ r ∈ rs, ∃ before line behind, r.IsIn module before line behind := by
  obtain ⟨found, hfound, h⟩ := of_bind h
  cases h
  intro r hr
  obtain ⟨r?, hr?, rfl⟩ := mem_filterMap.1 hr
  obtain ⟨line, hline, hopened⟩ := exists_of_mem_mapM hfound hr?
  have hself : t.module = module := by rw [Task.module, hfacts]; rfl
  rw [hself] at hline
  obtain ⟨before, behind, hin⟩ := exists_of_openedFile? hread hfacts hline hopened
  exact ⟨before, line, behind, hin⟩

end

/-! ## The new block -/

def newBlock (inside : List Node) : Node := Node.make .indentedBlock [(.body, Node.seq inside)]

def newStatement (items inside : List Node) : Node :=
  Node.make .withStatement [(.items, Node.seq items), (.body, newBlock inside)]

def upTo (index : Nat) (last : Option Nat) (behind : List Node) : List Node :=
  match last with
  | some l => behind.take (l - index)
  | none => behind

lemma exists_of_wrapped {last : Option Nat} (hin : r.IsIn module before line behind) (h : wrapped r last = .ok block) :
    ∃ inside after, behind = inside ++ after ∧
      block = r.block.setList .body (before ++ newStatement (openItems r.assign r.call) inside :: after) ∧
      inside = upTo r.index last behind := by
  obtain rfl := eq_of_sound h
  cases last with
  | none =>
    refine ⟨behind, [], (append_nil _).symm, ?_, rfl⟩
    simp only [hin.take_body, hin.drop_body, append_assoc, singleton_append]
    rfl
  | some l =>
    refine ⟨behind.take (l - r.index), behind.drop (l - r.index), (take_append_drop ..).symm, ?_, rfl⟩
    simp only [hin.take_body, hin.drop_body, append_assoc, singleton_append]
    rfl

/-- A file that leaks, the line it is reported on, and the new block. -/
structure Fix where
  file : OpenedFile
  line : Nat
  block : Node

variable {f : Fix}

/-- What the new `with` statement opens. -/
def Fix.items (f : Fix) : List Node := (openItems f.file.assign f.file.call).map cleared

/-- The fix is one for a file of the module: what stands in front of the line, the line, what goes into the new statement and
what stays behind it. -/
structure Fix.IsOf (module : Node) (f : Fix) (before : List Node) (line : Node) (inside after : List Node) : Prop where
  isIn : f.file.IsIn module before line (inside ++ after)
  block : f.block = f.file.block.setList .body (before ++ newStatement (openItems f.file.assign f.file.call) inside :: after)

namespace Fix.IsOf

variable {inside after : List Node} (h : f.IsOf module before line inside after)
include h

lemma isBlock : isBlock f.file.block.kind = true := by
  rcases h.isIn.kind with hkind | hkind <;> rw [hkind] <;> rfl

lemma kind_eq : f.block.kind = f.file.block.kind := by
  rw [h.block, setList, kind_set]

lemma mark_eq : f.block.mark = none := by
  rw [h.block, setList, mark_set]

lemma isSpentLine_eq : f.block.isSpentLine = f.file.block.isSpentLine := by
  rw [isSpentLine, isSpentLine, h.kind_eq]
  rcases h.isIn.kind with hkind | hkind <;> rw [hkind] <;> rfl

lemma isRun : (f.file.block.get .body).kind = .seq := by
  refine kind_of_mem_items (c := line) ?_
  rw [← list, h.isIn.body]
  simp

lemma list_body : f.block.list .body = before ++ newStatement (openItems f.file.assign f.file.call) inside :: after := by
  rw [h.block, list_setList h.isRun]

end Fix.IsOf

def Fix.apply (f : Fix) (n : Node) : Except Fault Node :=
  Edit.replaceAll [(f.file.block.mark.getD 0, .whole (.keep f.block))] n

/-! ## The codemod -/

namespace Task

/-- The fixes for some files, as far as the names that a file goes by can be followed. -/
def fixes (t : Task) : List OpenedFile → Except Fault (List Fix)
  | [] => .ok []
  | r :: rest => do
    match ← t.usesOf? r with
    | none => return []
    | some uses =>
      if ! t.isLeaked r uses then t.fixes rest
      else
        let line ← t.facts.line r.call
        let block ← t.mended r uses
        return ⟨r, line, block⟩ :: (← t.fixes rest)

/-- One change for each fix. -/
def changesFor (t : Task) (fs : List Fix) : List Change := fs.map fun f => Change.at f.line t.changeText

lemma exists_of_wrapFiles {n out : Node} {s s' : Notes} (h : (t.wrapFiles rs n).run s = .ok (out, s')) :
    ∃ fs, t.fixes rs = .ok fs ∧ fs.foldlM (fun n f => f.apply n) n = .ok out ∧
      s'.changes = s.changes ++ t.changesFor fs := by
  induction rs generalizing n s with
  | nil =>
    cases h
    exact ⟨[], rfl, rfl, (append_nil _).symm⟩
  | cons r rs ih =>
    obtain ⟨uses?, huses, h⟩ := of_lift_bind h
    cases uses? with
    | none =>
      cases h
      refine ⟨[], ?_, rfl, (append_nil _).symm⟩
      rw [fixes, huses]
      rfl
    | some uses =>
      dsimp only at h
      split at h
      next hleaked =>
        obtain ⟨fs, hfs, hout, hchanges⟩ := ih h
        refine ⟨fs, ?_, hout, hchanges⟩
        rw [fixes, huses]
        exact (if_pos hleaked).trans hfs
      next hleaked =>
        obtain ⟨_, s₁, hreport, h⟩ := of_run_bind h
        obtain ⟨block, hblock, h⟩ := of_lift_bind h
        obtain ⟨n', hn', h⟩ := of_lift_bind h
        obtain ⟨fs, hfs, hout, hchanges⟩ := ih h
        obtain ⟨line, hline, hreport⟩ := of_lift_bind hreport
        cases hreport
        refine ⟨⟨r, line, block⟩ :: fs, ?_, ?_, ?_⟩
        · rw [fixes, huses]
          refine (if_neg hleaked).trans ?_
          rw [hline, hblock, hfs]
          rfl
        · rw [foldlM_cons, Fix.apply, hn']
          exact hout
        · rw [hchanges, append_assoc]
          rfl

lemma exists_wrapFiles {n out : Node} {s : Notes} {fs : List Fix} (hfs : t.fixes rs = .ok fs)
    (hout : fs.foldlM (fun n f => f.apply n) n = .ok out) : ∃ s', (t.wrapFiles rs n).run s = .ok (out, s') := by
  induction rs generalizing n s fs with
  | nil =>
    cases hfs
    cases hout
    exact ⟨s, rfl⟩
  | cons r rs ih =>
    obtain ⟨uses?, huses, hfs⟩ := of_bind hfs
    rw [wrapFiles, run_lift_bind huses]
    cases uses? with
    | none =>
      cases hfs
      cases hout
      exact ⟨s, rfl⟩
    | some uses =>
      dsimp only at hfs ⊢
      split at hfs
      next hleaked =>
        rw [if_pos hleaked]
        exact ih hfs hout
      next hleaked =>
        obtain ⟨line, hline, hfs⟩ := of_bind hfs
        obtain ⟨block, hblock, hfs⟩ := of_bind hfs
        obtain ⟨fs', hfs', h⟩ := of_bind hfs
        cases h
        rw [foldlM_cons] at hout
        obtain ⟨n', hn', hout⟩ := of_bind hout
        rw [Fix.apply] at hn'
        rw [if_neg hleaked, report, bind_assoc, run_lift_bind hline, run_bind_of rfl, run_lift_bind hblock,
          run_lift_bind hn']
        exact ih hfs' hout

lemma exists_of_mem_fixes {fs : List Fix} (h : t.fixes rs = .ok fs) (hf : f ∈ fs) :
    f.file ∈ rs ∧ ∃ uses, t.usesOf? f.file = .ok (some uses) ∧ t.isLeaked f.file uses = true ∧
      t.mended f.file uses = .ok f.block := by
  induction rs generalizing fs with
  | nil =>
    cases h
    cases hf
  | cons r rs ih =>
    obtain ⟨uses?, huses, h⟩ := of_bind h
    cases uses? with
    | none =>
      cases h
      cases hf
    | some uses =>
      dsimp only at h
      split at h
      next =>
        obtain ⟨hfile, hrest⟩ := ih h hf
        exact ⟨mem_cons_of_mem _ hfile, hrest⟩
      next hleaked =>
        obtain ⟨number, -, h⟩ := of_bind h
        obtain ⟨block, hblock, h⟩ := of_bind h
        obtain ⟨fs', hfs', h⟩ := of_bind h
        cases h
        rcases mem_cons.1 hf with rfl | hf
        · exact ⟨mem_cons_self .., uses, huses, by simpa using hleaked, hblock⟩
        · obtain ⟨hfile, hrest⟩ := ih hfs' hf
          exact ⟨mem_cons_of_mem _ hfile, hrest⟩

lemma exists_of_mended {uses : List Node} (hin : f.file.IsIn module before line behind)
    (h : t.mended f.file uses = .ok f.block) :
    ∃ inside after last, f.IsOf module before line inside after ∧ behind = inside ++ after ∧
      lastUse f.file.index (uses.map fun n => t.lastHolder? n behind) = .ok last ∧
      inside = upTo f.file.index last behind := by
  rw [mended, hin.drop_body] at h
  obtain ⟨last, hlast, h⟩ := of_bind h
  obtain ⟨inside, after, rfl, hnew, hinside⟩ := exists_of_wrapped hin h
  exact ⟨inside, after, last, ⟨hin, hnew⟩, rfl, hlast, hinside⟩

lemma isOf_of_fixes {fs : List Fix} (h : t.fixes rs = .ok fs)
    (hrs : ∀ r ∈ rs, ∃ before line behind, r.IsIn module before line behind) :
    ∀ f ∈ fs, ∃ before line inside after, f.IsOf module before line inside after := by
  intro f hf
  obtain ⟨hfile, uses, -, -, hmended⟩ := exists_of_mem_fixes h hf
  obtain ⟨before, line, behind, hin⟩ := hrs f.file hfile
  obtain ⟨inside, after, -, hof, -⟩ := exists_of_mended hin hmended
  exact ⟨before, line, inside, after, hof⟩

end Task

lemma exists_of_closeFiles {notes : Notes} (h : t.closeFiles = .ok (out, notes)) :
    ∃ files fixes, t.openedFiles = .ok files ∧ t.fixes files = .ok fixes ∧ notes.changes = t.changesFor fixes ∧
      fixes.foldlM (fun n f => f.apply n) t.module = .ok out ∧ (files ≠ [] → t.skipLines = [] ∧ t.onlyLines = []) := by
  rw [Task.closeFiles, Task.withScopes] at h
  split at h
  next => cases h
  next =>
    obtain ⟨files, hfiles, h⟩ := of_bind h
    split at h
    next => cases h
    next hfilter =>
      obtain ⟨fixes, hfixes, hout, hchanges⟩ := Task.exists_of_wrapFiles h
      refine ⟨files, fixes, hfiles, hfixes, hchanges, hout, fun hne => ?_⟩
      have hnone : files.isEmpty = false := by cases files <;> simp_all
      rw [hnone] at hfilter
      simpa using hfilter

lemma closeFiles_isOk_iff {files : List OpenedFile} (hfiles : t.openedFiles = .ok files) : t.closeFiles.isOk = true ↔
    t.facts.fault = none ∧ (files ≠ [] → t.skipLines = [] ∧ t.onlyLines = []) ∧
      ∃ fixes : List Fix, t.fixes files = .ok fixes ∧ (fixes.foldlM (fun n (f : Fix) => f.apply n) t.module).isOk = true := by
  constructor
  · intro h
    obtain ⟨⟨out, notes⟩, h⟩ := isOk_iff_exists.1 h
    obtain ⟨files', fixes, hfiles', hfixes, -, hout, hlines⟩ := exists_of_closeFiles h
    cases hfiles.symm.trans hfiles'
    refine ⟨?_, hlines, fixes, hfixes, isOk_iff_exists.2 ⟨out, hout⟩⟩
    rw [Task.closeFiles, Task.withScopes] at h
    split at h
    next => cases h
    next hfault => exact hfault
  · rintro ⟨hfault, hlines, fixes, hfixes, hout⟩
    obtain ⟨out, hout⟩ := isOk_iff_exists.1 hout
    obtain ⟨notes, hrun⟩ := Task.exists_wrapFiles hfixes hout (s := {})
    refine isOk_iff_exists.2 ⟨(out, notes), ?_⟩
    rw [Task.closeFiles, Task.withScopes, hfault]
    dsimp only
    rw [hfiles]
    change (if _ then _ else _ : Except Fault _) = _
    rw [if_neg, hrun]
    cases files with
    | nil => simp
    | cons r rs => simp [hlines (cons_ne_nil _ _)]

end Mender.Codemod
