import Mender.Codemod.Imports
import Mender.Proofs.Import.Order
import Mender.Proofs.Scope.Parents

/-!
# What becomes of imports

The codemod that orders imports goes through the blocks that begin on a line it may mend.

* `imports_ordered_iff` — when the codemod succeeds, and what it makes of the blocks;
* `changes_told_iff` — when it tells what it changed.
-/

namespace Mender.Codemod

open Syntax Node Import Scope List Option Codemod.Task

namespace Task

variable {n : Node} {t : Task}

/-- The section that a module is imported under. -/
def placing (t : Task) : String → Section := Section.ofModule t.files t.dir

/-- May a block be put in order, by the line that it begins on? -/
def chooses (t : Task) (block : List Node) : Bool := (t.allows (block.headD .absent)).toOption.getD false

/-- The blocks that are put in order. -/
def chosen (t : Task) : List (List Node) := (blocks t.module).filter t.chooses

lemma module_eq (h : t.facts = .of n) : t.module = n := congrArg Facts.module h

lemma head_mem_nodes {b : List Node} (hb : b ∈ blocks n.numbered) : b.headD .absent ∈ n.numbered.nodes := by
  obtain ⟨line, rest, rfl⟩ := exists_cons_of_ne_nil (ne_nil_of_mem_runs hb)
  have hline := mem_of_mem_runs hb (.head _)
  exact mem_nodes_of_line hline.1 hline.2

lemma allowedBlocks_eq (hfacts : t.facts = .of n.numbered) : t.allowedBlocks = .ok t.chosen := by
  refine filterM_of_forall fun b hb => ?_
  rw [module_eq hfacts] at hb
  obtain ⟨s, hs⟩ := Facts.exists_span (head_mem_nodes hb)
  have hallows : t.allows (b.headD .absent) = .ok (t.allowsSpan s) := by
    rw [allows, hfacts, hs]
    rfl
  rw [chooses, hallows]
  rfl

lemma chosen_subset (hfacts : t.facts = .of n.numbered) : ∀ b ∈ t.chosen, b ∈ blocks n.numbered := by
  rw [← module_eq hfacts]
  exact fun b hb => mem_of_mem_filter hb

/-- What the codemod is to make of a block: those that it may mend are put in order and ask for what they asked for
before, each thing once; the others stay. -/
def BecomesMended (t : Task) (b b' : List Node) : Prop :=
  if t.chooses b then anchored t.placing b = .ok b' ∧ AsksOnce b' (b.flatMap requests) else b'.map cleared = b.map cleared

lemma orderImports_eq (hfacts : t.facts = .of n.numbered) : t.orderImports =
    if t.chosen.isEmpty then .ok (n.numbered, {}) else do
      let (module, changed) ← orderBlocks t.placing t.chosen n.numbered
      let moved := ((blocks n.numbered).zip changed).filter (·.2)
      let lines ← moved.mapM fun (b, _) => t.facts.line (b.headD .absent)
      return (module, { changes := lines.map fun l => Change.at l t.changeText }) := by
  rw [orderImports, allowedBlocks_eq hfacts, module_eq hfacts]
  rfl

/-- The blocks among the first that are in the places of those of the second that become others. -/
def movedAmong (as bs os : List (List Node)) : List (List Node) :=
  ((as.zip ((bs.zip os).map fun (b, o) => isReordered b o)).filter (·.2)).map (·.1)

def reported (t : Task) (os : List (List Node)) : List (List Node) := movedAmong (blocks t.module) t.chosen os

lemma exists_lines (hfacts : t.facts = .of n.numbered) (os : List (List Node)) :
    ∃ lines, Forall₂ (fun b l => t.facts.line (b.headD .absent) = .ok l) (t.reported os) lines := by
  simp only [← mapM_eq_ok_iff]
  refine isOk_iff_exists.1 (mapM_isOk_iff.2 fun b hb => ?_)
  obtain ⟨e, he, rfl⟩ := mem_map.1 hb
  have hmem := (of_mem_zip (mem_of_mem_filter he)).1
  rw [module, hfacts] at hmem
  rw [isOk_iff_exists, hfacts]
  exact Facts.exists_line (head_mem_nodes hmem)

lemma becomesMended_of_ordered {b b' : List Node} (hb : b ∈ blocks t.module)
    (h : BecomesOrdered t.placing t.chosen b b') : t.BecomesMended b b' := by
  rw [BecomesMended]
  split
  next hchosen =>
    have ho := h.1 (mem_filter.2 ⟨hb, hchosen⟩)
    exact ⟨ho, asksOnce_of_anchored ho⟩
  next hchosen => exact h.2 fun hmem => hchosen (of_mem_filter hmem)

section

variable (hmodule : IsModule n.numbered) (hwhole : Whole n.numbered) (hfacts : t.facts = .of n.numbered)
include hmodule hwhole hfacts

lemma exists_orderImports {os : List (List Node)} (hos : Forall₂ (fun b o => anchored t.placing b = .ok o) t.chosen os) :
    ∃ out lines, t.orderImports = .ok (out, { changes := lines.map fun l => Change.at l t.changeText }) ∧
      Forall₂ (fun b l => t.facts.line (b.headD .absent) = .ok l) (t.reported os) lines ∧
      Reordered t.BecomesMended (n.numbered.list .body) (out.list .body) ∧
      (out.setList .body []).cleared = (n.numbered.setList .body []).cleared := by
  have hself := module_eq hfacts
  obtain ⟨lines, hlines⟩ := exists_lines hfacts os
  rw [orderImports_eq hfacts]
  split
  next hempty =>
    rw [List.isEmpty_iff] at hempty
    refine ⟨n.numbered, [], rfl, ?_, .refl fun b hb => ?_, rfl⟩
    · simp [reported, movedAmong, hempty]
    · refine becomesMended_of_ordered (hself ▸ hb) ⟨fun h => ?_, fun _ => rfl⟩
      rw [hempty] at h
      cases h
  next =>
    obtain ⟨out, hout, hreordered, hsame⟩ := exists_orderBlocks hmodule hwhole (chosen_subset hfacts) hos
    refine ⟨out, lines, ?_, hlines, hreordered.mono fun b b' hb => becomesMended_of_ordered (hself ▸ hb), hsame⟩
    have hreported := mapM_eq_ok_iff.2 hlines
    rw [reported, movedAmong, List.mapM_map, hself] at hreported
    rw [hout]
    let report (lines : List Nat) : Notes := { changes := lines.map fun l => Change.at l t.changeText }
    exact congrArg (· >>= fun lines => pure (out, report lines)) hreported

omit hmodule hwhole in
lemma exists_ordered {r : Node × Notes} (h : t.orderImports = .ok r) :
    ∃ os, Forall₂ (fun b o => anchored t.placing b = .ok o) t.chosen os := by
  rw [orderImports_eq hfacts] at h
  split at h
  next hempty =>
    rw [List.isEmpty_iff] at hempty
    exact ⟨[], by rw [hempty]; exact .nil⟩
  next =>
    obtain ⟨_, h, -⟩ := of_bind h
    obtain ⟨os, hos, -⟩ := of_bind h
    exact ⟨os, mapM_eq_ok_iff.1 hos⟩

omit hmodule in
lemma exists_ordered_iff : (∃ os, Forall₂ (fun b o => anchored t.placing b = .ok o) t.chosen os) ↔
    ∀ b ∈ t.chosen, Orderable t.placing (b.flatMap requests) := by
  simp only [← mapM_eq_ok_iff, ← isOk_iff_exists, mapM_isOk_iff]
  refine forall₂_congr fun b hb => ?_
  have hmem := chosen_subset hfacts b hb
  exact anchored_isOk_iff (ne_nil_of_mem_runs hmem) (requests_of_mem_blocks hwhole hmem)

end

end Task

/-- **The codemod orders blocks of imports and nothing else, if it gives a result at all.** It does so exactly if in each
block that it may mend the modules of one section can be compared with each other, and so can the names from one
module. -/
theorem imports_ordered_iff {source : String} {module : Node} (hread : Node.ofModule? source = some module) {t : Task}
    (hfacts : t.facts = .of module) :
    (∃ out notes, t.orderImports = .ok (out, notes) ∧ Reordered t.BecomesMended (module.list .body) (out.list .body) ∧
      (out.setList .body []).cleared = (module.setList .body []).cleared) ↔
    ∀ b ∈ blocks module, t.chooses b = true → Orderable t.placing (b.flatMap requests) := by
  have hmodule := isModule_of_read hread
  have hwhole := whole_of_read hread
  obtain ⟨n, rfl⟩ := Node.exists_numbered hread
  have hchosen : (∀ b ∈ blocks n.numbered, t.chooses b = true → Orderable t.placing (b.flatMap requests)) ↔
      ∀ b ∈ t.chosen, Orderable t.placing (b.flatMap requests) := by
    simp only [chosen, mem_filter, and_imp, module, hfacts, Facts.of]
  rw [hchosen, ← exists_ordered_iff hwhole hfacts]
  constructor
  · rintro ⟨out, notes, hrun, -⟩
    exact exists_ordered hfacts hrun
  · rintro ⟨os, hos⟩
    obtain ⟨out, lines, hrun, -, hreordered, hsame⟩ := exists_orderImports hmodule hwhole hfacts hos
    exact ⟨out, _, hrun, hreordered, hsame⟩

/-- An import of two names, a digit of another script in the one where the other goes on with a letter. -/
def mixedDigits : String := "from m import a1\u0663, a1b\n"

def mixedDigitsTask : Task := { facts := .of ((Node.ofModule? mixedDigits).getD .absent) }

lemma mixedDigits_run : (Node.ofModule? mixedDigits).isSome = true ∧
    (blocks mixedDigitsTask.module).all mixedDigitsTask.chooses = true ∧ mixedDigitsTask.orderImports.isOk = false := by
  decide +kernel

/-- The names of this import cannot be compared, and the codemod gives no result. -/
theorem mixedDigits_not_ordered : mixedDigitsTask.orderImports.isOk = false ∧
    ∃ b ∈ blocks mixedDigitsTask.module, ¬ Orderable mixedDigitsTask.placing (b.flatMap requests) := by
  obtain ⟨hread, -, hrun⟩ := mixedDigits_run
  obtain ⟨module, hread, hfacts⟩ := Facts.exists_of_read hread (f := mixedDigitsTask.facts) rfl
  refine ⟨hrun, ?_⟩
  by_contra hall
  push Not at hall
  rw [Task.module, hfacts] at hall
  obtain ⟨out, notes, hout, -⟩ := (imports_ordered_iff hread hfacts).2 fun b hb _ => hall b hb
  rw [hout] at hrun
  cases hrun

/-! ## The report -/

/-- A report about these blocks: one change for each block that becomes another, at the line where the block begins. -/
inductive Task.Told (t : Task) : List (List Node) → List Change → Prop
  | nil : t.Told [] []
  | same {b o : List Node} {bs : List (List Node)} {cs : List Change} : anchored t.placing b = .ok o →
      o.map cleared = b.map cleared → t.Told bs cs → t.Told (b :: bs) cs
  | moved {b o : List Node} {bs : List (List Node)} {cs : List Change} {l : Nat} : anchored t.placing b = .ok o →
      o.map cleared ≠ b.map cleared → t.facts.line (b.headD .absent) = .ok l → t.Told bs cs →
      t.Told (b :: bs) (Change.at l t.changeText :: cs)

/-- Blocks are compared line by line, as far as both go. -/
lemma isReordered_eq_false_iff {b o : List Node} : isReordered b o = false ↔
    o.map cleared <+: b.map cleared ∨ b.map cleared <+: o.map cleared := by
  rw [isReordered, Bool.not_eq_false']
  induction b generalizing o with
  | nil => simp
  | cons x xs ih =>
    cases o with
    | nil => simp
    | cons y ys =>
      rw [zip_cons_cons, all_cons, Bool.and_eq_true, ih, same_iff, map_cons, map_cons,
        cons_prefix_cons, cons_prefix_cons, eq_comm (a := y.cleared), ← and_or_left]

lemma Change.line_inj {l l' : Nat} {text : String} (h : Change.at l text = Change.at l' text) : l = l' := by
  cases h
  rfl

namespace Task

variable {t : Task} {as bs os : List (List Node)} {a b o : List Node} {cs : List Change} {lines : List Nat}

/-- If a block changes, can that be seen by comparing as far as both go, and is the change told with the right line? -/
def Shows (t : Task) (a b : List Node) : Prop := ∀ o, anchored t.placing b = .ok o → o.map cleared ≠ b.map cleared →
  (¬ o.map cleared <+: b.map cleared ∧ ¬ b.map cleared <+: o.map cleared) ∧
    t.facts.line (a.headD .absent) = t.facts.line (b.headD .absent)

lemma movedAmong_cons : movedAmong (a :: as) (b :: bs) (o :: os) =
    (if isReordered b o then [a] else []) ++ movedAmong as bs os := by
  rw [movedAmong, zip_cons_cons, map_cons, zip_cons_cons, filter_cons]
  show map _ (if isReordered b o = true then _ else _) = _
  cases isReordered b o <;> rfl

lemma isReordered_of_same (h : o.map cleared = b.map cleared) : isReordered b o = false :=
  isReordered_eq_false_iff.2 (.inl (h ▸ prefix_refl _))

lemma told_cons_same (ho : anchored t.placing b = .ok o) (hsame : o.map cleared = b.map cleared) :
    t.Told (b :: bs) cs ↔ t.Told bs cs := by
  refine ⟨fun h => ?_, .same ho hsame⟩
  cases h with
  | same _ _ h => exact h
  | moved ho' hmoved =>
    cases ho.symm.trans ho'
    exact absurd hsame hmoved

lemma told_cons_moved (ho : anchored t.placing b = .ok o) (hmoved : o.map cleared ≠ b.map cleared) : t.Told (b :: bs) cs ↔
      ∃ l cs', cs = Change.at l t.changeText :: cs' ∧ t.facts.line (b.headD .absent) = .ok l ∧ t.Told bs cs' := by
  constructor
  · intro h
    cases h with
    | same ho' hsame =>
      cases ho.symm.trans ho'
      exact absurd hsame hmoved
    | moved _ _ hl h => exact ⟨_, _, rfl, hl, h⟩
  · rintro ⟨l, cs', rfl, hl, h⟩
    exact .moved ho hmoved hl h

lemma length_movedAmong_le (as : List (List Node)) (hos : Forall₂ (fun b o => anchored t.placing b = .ok o) bs os)
    (h : t.Told bs cs) : (movedAmong as bs os).length ≤ cs.length := by
  induction h generalizing as os with
  | nil =>
    cases hos
    simp [movedAmong]
  | same ho hsame _ ih =>
    obtain _ | ⟨ho', hos⟩ := hos
    cases ho.symm.trans ho'
    cases as with
    | nil => simp [movedAmong]
    | cons a as =>
      rw [movedAmong_cons, isReordered_of_same hsame]
      exact ih as hos
  | moved ho hmoved hl _ ih =>
    obtain _ | ⟨ho', hos⟩ := hos
    cases as with
    | nil => simp [movedAmong]
    | cons a as =>
      rw [movedAmong_cons, length_append, length_cons, Nat.add_comm]
      refine Nat.add_le_add (ih as hos) ?_
      split <;> simp

lemma told_iff (hos : Forall₂ (fun b o => anchored t.placing b = .ok o) bs os) (hlength : bs.length ≤ as.length)
    (hlines : Forall₂ (fun b l => t.facts.line (b.headD .absent) = .ok l) (movedAmong as bs os) lines) :
    t.Told bs (lines.map fun l => Change.at l t.changeText) ↔ ∀ a b, (a, b) ∈ as.zip bs → t.Shows a b := by
  induction hos generalizing as lines with
  | nil =>
    simp only [movedAmong, zip_nil_right, map_nil, filter_nil] at hlines
    cases hlines
    exact iff_of_true .nil fun _ _ h => by simp at h
  | @cons b o bs os ho hos ih =>
    cases as with
    | nil => cases hlength
    | cons a as =>
      have hcons : (∀ a' b', (a', b') ∈ (a :: as).zip (b :: bs) → t.Shows a' b') ↔
          t.Shows a b ∧ ∀ a' b', (a', b') ∈ as.zip bs → t.Shows a' b' := by
        simp only [zip_cons_cons, ← Prod.forall', forall_mem_cons]
      rw [movedAmong_cons] at hlines
      rw [hcons]
      have hlength : bs.length ≤ as.length := Nat.le_of_succ_le_succ hlength
      by_cases hsame : o.map cleared = b.map cleared
      · rw [isReordered_of_same hsame] at hlines
        rw [told_cons_same ho hsame, ih hlength hlines]
        refine (and_iff_right fun o' ho' hmoved => ?_).symm
        cases ho.symm.trans ho'
        exact absurd hsame hmoved
      · rw [told_cons_moved ho hsame]
        cases hreordered : isReordered b o with
        | false =>
          -- one change is missing, and there is none to make up for it
          rw [hreordered] at hlines
          refine iff_of_false ?_ fun hshows => ?_
          · rintro ⟨l, cs', hcs, -, htold⟩
            have hle := length_movedAmong_le as hos htold
            have hlength' : (movedAmong as bs os).length = cs'.length + 1 :=
              hlines.length_eq.trans (by simpa using congrArg length hcs)
            omega
          · have hprefix := (hshows.1 o ho hsame).1
            exact (isReordered_eq_false_iff.1 hreordered).elim hprefix.1 hprefix.2
        | true =>
          rw [hreordered] at hlines
          obtain _ | ⟨hl, hlines⟩ := hlines
          rw [← ih hlength hlines]
          constructor
          · rintro ⟨l', cs', hcs, hl', htold⟩
            obtain ⟨hchange, rfl⟩ := cons_eq_cons.1 hcs
            obtain rfl := Change.line_inj hchange
            refine ⟨fun o' ho' _ => ⟨?_, hl.trans hl'.symm⟩, htold⟩
            cases ho.symm.trans ho'
            rw [← not_or, ← isReordered_eq_false_iff, hreordered]
            exact nofun
          · rintro ⟨hshows, htold⟩
            exact ⟨_, _, rfl, (hshows o ho hsame).2.symm.trans hl, htold⟩

end Task

/-- **The report says what was done, if each change shows in it.** There is one change in the report for each block that
was put into another order, at its line, exactly if no such block is only made shorter or longer at its end, and none is
mistaken for another: when blocks are left out, the places of the others are still counted among all blocks. -/
theorem changes_told_iff {source : String} {module : Node} (hread : Node.ofModule? source = some module) {t : Task}
    (hfacts : t.facts = .of module) :
    (∃ out notes, t.orderImports = .ok (out, notes) ∧ t.Told t.chosen notes.changes) ↔
      (∀ b ∈ t.chosen, Orderable t.placing (b.flatMap requests)) ∧
        ∀ a b, (a, b) ∈ (blocks module).zip t.chosen → t.Shows a b := by
  have hmodule := isModule_of_read hread
  have hwhole := whole_of_read hread
  obtain ⟨n, rfl⟩ := Node.exists_numbered hread
  have hself : t.module = n.numbered := by rw [module, hfacts]; rfl
  have hlength : t.chosen.length ≤ (blocks n.numbered).length := by
    rw [chosen, hself]
    exact length_filter_le ..
  rw [← exists_ordered_iff hwhole hfacts]
  constructor
  · rintro ⟨out, notes, hrun, htold⟩
    obtain ⟨os, hos⟩ := exists_ordered hfacts hrun
    obtain ⟨out', lines, hrun', hlines, -⟩ := exists_orderImports hmodule hwhole hfacts hos
    cases hrun.symm.trans hrun'
    rw [reported, hself] at hlines
    exact ⟨⟨os, hos⟩, (told_iff hos hlength hlines).1 htold⟩
  · rintro ⟨⟨os, hos⟩, hshows⟩
    obtain ⟨out, lines, hrun, hlines, -⟩ := exists_orderImports hmodule hwhole hfacts hos
    rw [reported, hself] at hlines
    exact ⟨out, _, hrun, (told_iff hos hlength hlines).2 hshows⟩

/-- A module that is imported twice becomes one line. -/
def twiceImported : String := "import a\nimport a\n"

def twiceImportedTask : Task := { facts := .of ((Node.ofModule? twiceImported).getD .absent) }

def twiceImportedBlock : List Node := twiceImportedTask.chosen.headD []

def twiceImportedOrdered : List Node := (anchored twiceImportedTask.placing twiceImportedBlock).toOption.getD []

lemma twiceImported_run : (Node.ofModule? twiceImported).isSome = true ∧
    (twiceImportedTask.orderImports.toOption.map fun r => (r.1.code, r.2.changes.isEmpty)) = some ("import a\n", true) ∧
    twiceImportedTask.chosen.length = 1 ∧ (blocks twiceImportedTask.module).length = 1 ∧
    (anchored twiceImportedTask.placing twiceImportedBlock).isOk = true ∧
    isReordered twiceImportedBlock twiceImportedOrdered = false ∧
    sameList twiceImportedOrdered twiceImportedBlock = false := by
  decide +kernel

/-- The second import goes, and the report says nothing about it. -/
theorem twiceImported_not_told : ∃ out notes, twiceImportedTask.orderImports = .ok (out, notes) ∧
    out.code = "import a\n" ∧ notes.changes = [] ∧ ¬ twiceImportedTask.Told twiceImportedTask.chosen notes.changes := by
  obtain ⟨hread, hrun, hchosen, hblocks, hok, hsame, hmoved⟩ := twiceImported_run
  obtain ⟨module, hread, hfacts⟩ := Facts.exists_of_read hread (f := twiceImportedTask.facts) rfl
  have hself : twiceImportedTask.module = module := by rw [Task.module, hfacts]; rfl
  rw [hself] at hblocks
  obtain ⟨a, ha⟩ := length_eq_one_iff.1 hblocks
  obtain ⟨b, hb⟩ := length_eq_one_iff.1 hchosen
  have hblock : twiceImportedBlock = b := by rw [twiceImportedBlock, hb]; rfl
  obtain ⟨o, ho⟩ := exists_of_isOk hok
  have hordered : twiceImportedOrdered = o := by rw [twiceImportedOrdered, ho]; rfl
  rw [hblock, hordered] at hsame hmoved
  rw [hblock] at ho
  obtain ⟨r, hout, hrun⟩ := exists_of_toOption_map hrun
  obtain ⟨hcode, hchanges⟩ := Prod.mk.inj hrun
  refine ⟨r.1, r.2, hout, hcode, isEmpty_iff.1 hchanges, fun htold => ?_⟩
  have hshows := ((changes_told_iff hread hfacts).1 ⟨r.1, r.2, hout, htold⟩).2 a b (by rw [ha, hb]; simp)
  have hmoved : o.map cleared ≠ b.map cleared := mt sameList_iff.2 (by rw [hmoved]; exact Bool.false_ne_true)
  have hprefix := (hshows o ho hmoved).1
  exact (isReordered_eq_false_iff.1 hsame).elim hprefix.1 hprefix.2

end Mender.Codemod
