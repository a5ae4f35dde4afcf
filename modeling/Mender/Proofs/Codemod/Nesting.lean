import Mender.Proofs.Codemod.Conditions
import Mender.Proofs.Codemod.Locks
import Mender.Proofs.Lists

/-!
# Changes inside of what stays

Some passes put back a node as it was unless they have decided to change the node itself. Changes that were made inside of
such a node are given up, though they are still reported.

`changes_kept_iff` says which changes are given up:

* of calls that are to get a generator, all that stand inside any other call;
* of `if` statements that are to take in an assignment, those that stand inside an `if` statement that takes in none;
* of `with` statements that make a lock, those that stand inside a `with` statement that makes none.

As many changes are reported as were decided upon, so too many are reported if and only if some are given up.
-/

namespace Mender.Codemod

open Syntax Node Mender.Edit Option Codemod.Task

variable {t : Task}

/-- **Which changes are kept.** A call gets its generator unless it is inside another call. An `if` statement takes in its
assignment, and a `with` statement names its lock, unless it is inside a statement of its kind that does not. -/
theorem changes_kept_iff {source : String} (hread : Node.ofModule? source = some t.module) :
    (∀ out notes, t.useGenerators = .ok (out, notes) → List.Forall₂ t.GeneratorCall t.module.topCalls out.topCalls ∧
      notes.changes.length = t.module.met.countP t.wantsGenerator ∧
      (notes.changes.length = t.module.topCalls.countP t.wantsGenerator ↔
        ∀ a ∈ t.module.met, a.kind = .call → ∀ b ∈ a.visited, ∀ c ∈ b.met, t.wantsGenerator c = false)) ∧
    (∀ out notes, t.useWalrus = .ok (out, notes) →
      listed heads out = (t.module.met.flatMap fun n =>
        if isLive .ifStatement (takesWalrus t.module) t.module n then movedHeads t.module n else heads n) ∧
      notes.changes.length = t.module.met.countP (takesWalrus t.module) ∧
      (notes.changes.length = t.module.met.countP (fun n =>
          takesWalrus t.module n && isLive .ifStatement (takesWalrus t.module) t.module n) ↔
        ∀ a ∈ t.module.met, a.kind = .ifStatement → ∀ n ∈ a.met, takesWalrus t.module n = true →
          takesWalrus t.module a = true)) ∧
    ∀ out notes, t.nameLocks = .ok (out, notes) →
      Lossy.Pieces .withStatement t.namesLock t.module heads Task.NamedHeads t.module (listed heads out) := by
  refine ⟨fun out notes h => ?_, fun out notes h => ?_, fun out notes h => pieces_of_nameLocks hread h⟩
  · have hlength := length_changes_of_useGenerators h
    refine ⟨forall₂_topCalls_of_useGenerators h, hlength, ?_⟩
    have hp (c : Node) (hne : c.kind ≠ .call) : t.wantsGenerator c = false := by
      simp [wantsGenerator, hne]
    rw [hlength, countP_met hp, Nat.add_eq_left, List.countP_eq_zero]
    constructor
    · intro hnone a ha hkind b hb c hc
      exact Bool.not_eq_true _ ▸ hnone c (mem_inCalls_iff.2 ⟨a, ha, hkind, b, hb, hc⟩)
    · intro hnone c hc
      obtain ⟨a, ha, hkind, b, hb, hc⟩ := mem_inCalls_iff.1 hc
      rw [hnone a ha hkind b hb c hc]
      exact Bool.false_ne_true
  · obtain ⟨-, -, hlength, -⟩ := edit_of_useWalrus hread h
    refine ⟨listed_of_useWalrus hread h, hlength, ?_⟩
    have hnode {n : Node} (hn : n ∈ t.module.met) (htakes : takesWalrus t.module n = true) :
        n.kind.isFiller = false := by
      by_cases hkind : n.kind = .ifStatement
      · rw [hkind]
        rfl
      · rw [takesWalrus, movedInto?_of_kind_ne hread hn hkind] at htakes
        cases htakes
    rw [hlength, countP_eq_countP_and_iff]
    constructor
    · intro hlive a ha hkind n hn htakes
      have hmet := met_subset ha hn
      exact (isLive_iff (numbered_of_read hread) hmet (hnode hmet htakes)).1 (hlive n hmet htakes) a ha hkind hn
    · intro hall n hn htakes
      rw [isLive_iff (numbered_of_read hread) hn (hnode hn htakes)]
      exact fun a ha hkind hmem => hall a ha hkind n hmem htakes

def nestedChanges : String :=
  "if c:\n    x = f()\n    if x:\n        g(any([y for y in z]))\nwith a:\n    with Lock():\n        pass\n"

def nestedChangesTask : Task where
  facts := .of ((Node.ofModule? nestedChanges).getD .absent)
  findings := [{ rule := "", locations := [.ofNumbers "" ⟨6, 10, 6, 16⟩] }]

lemma nestedChanges_run : (Node.ofModule? nestedChanges).isSome = true ∧
    (nestedChangesTask.useGenerators.toOption.map fun r => (r.1.code, r.2.changes.length)) = some (nestedChanges, 1) ∧
    (nestedChangesTask.useWalrus.toOption.map fun r => (r.1.code, r.2.changes.length)) = some (nestedChanges, 1) ∧
    (nestedChangesTask.nameLocks.toOption.map fun r => r.1.code) = some nestedChanges ∧
    nestedChangesTask.module.topCalls.countP nestedChangesTask.wantsGenerator = 0 ∧
    nestedChangesTask.module.met.countP nestedChangesTask.namesLock = 1 ∧
    nestedChangesTask.module.met.countP (fun n => takesWalrus nestedChangesTask.module n &&
      isLive .ifStatement (takesWalrus nestedChangesTask.module) nestedChangesTask.module n) = 0 := by
  decide +kernel

/-- One change of each kind is decided upon, and none is made. -/
theorem nestedChanges_given_up :
    (∃ out notes, nestedChangesTask.useGenerators = .ok (out, notes) ∧ out.code = nestedChanges ∧ notes.changes.length = 1 ∧
      ∃ a ∈ nestedChangesTask.module.met, a.kind = .call ∧
        ∃ b ∈ a.visited, ∃ c ∈ b.met, nestedChangesTask.wantsGenerator c = true) ∧
    (∃ out notes, nestedChangesTask.useWalrus = .ok (out, notes) ∧ out.code = nestedChanges ∧ notes.changes.length = 1 ∧
      ∃ a ∈ nestedChangesTask.module.met, a.kind = .ifStatement ∧
        ∃ n ∈ a.met, takesWalrus nestedChangesTask.module n = true ∧
          takesWalrus nestedChangesTask.module a = false) ∧
    ∃ out notes, nestedChangesTask.nameLocks = .ok (out, notes) ∧ out.code = nestedChanges ∧
      nestedChangesTask.module.met.countP nestedChangesTask.namesLock = 1 ∧
      Lossy.Pieces .withStatement nestedChangesTask.namesLock nestedChangesTask.module heads Task.NamedHeads
        nestedChangesTask.module (listed heads out) := by
  obtain ⟨hread, hgenerators, hwalrus, hlocks, htop, hnames, hlive⟩ := nestedChanges_run
  obtain ⟨module, hread⟩ := isSome_iff_exists.1 hread
  have hmodule : nestedChangesTask.module = module := by
    rw [Task.module, nestedChangesTask, hread]
    rfl
  rw [← hmodule] at hread
  obtain ⟨hcalls, hifs, hwiths⟩ := changes_kept_iff hread
  refine ⟨?_, ?_, ?_⟩
  · obtain ⟨r, hrun, hgenerators⟩ := exists_of_toOption_map hgenerators
    obtain ⟨hcode, hlength⟩ := Prod.mk.inj hgenerators
    have hiff := (hcalls r.1 r.2 hrun).2.2
    rw [hlength, htop] at hiff
    refine ⟨r.1, r.2, hrun, hcode, hlength, ?_⟩
    by_contra hnot
    push Not at hnot
    exact absurd (hiff.2 fun a ha hkind b hb c hc => Bool.not_eq_true _ ▸ hnot a ha hkind b hb c hc) (by decide)
  · obtain ⟨r, hrun, hwalrus⟩ := exists_of_toOption_map hwalrus
    obtain ⟨hcode, hlength⟩ := Prod.mk.inj hwalrus
    have hiff := (hifs r.1 r.2 hrun).2.2
    rw [hlength, hlive] at hiff
    refine ⟨r.1, r.2, hrun, hcode, hlength, ?_⟩
    by_contra hnot
    push Not at hnot
    exact absurd (hiff.2 fun a ha hkind n hn htakes => Bool.not_eq_false _ ▸ hnot a ha hkind n hn htakes) (by decide)
  · obtain ⟨r, hrun, hlocks⟩ := exists_of_toOption_map hlocks
    exact ⟨r.1, r.2, hrun, hlocks, hnames, hwiths r.1 r.2 hrun⟩

end Mender.Codemod
