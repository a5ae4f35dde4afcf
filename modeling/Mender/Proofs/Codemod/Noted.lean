import Mender.Catalogue
import Mender.Codemod.Apply
import Mender.Proofs.Codemod.Generators
import Mender.Proofs.Edit.Heads

/-!
# Changes that are noted

A codemod notes its changes while it works. Most of what it does notes nothing (`Work.Quiet`), and a codemod that mends
what scanners have found notes a change at each call and assignment that it mends.

* `Task.mem_changes_atFindings_iff` — the changes that are noted by codemods that mend what was found.
-/

namespace Mender

open Syntax List

namespace Codemod

/-! ## Changes that are noted -/

def Work.Quiet {α : Type} (x : Work α) : Prop := ∀ changes, x.Keeps fun s => s.changes = changes

namespace Work.Quiet

variable {α β : Type} {x : Work α}

lemma lift (x : Except Fault α) : Quiet (liftM x : Work α) := fun _ => .lift x

lemma throw (e : Fault) : Quiet (throw e : Work α) := fun _ => .throw e

lemma bind {g : α → Work β} (hx : x.Quiet) (hg : ∀ a, (g a).Quiet) : Quiet (x >>= g) :=
  fun changes => .bind (hx changes) fun a => hg a changes

lemma require (module : String) (object : Option String) : Quiet (Codemod.require module object) :=
  fun _ => .modify fun _ h => h

lemma dependOn (d : Dependency) : Quiet (Codemod.dependOn d) := by
  refine fun changes => .modify fun s h => ?_
  split
  · exact h
  · exact h

lemma release (t : Task) (n : Node) : Quiet (t.release n) := bind (lift _) fun _ _ => .modify fun _ h => h

lemma check {p : Prop} [Decidable p] {e : Fault} {g : PUnit → Work β} (hg : ∀ u, (g u).Quiet) :
    Quiet (if p then MonadExcept.throw e >>= g else g ⟨⟩) := by
  split
  · exact bind (throw e) hg
  · exact hg _

end Work.Quiet

/-! ## What was found -/

namespace Task

/-- Is a change noted for a node, by the line where it starts? -/
def IsNoteOf (t : Task) (n : Node) (change : Change) : Prop :=
  ∃ span, t.facts.span n = .ok span ∧ change = .at span.start.line t.changeText

variable {s s' notes : Notes} {n old new module' : Node}

lemma run_report {t : Task} (h : (t.report n).run s = .ok ((), s')) (change : Change) :
    change ∈ s'.changes ↔ change ∈ s.changes ∨ t.IsNoteOf n change := by
  obtain ⟨line, hline, h⟩ := of_lift_bind h
  obtain ⟨span, hspan, hline⟩ := of_bind hline
  cases hline
  cases h
  simp only [mem_append, mem_singleton, IsNoteOf, hspan, Except.ok.injEq]
  constructor
  · rintro (h | h)
    · exact .inl h
    · exact .inr ⟨span, rfl, h⟩
  · rintro (h | ⟨_, rfl, h⟩)
    · exact .inl h
    · exact .inr h

/-- Is a node mended: a call or assignment that was found and may be changed? -/
def Mends (t : Task) (n : Node) : Prop := (n.kind = .call ∨ n.kind = .assign) ∧ t.selects n = .ok true

variable {t : Task} {mend : Node → Node → Work Node} {e : Edit}

/-- What leaving a node does: a node that is mended is reported first, any other node stays as it is. -/
lemma leave_atFindings_cases (h : ((t.atFindings mend).leave old new).run s = .ok (e, s')) :
    (¬ t.Mends old ∧ e = .keep new ∧ s' = s) ∨ t.Mends old ∧ ∃ s₁ node, (t.report old).run s = .ok ((), s₁) ∧
      (mend old new).run s₁ = .ok (node, s') ∧ e = .keep node := by
  dsimp only [atFindings] at h
  split at h
  next hkind =>
    obtain ⟨selected, hselects, h⟩ := of_lift_bind h
    cases selected with
    | true =>
      obtain ⟨⟨⟩, s₁, hreport, h⟩ := of_run_bind h
      obtain ⟨node, s₂, hnode, h⟩ := of_run_bind h
      cases h
      exact .inr ⟨⟨by simpa using hkind, hselects⟩, s₁, node, hreport, hnode, rfl⟩
    | false =>
      cases h
      refine .inl ⟨fun hmends => ?_, rfl, rfl⟩
      cases hselects.symm.trans hmends.2
  next hkind =>
    cases h
    exact .inl ⟨fun hmends => hkind (by simpa using hmends.1), rfl, rfl⟩

lemma leave_atFindings (hmend : ∀ old new, (mend old new).Quiet)
    (h : ((t.atFindings mend).leave old new).run s = .ok (e, s')) (change : Change) :
    change ∈ s'.changes ↔ change ∈ s.changes ∨ t.Mends old ∧ t.IsNoteOf old change := by
  rcases leave_atFindings_cases h with ⟨hold, -, rfl⟩ | ⟨hold, s₁, node, hreport, hnode, -⟩
  · simp [hold]
  · rw [hmend old new s₁.changes s₁ node s' hnode rfl, run_report hreport]
    simp [hold]

lemma mem_changes_atFindings_iff (hmend : ∀ old new, (mend old new).Quiet)
    (h : t.command (t.atFindings mend) = .ok (module', notes)) (change : Change) :
    change ∈ notes.changes ↔ ∃ n ∈ t.module.met, t.Mends n ∧ t.IsNoteOf n change := by
  obtain ⟨⟨module, notes'⟩, hrun, h⟩ := of_bind h
  obtain ⟨settled, -, h⟩ := of_bind h
  cases h
  rw [Pass.gathered_iff (H := fun x s => x ∈ s.changes) (fun _ => rfl)
    (fun _ _ _ _ _ h => leave_atFindings hmend h) (Pass.edit_of_run hrun)]
  exact or_iff_right not_mem_nil

/-- Mending that asks for no imports leaves the imports as they are. -/
lemma settled_atFindings {module : Node} (hmend : ∀ old new, (mend old new).Keeps fun s => s.needed = [] ∧ s.superfluous = [])
    (h : (t.atFindings mend).run module {} = .ok (module', notes)) : notes.needed = [] ∧ notes.superfluous = [] := by
  refine Pass.keeps_edit (I := fun s => s.needed = [] ∧ s.superfluous = []) (fun _ => .pure _)
    (fun old _ new s e s' h hs => ?_) _ _ _ (Pass.edit_of_run h) ⟨rfl, rfl⟩
  rcases leave_atFindings_cases h with ⟨-, -, rfl⟩ | ⟨-, s₁, node, hreport, hnode, -⟩
  · exact hs
  · obtain ⟨line, -, hreport⟩ := of_lift_bind hreport
    cases hreport
    exact hmend old new _ node s' hnode hs

end Task

end Codemod

end Mender
