import Mender.Proofs.Codemod.Sight
import Mender.Proofs.Run.Phases

/-!
# Sweeping over files

A codemod that is applied to one file after the other makes of each file what it would make of it in the files as
they were at the beginning, provided that the files are different and that nothing it writes changes what it sees
of other files (`sweep_eq`). The files afterwards are those of the beginning with all new texts written at once.
-/

namespace Mender.Run

open Codemod Import.Section List Mender.Path Files

section

variable (c : Codemod) (fs : Files) (dir : String) (findings : Findings) (w : Wishes)

def mendAll (ps : List String) : List (Except Fault FileResult) :=
  ps.map fun p => (c.mend fs dir p findings w).map (·.1)

def newContent (p : String) : Option Content :=
  if w.isTrial then none else ((c.mend fs dir p findings w).toOption.bind (·.2)).map .text

def newContents : List String → String → Option Content
  | [], _ => none
  | p :: ps, k => if k = resolved p then newContent c fs dir findings w p else newContents ps k

end

variable {r : FileResult} {text : Option String} {c : Codemod} {dir p q k : String} {findings : Findings} {w : Wishes}
  {K : String → Prop} {fs gs : Files} {ps : List String}

lemma newContents_of_notMem (h : k ∉ ps.map resolved) : newContents c fs dir findings w ps k = none := by
  induction ps with
  | nil => rfl
  | cons p ps ih =>
    rw [map_cons, mem_cons, not_or] at h
    rw [newContents, if_neg h.1, ih h.2]

/-! ## Committing -/

lemma get?_commit_of_ne (h : resolved q ≠ resolved p) (isTrial : Bool) :
    (commit fs p isTrial text).get? q = fs.get? q := by
  cases text with
  | none => rfl
  | some text =>
    rw [commit]
    split
    · rfl
    · exact get?_put_of_ne (by rwa [resolved_plain]) _

lemma commit_trial : commit fs p true text = fs := by
  cases text <;> rfl

lemma commit_eq_rewrite (h : c.mend fs dir p findings w = .ok (r, text)) (hpaths : gs.SamePaths fs) :
    commit gs p w.isTrial text =
      gs.rewrite fun k => if k = resolved p then newContent c fs dir findings w p else none := by
  cases htrial : w.isTrial with
  | true => simpa [newContent, htrial, commit_trial] using (rewrite_none gs).symm
  | false =>
    rw [newContent, htrial, h]
    cases text with
    | none => simpa [commit, Except.toOption] using (rewrite_none gs).symm
    | some text =>
      have hfile : gs.isFile (plain p) = true := by
        rw [hpaths.isFile_eq, isFile, resolved_plain]
        exact isFile_of_mend h
      rw [commit, putText, put_eq_rewrite hfile, resolved_plain]
      rfl

/-! ## Sweeping -/

lemma sweep_cons_of_error {f : Fault} (h : c.mend fs dir p findings w = .error f) :
    sweep (fun fs p => c.apply fs dir p findings w) fs (p :: ps) =
      (.error f :: (sweep (fun fs p => c.apply fs dir p findings w) fs ps).1,
        (sweep (fun fs p => c.apply fs dir p findings w) fs ps).2) := by
  rw [sweep, apply, h]
  rfl

lemma sweep_cons_of_ok (h : c.mend fs dir p findings w = .ok (r, text)) :
    sweep (fun fs p => c.apply fs dir p findings w) fs (p :: ps) =
      (.ok r :: (sweep (fun fs p => c.apply fs dir p findings w) (commit fs p w.isTrial text) ps).1,
        (sweep (fun fs p => c.apply fs dir p findings w) (commit fs p w.isTrial text) ps).2) := by
  rw [sweep, apply, h]
  rfl

/-- What holds of the files after each text that is written holds of those after a sweep. -/
lemma sweep_induction {P : Files → Prop} (h : P fs) (hstep : ∀ p ∈ ps, ∀ fs r text, P fs →
      c.mend fs dir p findings w = .ok (r, text) → P (commit fs p w.isTrial text)) :
    P (sweep (fun fs p => c.apply fs dir p findings w) fs ps).2 := by
  induction ps generalizing fs with
  | nil => exact h
  | cons p ps ih =>
    rw [forall_mem_cons] at hstep
    cases hmend : c.mend fs dir p findings w with
    | error f =>
      rw [sweep_cons_of_error hmend]
      exact ih h hstep.2
    | ok rt =>
      rw [sweep_cons_of_ok hmend]
      exact ih (hstep.1 fs _ _ h hmend) hstep.2

/-- A sweep changes only files that it goes through. -/
lemma get?_sweep_of_notMem (h : resolved q ∉ ps.map resolved) :
    (sweep (fun fs p => c.apply fs dir p findings w) fs ps).2.get? q = fs.get? q :=
  sweep_induction (P := fun gs => gs.get? q = fs.get? q) rfl fun _ hp _ _ _ hgs _ =>
    (get?_commit_of_ne (fun heq => h (heq.symm ▸ mem_map_of_mem hp)) _).trans hgs

lemma get?_sweep_of_unread (h : readModule? fs (plain q) = none) :
    (sweep (fun fs p => c.apply fs dir p findings w) fs ps).2.get? q = fs.get? q := by
  refine sweep_induction (P := fun gs => gs.get? q = fs.get? q) rfl fun p _ gs r text hgs hmend => ?_
  by_cases hp : resolved q = resolved p
  · have hread : readModule? gs (plain p) = none := (readModule?_plain ((get?_congr hp.symm).trans hgs)).trans h
    rw [mend, hread] at hmend
    rw [(eq_of_mendModule_none hmend).2]
    exact hgs
  · exact (get?_commit_of_ne hp _).trans hgs

lemma sweep_trial (hw : w.isTrial = true) :
    sweep (fun fs p => c.apply fs dir p findings w) fs ps = (mendAll c fs dir findings w ps, fs) := by
  induction ps with
  | nil => rfl
  | cons p ps ih =>
    cases hmend : c.mend fs dir p findings w with
    | error f =>
      rw [sweep_cons_of_error hmend, ih, mendAll, mendAll, map_cons, hmend]
      rfl
    | ok rt =>
      rw [sweep_cons_of_ok hmend, hw, commit_trial, ih, mendAll, mendAll, map_cons, hmend]
      rfl

lemma samePaths_commit (h : c.mend fs dir p findings w = .ok (r, text)) : (commit fs p w.isTrial text).SamePaths fs := by
  rw [commit_eq_rewrite h (.refl fs)]
  exact samePaths_rewrite fs _

lemma samePaths_sweep : (sweep (fun fs p => c.apply fs dir p findings w) fs ps).2.SamePaths fs :=
  sweep_induction (P := (SamePaths · fs)) (.refl fs) fun _ _ _ _ _ hgs hmend => (samePaths_commit hmend).trans hgs

lemma mendAll_cons :
    mendAll c fs dir findings w (p :: ps) = (c.mend fs dir p findings w).map (·.1) :: mendAll c fs dir findings w ps :=
  rfl

lemma newContents_cons_eq_or (h : resolved p ∉ ps.map resolved) :
    newContents c fs dir findings w (p :: ps) = fun k => (newContents c fs dir findings w ps k).or
      (if k = resolved p then newContent c fs dir findings w p else none) := by
  funext k
  rw [newContents]
  split <;> rename_i hk
  · rw [hk, newContents_of_notMem h, Option.none_or]
  · rw [Option.or_none]

/-- **What a sweep does.** Of each file the codemod makes what it would make of it at the beginning, and all new
texts are written. -/
theorem sweep_eq (hblind : ∀ gs, SameSight K gs fs → c.Blind gs fs)
    (hnodup : (ps.map resolved).Nodup) (hsight : SameSight K gs fs)
    (hrest : ∀ p ∈ ps, gs.get? p = fs.get? p)
    (hfinal : SameSight K (sweep (fun fs p => c.apply fs dir p findings w) gs ps).2 fs) :
    sweep (fun fs p => c.apply fs dir p findings w) gs ps =
      (mendAll c fs dir findings w ps, gs.rewrite (newContents c fs dir findings w ps)) := by
  induction ps generalizing gs with
  | nil => exact congrArg (Prod.mk []) (rewrite_none gs).symm
  | cons p ps ih =>
    rw [map_cons, nodup_cons] at hnodup
    have hmend : c.mend gs dir p findings w = c.mend fs dir p findings w := mend_eq (hblind gs hsight) (hrest p (.head _))
    have hother : ∀ q ∈ ps, resolved q ≠ resolved p := by
      intro q hq heq
      exact hnodup.1 (heq ▸ mem_map_of_mem hq)
    cases hresult : c.mend fs dir p findings w with
    | error f =>
      rw [sweep_cons_of_error (hmend.trans hresult)] at hfinal ⊢
      rw [ih hnodup.2 hsight (forall_mem_cons.1 hrest).2 hfinal, mendAll_cons, hresult,
        newContents_cons_eq_or hnodup.1, newContent, hresult]
      simp [Except.map, Except.toOption]
    | ok rt =>
      obtain ⟨r, text⟩ := rt
      rw [sweep_cons_of_ok (hmend.trans hresult)] at hfinal ⊢
      -- what was just written is what is there at the end, so the codemod still sees the same
      have hsight' : SameSight K (commit gs p w.isTrial text) fs := by
        refine ⟨(samePaths_commit (hmend.trans hresult)).trans hsight.paths, fun q hq => ?_⟩
        by_cases hqp : resolved q = resolved p
        · rw [← hfinal.packages q hq, get?_sweep_of_notMem (hqp ▸ hnodup.1)]
        · rw [get?_commit_of_ne hqp, hsight.packages q hq]
      have hrest' : ∀ q ∈ ps, (commit gs p w.isTrial text).get? q = fs.get? q := by
        intro q hq
        rw [get?_commit_of_ne (hother q hq), hrest q (.tail _ hq)]
      rw [ih hnodup.2 hsight' hrest' hfinal, commit_eq_rewrite hresult hsight.paths, rewrite_rewrite,
        mendAll_cons, hresult, newContents_cons_eq_or hnodup.1]
      rfl

lemma results_sweep_trial (w : Wishes) (hblind : ∀ gs, SameSight K gs fs → c.Blind gs fs) (hnodup : (ps.map resolved).Nodup)
    (hfinal : SameSight K (sweep (fun fs p => c.apply fs dir p findings { w with isTrial := false }) fs ps).2 fs) :
    (sweep (fun fs p => c.apply fs dir p findings { w with isTrial := true }) fs ps).1 =
      (sweep (fun fs p => c.apply fs dir p findings { w with isTrial := false }) fs ps).1 := by
  rw [sweep_trial rfl, sweep_eq hblind hnodup (.refl K fs) (fun _ _ => rfl) hfinal]
  rfl

end Mender.Run
