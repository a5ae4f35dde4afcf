import Mathlib.Algebra.GroupWithZero.Nat
import Mathlib.Logic.Relation
import Mender.Proofs.Run.Sweeps

/-!
# Workers

A codemod is applied to the files by several workers at once. Each of them takes a file that nobody has taken,
reads it, makes a new text of it and writes that; in between, the others go on with theirs (`Move`). If the files
are different and the codemod sees no more of the other files than which paths there are, the order makes no
difference: when all is done, files and results are those of a sweep (`sweep_of_finished`).
-/

namespace Mender.Run

open Codemod Relation List Option Mender.Path

/-- How far a worker has come with a file. -/
inductive Stage where
  | pending
  | taken
  | read (module? : Option Syntax.Node)
  | made (result : FileResult) (text : Option String)
  | done (result : FileResult)

/-- A file and how far its worker has come. -/
structure Job where
  path : String
  stage : Stage

namespace Job

/-- Is a worker at the file? -/
def isBusy (j : Job) : Bool :=
  match j.stage with
  | .pending | .done _ => false
  | _ => true

/-- The result, once the file is done. -/
def result? (j : Job) : Option FileResult :=
  match j.stage with
  | .done r => some r
  | _ => none

end Job

/-- All files of a run, with the file system they are in. -/
structure Pool where
  files : Files
  jobs : List Job

namespace Pool

/-- The pool before any worker begins. -/
def start (fs : Files) (ps : List String) : Pool := ⟨fs, ps.map (⟨·, .pending⟩)⟩

/-- What became of the files that are done, in their order. -/
def results (pool : Pool) : List FileResult := pool.jobs.filterMap Job.result?

/-- Are all files done? -/
def IsFinished (pool : Pool) : Prop := ∀ j ∈ pool.jobs, j.result?.isSome = true

end Pool

/-- One step of one of `n` workers: take a file, read it, mend it, or write it. -/
inductive Move (c : Codemod) (dir : String) (findings : Findings) (w : Wishes) (n : Nat) : Pool → Pool → Prop where
  | take {fs : Files} {p : String} {before after : List Job} : (before ++ after).countP Job.isBusy < n →
      Move c dir findings w n ⟨fs, before ++ ⟨p, .pending⟩ :: after⟩ ⟨fs, before ++ ⟨p, .taken⟩ :: after⟩
  | read {fs : Files} {p : String} {before after : List Job} : Move c dir findings w n ⟨fs, before ++ ⟨p, .taken⟩ :: after⟩
        ⟨fs, before ++ ⟨p, .read (readModule? fs (plain p))⟩ :: after⟩
  | transform {fs : Files} {p : String} {before after : List Job} {module? : Option Syntax.Node} {r : FileResult}
      {text : Option String} :
      c.mendModule fs dir p findings w module? = .ok (r, text) →
      Move c dir findings w n ⟨fs, before ++ ⟨p, .read module?⟩ :: after⟩ ⟨fs, before ++ ⟨p, .made r text⟩ :: after⟩
  | write {fs : Files} {p : String} {before after : List Job} {r : FileResult} {text : Option String} :
      Move c dir findings w n ⟨fs, before ++ ⟨p, .made r text⟩ :: after⟩
        ⟨commit fs p w.isTrial text, before ++ ⟨p, .done r⟩ :: after⟩

/-- Does what a codemod makes of a module depend on nothing of other files but their paths? -/
def SeesOnlyPaths (c : Codemod) : Prop := ∀ fs gs : Files, fs.SamePaths gs → c.Blind fs gs

lemma seesOnlyPaths_of_mem {c : Codemod} (hc : c ∈ Catalogue.all) (h : c.name ≠ "order-imports") :
    SeesOnlyPaths c := fun _ _ hpaths => blind_of_sameSight hc ⟨hpaths, fun _ hlooks => absurd hlooks.1 h⟩

variable {c : Codemod} {dir p k : String} {findings : Findings} {w : Wishes} {n : Nat} {fs fs' : Files} {ps : List String}
  {pool pool' : Pool} {before after js : List Job} {j : Job}

/-! ## What is written -/

def written (c : Codemod) (fs : Files) (dir : String) (findings : Findings) (w : Wishes) (js : List Job) :
    String → Option Content :=
  newContents c fs dir findings w ((js.filter (·.result?.isSome)).map (·.path))

lemma newContents_append (ps qs : List String) (k : String) : newContents c fs dir findings w (ps ++ qs) k =
      if k ∈ ps.map resolved then newContents c fs dir findings w ps k
      else newContents c fs dir findings w qs k := by
  induction ps with
  | nil => rfl
  | cons p ps ih =>
    rw [cons_append, newContents, newContents, ih]
    by_cases hk : k = resolved p <;> simp [hk]

lemma written_of_result?_none (h : j.result? = none) :
    written c fs dir findings w (before ++ j :: after) = written c fs dir findings w (before ++ after) := by
  simp [written, h]

lemma written_of_notMem (h : k ∉ (before.map (·.path)).map resolved) : written c fs dir findings w before k = none := by
  exact newContents_of_notMem fun hmem => h (((filter_sublist.map _).map _).subset hmem)

lemma resolved_notMem (h : (((before ++ j :: after).map (·.path)).map resolved).Nodup) :
    resolved j.path ∉ ((before ++ after).map (·.path)).map resolved := by
  simp only [map_append, map_cons] at h ⊢
  exact (nodup_cons.1 (nodup_middle.1 h)).1

lemma written_done {r : FileResult} (h : (((before ++ j :: after).map (·.path)).map resolved).Nodup)
    (hj : j.result? = some r) : written c fs dir findings w (before ++ j :: after) = fun k =>
      (if k = resolved j.path then newContent c fs dir findings w j.path else none).or
        (written c fs dir findings w (before ++ after) k) := by
  have hother := resolved_notMem h
  have hbefore : resolved j.path ∉ (before.map (·.path)).map resolved := by
    intro hmem
    rw [map_append, map_append] at hother
    exact hother (mem_append_left _ hmem)
  funext k
  by_cases hk : k = resolved j.path
  · subst hk
    have hdone : resolved j.path ∉ ((before.filter (·.result?.isSome)).map (·.path)).map resolved :=
      fun hmem => hbefore (((filter_sublist.map _).map _).subset hmem)
    rw [written_of_notMem hother, or_none, written]
    simp only [filter_append, filter_cons, hj, isSome_some, if_true, map_append, map_cons,
      newContents_append, newContents, if_neg hdone]
  · rw [if_neg hk, none_or, written, written]
    simp only [filter_append, filter_cons, hj, isSome_some, if_true, map_append, map_cons,
      newContents_append, newContents, if_neg hk]

/-! ## What one step keeps -/

/-- What a stage tells of a file is what can be told at the beginning. -/
def Job.IsSound (c : Codemod) (fs : Files) (dir : String) (findings : Findings) (w : Wishes) (j : Job) : Prop :=
  match j.stage with
  | .pending | .taken => True
  | .read module? => module? = readModule? fs (plain j.path)
  | .made r text => c.mend fs dir j.path findings w = .ok (r, text)
  | .done r => ∃ text, c.mend fs dir j.path findings w = .ok (r, text)

/-- A pool that has come some way from the files at the beginning. -/
structure Pool.Inv (c : Codemod) (fs : Files) (dir : String) (findings : Findings) (w : Wishes) (ps : List String)
    (pool : Pool) : Prop where
  paths : pool.jobs.map (·.path) = ps
  sound : ∀ j ∈ pool.jobs, j.IsSound c fs dir findings w
  files : pool.files = fs.rewrite (written c fs dir findings w pool.jobs)

lemma Pool.Inv.samePaths (h : pool.Inv c fs dir findings w ps) : pool.files.SamePaths fs := by
  rw [h.files]
  exact Files.samePaths_rewrite fs _

lemma Pool.Inv.get?_eq (h : Pool.Inv c fs dir findings w ps ⟨fs', before ++ j :: after⟩)
    (hnodup : (ps.map resolved).Nodup) (hj : j.result? = none) : fs'.get? j.path = fs.get? j.path := by
  have hfiles : fs' = fs.rewrite (written c fs dir findings w (before ++ j :: after)) := h.files
  rw [hfiles, written_of_result?_none hj]
  rw [← h.paths] at hnodup
  exact Files.get?_rewrite_of_none (written_of_notMem (resolved_notMem hnodup))

lemma inv_start : (Pool.start fs ps).Inv c fs dir findings w ps := by
  refine ⟨?_, fun j hj => ?_, ?_⟩
  · simp [Pool.start, Function.comp_def]
  · obtain ⟨p, -, rfl⟩ := mem_map.1 hj
    trivial
  · have hnone : (Pool.start fs ps).jobs.filter (·.result?.isSome) = [] := by
      rw [filter_eq_nil_iff]
      intro j hj
      obtain ⟨p, -, rfl⟩ := mem_map.1 hj
      exact Bool.false_ne_true
    rw [written, hnone]
    exact (Files.rewrite_none fs).symm

/-- A step that finishes nothing changes one job only. -/
lemma Pool.Inv.replace {stage stage' : Stage} (h : Pool.Inv c fs dir findings w ps ⟨fs', before ++ ⟨p, stage⟩ :: after⟩)
    (hstage : (⟨p, stage⟩ : Job).result? = none) (hstage' : (⟨p, stage'⟩ : Job).result? = none)
    (hsound : (⟨p, stage'⟩ : Job).IsSound c fs dir findings w) :
    Pool.Inv c fs dir findings w ps ⟨fs', before ++ ⟨p, stage'⟩ :: after⟩ := by
  obtain ⟨hbefore, hafter⟩ := forall_mem_append.1 h.sound
  refine ⟨by simpa using h.paths, forall_mem_append.2 ⟨hbefore, forall_mem_cons.2 ⟨hsound, (forall_mem_cons.1 hafter).2⟩⟩, ?_⟩
  · rw [written_of_result?_none hstage', ← written_of_result?_none hstage]
    exact h.files

lemma inv_move (hsees : SeesOnlyPaths c) (hnodup : (ps.map resolved).Nodup)
    (h : pool.Inv c fs dir findings w ps) (hmove : Move c dir findings w n pool pool') :
    pool'.Inv c fs dir findings w ps := by
  cases hmove with
  | take hbusy => exact h.replace rfl rfl trivial
  | @read fs' p before after => exact h.replace rfl rfl (readModule?_plain (h.get?_eq hnodup rfl))
  | @transform fs' p before after module? r text hmend =>
    have hread : module? = readModule? fs (plain p) := h.sound ⟨p, .read module?⟩ (by simp)
    rw [mendModule_eq (hsees fs' fs h.samePaths), hread] at hmend
    exact h.replace rfl rfl hmend
  | @write fs' p before after r text =>
    have hmend : c.mend fs dir p findings w = .ok (r, text) := h.sound ⟨p, .made r text⟩ (by simp)
    have hpaths : (before ++ (⟨p, .done r⟩ : Job) :: after).map (·.path) = ps := by simpa using h.paths
    obtain ⟨hbefore, hafter⟩ := forall_mem_append.1 h.sound
    refine ⟨hpaths, forall_mem_append.2 ⟨hbefore, forall_mem_cons.2 ⟨⟨text, hmend⟩, (forall_mem_cons.1 hafter).2⟩⟩, ?_⟩
    · have hfiles : fs' = fs.rewrite (written c fs dir findings w (before ++ ⟨p, .made r text⟩ :: after)) := h.files
      rw [← hpaths] at hnodup
      rw [written_done hnodup rfl]
      rw [commit_eq_rewrite hmend h.samePaths, hfiles, Files.rewrite_rewrite, written_of_result?_none rfl]

lemma inv_of_moves (hsees : SeesOnlyPaths c) (hnodup : (ps.map resolved).Nodup)
    (h : ReflTransGen (Move c dir findings w n) (Pool.start fs ps) pool) : pool.Inv c fs dir findings w ps := by
  induction h with
  | refl => exact inv_start
  | tail _ hmove ih => exact inv_move hsees hnodup ih hmove

/-! ## When all is done -/

lemma mendAll_of_finished (hsound : ∀ j ∈ js, j.IsSound c fs dir findings w)
    (hdone : ∀ j ∈ js, j.result?.isSome = true) :
    mendAll c fs dir findings w (js.map (·.path)) = (js.filterMap Job.result?).map .ok := by
  induction js with
  | nil => rfl
  | cons j js ih =>
    have hj := hsound j (.head _)
    have hjdone := hdone j (.head _)
    obtain ⟨p, stage⟩ := j
    cases stage with
    | pending | taken | read | made => cases hjdone
    | done r =>
      obtain ⟨text, hmend⟩ := hj
      rw [map_cons, mendAll_cons, hmend, ih (forall_mem_cons.1 hsound).2
        (forall_mem_cons.1 hdone).2]
      rfl

/-- **The order of the steps makes no difference.** When all is done, files and results are those of a sweep. -/
theorem sweep_of_finished (hsees : SeesOnlyPaths c) (hnodup : (ps.map resolved).Nodup)
    (h : ReflTransGen (Move c dir findings w n) (Pool.start fs ps) pool) (hdone : pool.IsFinished) :
    sweep (fun fs p => c.apply fs dir p findings w) fs ps = (pool.results.map .ok, pool.files) := by
  have hinv := inv_of_moves hsees hnodup h
  have hblind : ∀ gs, Import.Section.SameSight (fun _ => False) gs fs → c.Blind gs fs := fun gs h => hsees gs fs h.paths
  rw [sweep_eq hblind hnodup (.refl _ fs) (fun _ _ => rfl) ⟨samePaths_sweep, fun _ h => h.elim⟩, hinv.files, written,
    filter_eq_self.2 hdone, hinv.paths, Pool.results, ← mendAll_of_finished hinv.sound hdone, hinv.paths]

/-! ## Going on -/

def Stage.left : Stage → Nat
  | .pending => 4
  | .taken => 3
  | .read _ => 2
  | .made _ _ => 1
  | .done _ => 0

def Pool.left (pool : Pool) : Nat := (pool.jobs.map (·.stage.left)).sum

lemma left_lt {stage stage' : Stage} (h : stage'.left < stage.left) :
    Pool.left ⟨fs', before ++ ⟨p, stage'⟩ :: after⟩ < Pool.left ⟨fs, before ++ ⟨p, stage⟩ :: after⟩ := by
  simp only [Pool.left, map_append, map_cons, sum_append, sum_cons]
  omega

section

variable (hsees : SeesOnlyPaths c) (hok : ∀ p ∈ ps, (c.mend fs dir p findings w).isOk = true)
include hsees hok

lemma exists_move_of_busy (h : pool.Inv c fs dir findings w ps) (hj : j ∈ pool.jobs) (hbusy : j.isBusy = true) :
    ∃ pool', Move c dir findings w n pool pool' ∧ pool'.left < pool.left := by
  obtain ⟨fs', jobs⟩ := pool
  obtain ⟨before, after, rfl⟩ := append_of_mem hj
  obtain ⟨p, stage⟩ := j
  cases stage with
  | pending | done => cases hbusy
  | taken => exact ⟨_, .read, left_lt (Nat.lt_succ_self 2)⟩
  | made r text => exact ⟨_, .write, left_lt Nat.zero_lt_one⟩
  | read module? =>
    have hread : module? = readModule? fs (plain p) := h.sound _ hj
    have hp : p ∈ ps := h.paths ▸ mem_map_of_mem hj
    obtain ⟨⟨r, text⟩, hmend⟩ := exists_of_isOk (hok p hp)
    have hmade : c.mendModule fs' dir p findings w module? = .ok (r, text) := by
      rw [mendModule_eq (hsees fs' fs h.samePaths), hread]
      exact hmend
    exact ⟨_, .transform hmade, left_lt (Nat.lt_succ_self 1)⟩

lemma exists_move (hn : 0 < n) (h : pool.Inv c fs dir findings w ps) (hopen : ¬ pool.IsFinished) :
    ∃ pool', Move c dir findings w n pool pool' ∧ pool'.left < pool.left := by
  by_cases hbusy : ∃ j ∈ pool.jobs, j.isBusy = true
  · obtain ⟨j, hj, hjbusy⟩ := hbusy
    exact exists_move_of_busy hsees hok h hj hjbusy
  · -- nobody is busy, so a file that is not done can be taken
    simp only [Pool.IsFinished, not_forall] at hopen
    obtain ⟨j, hj, hjopen⟩ := hopen
    obtain ⟨fs', jobs⟩ := pool
    obtain ⟨before, after, rfl⟩ := append_of_mem hj
    obtain ⟨p, stage⟩ := j
    cases stage with
    | taken | read | made => exact absurd ⟨_, hj, rfl⟩ hbusy
    | done => exact absurd rfl hjopen
    | pending =>
      have hfree : (before ++ after).countP Job.isBusy < n := by
        rw [countP_eq_zero.2 fun i hi hibusy => hbusy ⟨i, ?_, hibusy⟩]
        · exact hn
        · rcases mem_append.1 hi with hi | hi
          · exact mem_append_left _ hi
          · exact mem_append_right _ (.tail _ hi)
      exact ⟨_, .take hfree, left_lt (by decide)⟩

/-- **Workers come to an end.** However far they have come, all files can be done. -/
theorem exists_finished (hnodup : (ps.map resolved).Nodup) (hn : 0 < n) (h : pool.Inv c fs dir findings w ps) :
    ∃ pool', ReflTransGen (Move c dir findings w n) pool pool' ∧ pool'.IsFinished := by
  induction hleft : pool.left using Nat.strongRecOn generalizing pool with
  | ind left ih =>
    by_cases hdone : pool.IsFinished
    · exact ⟨pool, .refl, hdone⟩
    · obtain ⟨next, hmove, hless⟩ := exists_move hsees hok hn h hdone
      obtain ⟨pool', hmoves, hfinished⟩ := ih next.left (hleft ▸ hless) (inv_move hsees hnodup h hmove) rfl
      exact ⟨pool', hmoves.head hmove, hfinished⟩

end

end Mender.Run
