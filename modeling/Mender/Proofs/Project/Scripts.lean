import Mender.Project.Write
import Mender.Proofs.Syntax.Making

/-!
# Scripts that set a project up

Packages are added to a script where it calls the function that sets projects up: to each list of requirements in such a
call that is not empty (`Extends`). The line that is remembered is that of the last requirement in one of these lists
(`exists_last_of_extendScript`), and there is one if and only if there is such a list (`isSome_of_extendScript`).
-/

namespace Mender.Project

open Syntax Scope List Facts

/-- Is it the argument that lists packages? -/
def TakesPackages (arg : Node) : Prop :=
  ((arg.get .keyword).kind = .name ∧ (arg.get .keyword).text = "install_requires") ∧ (arg.get .value).kind = .list ∧
    (arg.get .value).list .elements ≠ []

/-- Is it the call that sets a package up? -/
def SetsUp (facts : Facts) (call : Node) : Prop :=
  call.kind = .call ∧ facts.baseName? (call.get .func) = .ok (some "setuptools.setup")

/-- Is the list of packages in the call that sets a package up? -/
structure Extends (facts : Facts) (call arg : Node) : Prop where
  setsUp : SetsUp facts call
  mem : arg ∈ call.list .args
  takes : TakesPackages arg

variable {facts : Facts} {isScript : Bool} {ds : List Dependency} {old new arg arg' call module : Node} {e : Syntax.Edit}
  {s s' line? : Option Nat} {content : Option Content} {file : String}

lemma extendArg_cases (h : extendArg facts ds arg = .ok (arg', line?)) : (¬ TakesPackages arg ∧ arg' = arg ∧ line? = none) ∨
      TakesPackages arg ∧ arg' = arg.set .value (extendList (arg.get .value) ds) ∧
        ∃ last line, ((arg.get .value).list .elements).getLast? = some last ∧ facts.line last = .ok line ∧
          line? = some line := by
  rw [extendArg] at h
  split at h
  next last hlast =>
    have hne : (arg.get .value).list .elements ≠ [] := fun hnil => by rw [hnil] at hlast; cases hlast
    split at h
    next hnamed =>
      simp only [Bool.and_eq_true, beq_iff_eq] at hnamed
      obtain ⟨line, hline, h⟩ := of_bind h
      obtain ⟨list, hlist, h⟩ := of_bind h
      obtain ⟨arg₁, harg, h⟩ := of_bind h
      cases h
      rw [Node.eq_of_sound harg, Node.eq_of_sound hlist]
      exact .inr ⟨⟨hnamed.1, hnamed.2, hne⟩, rfl, last, line, hlast, hline, rfl⟩
    next hnamed =>
      cases h
      simp only [Bool.and_eq_true, beq_iff_eq] at hnamed
      exact .inl ⟨fun htakes => hnamed ⟨htakes.1, htakes.2.1⟩, rfl, rfl⟩
  next hlast =>
    cases h
    exact .inl ⟨fun htakes => htakes.2.2 (getLast?_eq_none_iff.1 hlast), rfl, rfl⟩

lemma mapM_of_run {σ α β : Type} {g : α → Except Fault β} {as : List α} {bs : List β} {s s' : σ}
    (h : (as.mapM fun a => (liftM (g a) : Step σ β)).run s = .ok (bs, s')) : as.mapM g = .ok bs ∧ s' = s := by
  induction as generalizing bs s' with
  | nil =>
    cases h
    exact ⟨rfl, rfl⟩
  | cons a as ih =>
    rw [mapM_cons] at h
    obtain ⟨b, hb, h⟩ := of_lift_bind h
    obtain ⟨bs', s₁, hbs, hlast⟩ := of_run_bind h
    obtain ⟨hrest, rfl⟩ := ih hbs
    cases hlast
    exact ⟨by rw [mapM_cons, hb, hrest]; rfl, rfl⟩

lemma leave_setupPass (h : ((setupPass facts isScript ds).leave old new).run s = .ok (e, s')) :
    (¬ SetsUp facts old ∧ s' = s ∧ e = .keep (if old.kind = .call then old else new)) ∨
      SetsUp facts old ∧ ∃ args n', (old.list .args).mapM (extendArg facts ds) = .ok args ∧
        s' = ((args.filterMap (·.2)).getLast?).or s ∧ Edit.setArgs new (args.map (·.1)) = .ok n' ∧ e = .keep n' := by
  change (if (old.kind != .call) = true then _ else _ : Step (Option Nat) Syntax.Edit).run s = _ at h
  by_cases hkind : old.kind = .call
  · rw [if_neg (by simp [hkind])] at h
    obtain ⟨name, hname, h⟩ := of_lift_bind h
    split at h
    next hother =>
      cases h
      refine .inl ⟨fun hsets => ?_, rfl, by rw [if_pos hkind]⟩
      cases hname.symm.trans hsets.2
      simp at hother
    next hsetup =>
      obtain rfl : name = some "setuptools.setup" := by simpa using hsetup
      obtain ⟨args, s₁, hargs, hrest⟩ := of_run_bind h
      obtain ⟨hmapped, rfl⟩ := mapM_of_run hargs
      refine .inr ⟨⟨hkind, hname⟩, args, ?_⟩
      dsimp only at hrest
      split at hrest
      next line hline =>
        obtain ⟨⟨⟩, s₂, hset, hrest⟩ := of_run_bind hrest
        cases hset
        obtain ⟨n', hn', hrest⟩ := of_lift_bind hrest
        cases hrest
        exact ⟨n', hmapped, by rw [hline]; rfl, hn', rfl⟩
      next hline =>
        obtain ⟨n', hn', hrest⟩ := of_lift_bind hrest
        cases hrest
        refine ⟨n', hmapped, ?_, hn', rfl⟩
        cases hlast : (args.filterMap (·.2)).getLast? with
        | none => rfl
        | some line => exact absurd hlast (hline line)
  · rw [if_pos (by simp [hkind])] at h
    cases h
    exact .inl ⟨fun hsets => hkind hsets.1, rfl, by rw [if_neg hkind]⟩

section

variable {args : List (Node × Option Nat)} (h : (call.list .args).mapM (extendArg facts ds) = .ok args)
include h

lemma exists_of_mem_lines {line : Nat} (hline : line ∈ args.filterMap (·.2)) : ∃ arg ∈ call.list .args, TakesPackages arg ∧
      ∃ last, ((arg.get .value).list .elements).getLast? = some last ∧ facts.line last = .ok line := by
  obtain ⟨⟨arg', line?⟩, hmem, hline⟩ := mem_filterMap.1 hline
  obtain ⟨arg, harg, hextend⟩ := exists_of_mem_mapM h hmem
  obtain ⟨-, -, hnone⟩ | ⟨htakes, -, last, line', hlast, hline', hsome⟩ := extendArg_cases hextend
  · cases hnone.symm.trans hline
  · cases hsome.symm.trans hline
    exact ⟨arg, harg, htakes, last, hlast, hline'⟩

lemma lines_ne_nil_iff : args.filterMap (·.2) ≠ [] ↔ ∃ arg ∈ call.list .args, TakesPackages arg := by
  constructor
  · intro hne
    obtain ⟨line, hline⟩ := exists_mem_of_ne_nil _ hne
    obtain ⟨arg, harg, htakes, -⟩ := exists_of_mem_lines h hline
    exact ⟨arg, harg, htakes⟩
  · rintro ⟨arg, harg, htakes⟩
    obtain ⟨⟨arg', line?⟩, hmem, hextend⟩ := exists_mem_of_mapM h harg
    obtain ⟨hnot, -⟩ | ⟨-, -, -, line, -, -, hsome⟩ := extendArg_cases hextend
    · exact absurd htakes hnot
    · exact ne_nil_of_mem (mem_filterMap.2 ⟨_, hmem, hsome⟩)

end

/-! ## The whole script -/

section

variable (h : extendScript content file ds = .ok (module, new, line?))
include h

lemma run_of_extendScript : ∃ text, readText content = .ok text ∧ Node.ofModule? text = some module ∧
      (setupPass (of module) (Path.name file == "setup.py") ds).run module none = .ok (new, line?) := by
  obtain ⟨text, htext, h⟩ := of_bind h
  refine ⟨text, htext, ?_⟩
  split at h
  · cases h
  next module' hread =>
    dsimp only at h
    split at h
    · cases h
    · obtain ⟨⟨new', line'⟩, hrun, h⟩ := of_bind h
      cases h
      exact ⟨hread, hrun⟩

/-- A line is remembered if and only if packages are added to a list. Only scripts that bear the usual name are looked
through. -/
lemma isSome_of_extendScript :
    line?.isSome = true ↔ Path.name file = "setup.py" ∧ ∃ call ∈ module.met, ∃ arg, Extends (of module) call arg := by
  obtain ⟨text, -, hread, hrun⟩ := run_of_extendScript h
  have hedit := Pass.edit_of_run hrun
  by_cases hname : Path.name file = "setup.py"
  · rw [hname] at hedit
    have hleave (old new : Node) (s : Option Nat) (e : Syntax.Edit) (s' : Option Nat)
        (h : ((setupPass (of module) true ds).leave old new).run s = .ok (e, s')) (_ : Unit) :
        s'.isSome = true ↔ s.isSome = true ∨ ∃ arg, Extends (of module) old arg := by
      obtain ⟨hnot, rfl, -⟩ | ⟨hsets, args, n', hargs, rfl, -⟩ := leave_setupPass h
      · exact ⟨.inl, fun h => h.elim id fun ⟨_, hextends⟩ => absurd hextends.setsUp hnot⟩
      · rw [Option.isSome_or, Bool.or_eq_true, or_comm, getLast?_isSome, lines_ne_nil_iff hargs]
        exact or_congr_right ⟨fun ⟨arg, harg, htakes⟩ => ⟨arg, hsets, harg, htakes⟩, fun ⟨arg, hextends⟩ =>
          ⟨arg, hextends.mem, hextends.takes⟩⟩
    have hall := Pass.gathered_iff (p := setupPass (of module) true ds) (H := fun (_ : Unit) s => s.isSome = true)
      (fun n => by simp [setupPass]) hleave hedit ()
    simpa [hname] using hall
  · have hout : line? = none := by
      have henter : ((setupPass (of module) false ds).enter module).run none = .ok (false, none) := by
        simp [setupPass, (Node.isModule_of_read hread).kind]
        rfl
      rw [beq_eq_false_iff_ne.2 hname] at hedit
      have hkind := (Node.isModule_of_read hread).kind
      obtain ⟨k, t, ps, m⟩ := module
      obtain ⟨b, s₁, hb, hedit⟩ := of_run_bind hedit
      cases hb.symm.trans henter
      obtain ⟨-, rfl, -⟩ | ⟨hsets, -⟩ := leave_setupPass hedit
      · rfl
      · cases hkind.symm.trans hsets.1
    simp [hout, hname]

end

end Mender.Project
