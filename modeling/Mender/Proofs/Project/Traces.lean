import Mender.Proofs.Project.Listings
import Mender.Proofs.Project.Scripts

/-!
# Attempts that come to nothing

A store takes packages in before its file is asked whether it has a place for them (`NoPlace`). So an attempt that comes to
nothing leaves the file as it was, but not always the store, and what is offered again is taken for known
(`traceless_iff`).
-/

namespace Mender.Project

open Syntax Scope

/-- Is there no place in the file for new packages? -/
def NoPlace (s : Store) (content : Option Content) (ds : List Dependency) : Prop :=
  match s.kind with
  | .listing => ∀ text, content ≠ some (.text text)
  | .toml => ∃ text document, readText content = .ok text ∧ Toml.read text = .ok document ∧
      (document.get? "project" = none ∨ ∃ es, document.get? "project" = some (.table es) ∧
        (Toml.Value.table es).get? "dependencies" = none)
  | .script => ∃ module new line?, extendScript content s.file ds = .ok (module, new, line?) ∧
      ¬ (Path.name s.file = "setup.py" ∧ ∃ call ∈ module.met, ∃ arg, Extends (Facts.of module) call arg)
  | .config => True

variable {fs : Files} {dir new : String} {s : Store} {ds : List Dependency} {content : Option Content}

lemma dependencyArray_eq_none_iff {document : Toml.Value} : dependencyArray document = .ok none ↔
    document.get? "project" = none ∨ ∃ es, document.get? "project" = some (.table es) ∧
      (Toml.Value.table es).get? "dependencies" = none := by
  rw [dependencyArray]
  split
  next hproject => simp [hproject]
  next project hproject =>
    split
    next es =>
      split
      next hnone => simp [hproject, hnone]
      next hsome => simp [hproject, hsome]
      next hsome => simp [hproject, hsome]
      next hsome => simp [hproject, hsome]
    next hother =>
      simp [hproject]
      exact fun es hes => absurd hes (hother es)

lemma Plan.result_go_ne {change : Except Fault ChangeSet} : (go change new).result ≠ .ok none := by
  cases change <;> exact nofun

lemma result_plan_iff : (s.plan content dir ds).result = .ok none ↔ NoPlace s content ds := by
  rw [Store.plan, NoPlace]
  cases s.kind with
  | listing =>
    dsimp only
    rw [planListing]
    cases content with
    | none => exact iff_of_true rfl fun _ h => by cases h
    | some content =>
      cases content with
      | bytes bytes => exact iff_of_true rfl fun _ h => by cases h
      | text text =>
        refine iff_of_false (fun h => ?_) fun h => h text rfl
        rw [readText] at h
        dsimp only at h
        split at h
        · cases h
        · exact Plan.result_go_ne h
  | toml =>
    simp only [← dependencyArray_eq_none_iff]
    constructor
    · intro h
      rw [planToml] at h
      split at h
      · cases h
      next text hplace =>
        obtain ⟨text', htext, hplace⟩ := of_bind hplace
        split at hplace
        · cases hplace
        next document hread =>
          obtain ⟨o, ho, hplace⟩ := of_bind hplace
          cases hplace
          exact ⟨text, document, htext, hread, ho⟩
      · exact absurd h Plan.result_go_ne
    · rintro ⟨text, document, htext, hread, harray⟩
      have hplace : tomlPlace content = .ok (text, none) := by
        rw [tomlPlace, htext]
        dsimp only [bind, Except.bind]
        rw [hread]
        dsimp only
        rw [harray]
        rfl
      rw [planToml, hplace]
      rfl
  | script =>
    dsimp only
    rw [planScript]
    constructor
    · intro h
      split at h
      · cases h
      next module new hextend =>
        exact ⟨module, new, none, hextend, fun hplace => by cases (isSome_of_extendScript hextend).2 hplace⟩
      · exact absurd h Plan.result_go_ne
    · rintro ⟨module, new, line?, hextend, hno⟩
      cases line? with
      | none => rw [hextend]; rfl
      | some line => exact absurd ((isSome_of_extendScript hextend).1 rfl) hno
  | config => exact iff_of_true rfl trivial

lemma addNew_eq_nil_iff : (s.addNew ds).2 = [] ↔ ∀ d ∈ ds, s.lists d.requirement = true := by
  constructor
  · intro h d hd
    by_contra hnot
    obtain ⟨e, he, -⟩ := Store.exists_mem_addNew hd (Bool.eq_false_iff.2 hnot)
    rw [h] at he
    cases he
  · intro h
    refine List.eq_nil_iff_forall_not_mem.2 fun d hd => ?_
    obtain ⟨hmem, hnot⟩ := Store.mem_of_mem_addNew hd
    rw [h d hmem] at hnot
    cases hnot

lemma addNew_eq_self_iff : (s.addNew ds).1 = s ↔ ∀ d ∈ ds, s.lists d.requirement = true := by
  rw [← addNew_eq_nil_iff, addNew_news]
  constructor
  · intro h
    simpa using congrArg Store.requirements h
  · intro h
    dsimp only at h ⊢
    rw [h, List.map_nil, List.append_nil]

lemma write_of_lists {isTrial : Bool} (hkind : s.kind ≠ .config) (h : ∀ d ∈ ds, s.lists d.requirement = true) :
    write fs dir s ds isTrial = { result := .ok none, store := s, files := fs } := by
  rw [write_of_nothing hkind (addNew_eq_nil_iff.2 h), addNew_eq_self_iff.2 h]

/-- **Traces of attempts.** An attempt that comes to nothing always leaves the files alone. It leaves no trace in the store
either if and only if the store takes nothing at all, all that was offered is listed, or the file has a place. And
whatever came of it, what was offered is not taken in later. -/
theorem traceless_iff (fs : Files) (dir : String) (s : Store) (ds : List Dependency) (isTrial : Bool) :
    ((write fs dir s ds isTrial).result = .ok none → (write fs dir s ds isTrial).files = fs) ∧
      (((write fs dir s ds isTrial).result = .ok none → (write fs dir s ds isTrial).store = s) ↔
        s.kind = .config ∨ (∀ d ∈ ds, s.lists d.requirement = true) ∨ ¬ NoPlace s (fs.get? s.file) (s.addNew ds).2) ∧
      ∀ fs' dir' es isTrial', s.kind ≠ .config → es ⊆ ds → write fs' dir' (write fs dir s ds isTrial).store es isTrial' =
          { result := .ok none, store := (write fs dir s ds isTrial).store, files := fs' } := by
  refine ⟨files_of_none, ?_, fun fs' dir' es isTrial' hkind hes => ?_⟩
  · by_cases hkind : s.kind = .config
    · exact iff_of_true (fun _ => by rw [write_of_config hkind]) (.inl hkind)
    · by_cases hlists : ∀ d ∈ ds, s.lists d.requirement = true
      · exact iff_of_true (fun _ => by rw [write_of_lists hkind hlists]) (.inr (.inl hlists))
      · rw [write_of_new hkind (mt addNew_eq_nil_iff.1 hlists), result_plan_iff, addNew_eq_self_iff]
        simp [hkind, hlists]
  · refine write_of_lists ?_ fun e he => ?_ <;> rw [store_write, if_neg hkind]
    · rwa [(addNew_eq s ds).1]
    · exact Store.lists_addNew (hes he)

/-- A project file without a list of packages. -/
def plainProject : Files := { entries := [("proj/pyproject.toml", .text "[project]\nname = \"p\"\n")] }

def plainStore : Store := ⟨.toml, "proj/pyproject.toml", [], []⟩

/-- The file has no place for packages, and the store does not stay as it was. -/
theorem plainProject_leaves_trace : ¬ ((write plainProject "proj" plainStore [.security] false).result = .ok none →
    (write plainProject "proj" plainStore [.security] false).store = plainStore) := by
  rw [(traceless_iff plainProject "proj" plainStore [.security] false).2.1]
  have hcheck : ((Toml.read "[project]\nname = \"p\"\n").toOption.bind fun d => (dependencyArray d).toOption.map
      Option.isNone) = some true := by decide +kernel
  obtain ⟨d, hread, hcheck⟩ := Option.bind_eq_some_iff.1 hcheck
  have harray : dependencyArray d = .ok none := by
    cases h : dependencyArray d <;> simp_all [Except.toOption]
  have hplace : NoPlace plainStore (plainProject.get? plainStore.file) (plainStore.addNew [.security]).2 := by
    refine ⟨"[project]\nname = \"p\"\n", d, by decide +kernel, ?_, dependencyArray_eq_none_iff.1 harray⟩
    cases h : Toml.read "[project]\nname = \"p\"\n" <;> simp_all [Except.toOption]
  exact fun h => h.elim (by decide) fun h => h.elim (by decide +kernel) fun h => h hplace

end Mender.Project
