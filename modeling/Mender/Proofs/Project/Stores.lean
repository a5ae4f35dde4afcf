import Mender.Project.Write
import Mender.Proofs.Files.Paths
import Mender.Proofs.Lists
import Mender.Proofs.Outcomes

/-!
# Stores and the requirements they list

Whether requirements ask for the same is an equivalence. A store that packages are offered to lists all of them
afterwards, and the packages that are new to it are those that it did not list:

* `lists_addNew` — what is offered is listed afterwards;
* `mem_of_mem_addNew` and `exists_mem_addNew` — new are the packages that were offered and not listed.

An attempt to write that comes to nothing leaves all files as they are (`files_of_none`).
-/

namespace Mender

open List Mender.Path

namespace Requirement

variable {a b c : Requirement}

lemma sameMembers_iff {as bs : List String} : sameMembers as bs = true ↔ ∀ a, a ∈ as ↔ a ∈ bs := by
  simp only [sameMembers, Bool.and_eq_true, all_eq_true, contains_iff_mem]
  exact ⟨fun h a => ⟨h.1 a, h.2 a⟩, fun h => ⟨fun a => (h a).1, fun a => (h a).2⟩⟩

lemma agrees_iff : a.agrees b = true ↔ canonicalName a.name = canonicalName b.name ∧ (∀ e, e ∈ a.extras ↔ e ∈ b.extras) ∧
      (∀ v, v ∈ a.versions.map canonicalVersion ↔ v ∈ b.versions.map canonicalVersion) ∧
      a.url = b.url ∧ a.condition = b.condition := by
  simp only [agrees, Bool.and_eq_true, beq_iff_eq, sameMembers_iff, and_assoc]

lemma agrees_refl (a : Requirement) : a.agrees a = true := agrees_iff.2 ⟨rfl, fun _ => .rfl, fun _ => .rfl, rfl, rfl⟩

lemma agrees_symm (h : a.agrees b = true) : b.agrees a = true := by
  obtain ⟨hname, hextras, hversions, hurl, hcondition⟩ := agrees_iff.1 h
  exact agrees_iff.2 ⟨hname.symm, fun e => (hextras e).symm, fun v => (hversions v).symm, hurl.symm, hcondition.symm⟩

lemma agrees_trans (h : a.agrees b = true) (h' : b.agrees c = true) : a.agrees c = true := by
  obtain ⟨hname, hextras, hversions, hurl, hcondition⟩ := agrees_iff.1 h
  obtain ⟨hname', hextras', hversions', hurl', hcondition'⟩ := agrees_iff.1 h'
  exact agrees_iff.2 ⟨hname.trans hname', fun e => (hextras e).trans (hextras' e),
    fun v => (hversions v).trans (hversions' v), hurl.trans hurl', hcondition.trans hcondition'⟩

end Requirement

namespace Project

variable {c : ChangeSet} {e : Store}

namespace Store

variable {s : Store} {ds : List Dependency} {d : Dependency} {r q : Requirement}

lemma lists_of_agrees (h : s.lists r = true) (hr : r.agrees q = true) : s.lists q = true := by
  obtain ⟨e, he, her⟩ := any_eq_true.1 h
  exact any_eq_true.2 ⟨e, he, Requirement.agrees_trans her hr⟩

lemma lists_insert_iff : (s.insert q).lists r = true ↔ s.lists r = true ∨ q.agrees r = true := by
  rw [insert]
  split
  next hq => exact ⟨.inl, fun h => h.elim id (lists_of_agrees hq)⟩
  next => simp [lists]

lemma lists_addNew_iff : (s.addNew ds).1.lists r = true ↔ s.lists r = true ∨ ∃ d ∈ ds, d.requirement.agrees r = true := by
  induction ds generalizing s with
  | nil => simp [addNew]
  | cons d ds ih =>
    rw [addNew, exists_mem_cons_iff, ← or_assoc, ← lists_insert_iff]
    split
    next hd => rw [ih, insert, if_pos hd]
    next => exact ih

lemma lists_addNew (hd : d ∈ ds) : (s.addNew ds).1.lists d.requirement = true :=
  lists_addNew_iff.2 (.inr ⟨d, hd, d.requirement.agrees_refl⟩)

lemma fst_addNew :
    (s.addNew ds).1 = { s with requirements := s.requirements ++ (s.addNew ds).2.map (·.requirement) } := by
  induction ds generalizing s with
  | nil => simp [addNew]
  | cons d ds ih =>
    rw [addNew]
    split
    next => exact ih
    next hd =>
      dsimp only
      rw [ih, insert, if_neg hd]
      simp

lemma mem_of_mem_addNew (hd : d ∈ (s.addNew ds).2) : d ∈ ds ∧ s.lists d.requirement = false := by
  induction ds generalizing s with
  | nil => cases hd
  | cons e ds ih =>
    rw [addNew] at hd
    split at hd
    · exact ⟨mem_cons_of_mem _ (ih hd).1, (ih hd).2⟩
    · rename_i he
      rcases mem_cons.1 hd with rfl | hd
      · exact ⟨mem_cons_self .., by simpa using he⟩
      · obtain ⟨hmem, hnot⟩ := ih hd
        refine ⟨mem_cons_of_mem _ hmem, Bool.eq_false_iff.2 fun hlists => ?_⟩
        rw [lists_insert_iff.2 (.inl hlists)] at hnot
        cases hnot

lemma exists_mem_addNew (hd : d ∈ ds) (h : s.lists d.requirement = false) :
    ∃ e ∈ (s.addNew ds).2, e.requirement.agrees d.requirement = true := by
  have hlists := @lists_addNew s _ _ hd
  rw [fst_addNew] at hlists
  obtain ⟨q, hq, hag⟩ := any_eq_true.1 hlists
  rcases mem_append.1 hq with hq | hq
  · have hlisted : s.lists d.requirement = true := any_eq_true.2 ⟨q, hq, hag⟩
    rw [h] at hlisted
    cases hlisted
  · obtain ⟨e, he, rfl⟩ := mem_map.1 hq
    exact ⟨e, he, hag⟩

end Store

/-! ## Carrying out plans -/

variable {fs : Files} {dir file text p diff : String} {s : Store} {ds : List Dependency} {isTrial : Bool} {plan : Plan}

lemma Plan.carryOut_of_none (h : plan.result = .ok none) : plan.carryOut fs file isTrial = fs := by
  match plan with
  | .stop _ => rfl
  | .go (.error f) _ => cases h
  | .go (.ok c) _ => cases h

lemma Plan.carryOut_trial (plan : Plan) : plan.carryOut fs file true = fs := by
  cases plan <;> rfl

lemma Plan.eq_go_of_some (h : plan.result = .ok (some c)) : ∃ text, plan = .go (.ok c) text := by
  match plan with
  | .stop none => cases h
  | .stop (some f) => cases h
  | .go (.error f) _ => cases h
  | .go (.ok c') text =>
    cases h
    exact ⟨text, rfl⟩

lemma readText_eq_ok_iff : readText (fs.get? file) = .ok text ↔ fs.readText? file = some text := by
  rw [Files.readText?]
  cases fs.get? file with
  | none => exact ⟨nofun, nofun⟩
  | some content =>
    cases content with
    | text t => exact ⟨fun h => congrArg some (Except.ok.inj h), fun h => congrArg Except.ok (Option.some.inj h)⟩
    | bytes b => exact ⟨nofun, nofun⟩

/-- What changes do to packages. -/
def actionsOf (cs : List Change) : List PackageAction := cs.flatMap (·.actions)

lemma actionsOf_additions {ls : List Int} {cs : List Change} (h : additions ds ls = .ok cs) :
    actionsOf cs = ds.map fun d => .added d.requirement.text := by
  induction ds generalizing ls cs with
  | nil =>
    cases h
    rfl
  | cons d ds ih =>
    cases ls with
    | nil => cases h
    | cons l ls =>
      obtain ⟨cs', hcs', h⟩ := of_bind h
      cases h
      exact congrArg (PackageAction.added d.requirement.text :: ·) (ih hcs')

lemma actionsOf_report {changes : Except Fault (List Change)} {as : List PackageAction}
    (h : report dir file diff changes = .ok c) (hchanges : ∀ cs, changes = .ok cs → actionsOf cs = as) :
    actionsOf c.changes = as := by
  obtain ⟨cs, hcs, h⟩ := of_bind h
  obtain ⟨p, -, h⟩ := of_bind h
  cases h
  exact hchanges cs hcs

lemma actionsOf_plan {content : Option Content} (h : (s.plan content dir ds).result = .ok (some c)) :
    actionsOf c.changes = ds.map fun d => .added d.requirement.text := by
  obtain ⟨text, h⟩ := Plan.eq_go_of_some h
  rw [Store.plan] at h
  split at h
  · rw [planListing] at h
    split at h
    · cases h
    · dsimp only at h
      split at h
      · cases h
      · exact actionsOf_report (Plan.go.inj h).1 fun cs hcs => actionsOf_additions hcs
  · rw [planToml] at h
    split at h
    · cases h
    · cases h
    · refine actionsOf_report (Plan.go.inj h).1 fun cs hcs => ?_
      obtain ⟨ls, -, hcs⟩ := of_bind hcs
      exact actionsOf_additions hcs
  · rw [planScript] at h
    split at h
    · cases h
    · cases h
    · refine actionsOf_report (Plan.go.inj h).1 fun cs hcs => ?_
      obtain rfl := Except.ok.inj hcs
      rw [actionsOf, flatMap_map]
      exact (map_eq_flatMap ..).symm
  · cases h

lemma write_of_config (h : s.kind = .config) :
    write fs dir s ds isTrial = { result := .ok none, store := s, files := fs } := by
  rw [write, if_pos (by simp [h])]

lemma write_of_nothing (h : s.kind ≠ .config) (hnew : (s.addNew ds).2 = []) :
    write fs dir s ds isTrial = { result := .ok none, store := (s.addNew ds).1, files := fs } := by
  rw [write, if_neg (by simpa using h)]
  simp [hnew]

lemma write_of_new (h : s.kind ≠ .config) (hnew : (s.addNew ds).2 ≠ []) : write fs dir s ds isTrial =
      { result := (s.plan (fs.get? s.file) dir (s.addNew ds).2).result
        store := (s.addNew ds).1
        files := (s.plan (fs.get? s.file) dir (s.addNew ds).2).carryOut fs s.file isTrial
        log := entries s.kind (s.plan (fs.get? s.file) dir (s.addNew ds).2).result } := by
  rw [write, if_neg (by simpa using h)]
  simp [hnew]

/-- What a store is about to do. It does nothing if it takes no packages or lists them all. -/
def Store.intent (s : Store) (content : Option Content) (dir : String) (ds : List Dependency) : Plan :=
  if s.kind = .config ∨ (s.addNew ds).2 = [] then .stop none else s.plan content dir (s.addNew ds).2

lemma write_eq : (write fs dir s ds isTrial).result = (s.intent (fs.get? s.file) dir ds).result ∧
    (write fs dir s ds isTrial).files = (s.intent (fs.get? s.file) dir ds).carryOut fs s.file isTrial := by
  rw [Store.intent]
  by_cases hkind : s.kind = .config
  · rw [write_of_config hkind, if_pos (.inl hkind)]
    exact ⟨rfl, rfl⟩
  · by_cases hnew : (s.addNew ds).2 = []
    · rw [write_of_nothing hkind hnew, if_pos (.inr hnew)]
      exact ⟨rfl, rfl⟩
    · rw [write_of_new hkind hnew, if_neg (not_or.2 ⟨hkind, hnew⟩)]
      exact ⟨rfl, rfl⟩

lemma files_of_none (h : (write fs dir s ds isTrial).result = .ok none) : (write fs dir s ds isTrial).files = fs := by
  rw [write_eq.2]
  exact Plan.carryOut_of_none (write_eq.1 ▸ h)

lemma store_write : (write fs dir s ds isTrial).store = if s.kind = .config then s else (s.addNew ds).1 := by
  by_cases hkind : s.kind = .config
  · rw [write_of_config hkind, if_pos hkind]
  · rw [if_neg hkind]
    by_cases hnew : (s.addNew ds).2 = []
    · rw [write_of_nothing hkind hnew]
    · rw [write_of_new hkind hnew]

lemma lists_write_of_lists {r : Requirement} (h : s.lists r = true) : (write fs dir s ds isTrial).store.lists r = true := by
  rw [store_write]
  split
  · exact h
  · exact Store.lists_addNew_iff.2 (.inl h)

lemma lists_write {d : Dependency} (hd : d ∈ ds) (h : (write fs dir s ds isTrial).result ≠ .ok none) :
    (write fs dir s ds isTrial).store.lists d.requirement = true := by
  have hkind : s.kind ≠ .config := fun hkind => h (by rw [write_of_config hkind])
  rw [store_write, if_neg hkind]
  exact Store.lists_addNew hd

lemma actionsOf_write (h : (write fs dir s ds isTrial).result = .ok (some c)) :
    actionsOf c.changes = (s.addNew ds).2.map fun d => .added d.requirement.text := by
  rw [write_eq.1, Store.intent] at h
  split at h
  · cases h
  · exact actionsOf_plan h

/-! ## The stores of a project -/

lemma foldl_insert (rs : List Requirement) :
    (rs.foldl Store.insert e).kind = e.kind ∧ (rs.foldl Store.insert e).file = e.file := by
  induction rs generalizing e with
  | nil => exact ⟨rfl, rfl⟩
  | cons r rs ih =>
    rw [foldl_cons, ih.1, ih.2, Store.insert]
    split <;> exact ⟨rfl, rfl⟩

lemma addNew_eq (e : Store) (ds : List Dependency) : (e.addNew ds).1.kind = e.kind ∧ (e.addNew ds).1.file = e.file := by
  rw [Store.fst_addNew]
  exact ⟨rfl, rfl⟩

lemma of_needed {α : Type} {o : Option α} {a : α} (h : needed o = .ok a) : o = some a := by
  cases o <;> cases h
  rfl

variable {kind : StoreKind} {texts : List String} {versions : List Json}

section

variable (h : needed (Store.ofTexts? kind file texts versions) = .ok e)
include h

lemma exists_of_ofTexts :
    ∃ rs, texts.mapM Requirement.parse? = some rs ∧ rs.foldl Store.insert ⟨kind, file, [], versions⟩ = e := by
  obtain ⟨rs, hrs, h⟩ := Option.bind_eq_some_iff.1 (of_needed h)
  exact ⟨rs, hrs, Option.some.inj h⟩

lemma eq_of_ofTexts : e.kind = kind ∧ e.file = file := by
  obtain ⟨rs, -, rfl⟩ := exists_of_ofTexts h
  exact foldl_insert rs

end

lemma eq_of_readStore (h : readStore fs kind file = .ok e) : e.kind = kind ∧ e.file = file := by
  cases kind with
  | listing =>
    obtain ⟨c, -, h⟩ := of_bind h
    rw [readListing] at h
    split at h
    · cases h
    · exact eq_of_ofTexts h
  | toml =>
    obtain ⟨text, -, h⟩ := of_bind h
    obtain ⟨document, -, h⟩ := of_bind h
    dsimp only at h
    by_cases huniform : document.isUniform = true
    · rw [if_neg (by simp [huniform])] at h
      split at h
      · cases h
      · rename_i project _
        by_cases hsome : saysSomething project = true
        · rw [if_neg (by simp [hsome])] at h
          split at h
          · split at h <;>
              (obtain ⟨texts, -, h⟩ := of_bind h; exact eq_of_ofTexts h)
          · cases h
        · rw [if_pos (by simp [hsome])] at h
          cases h
    · rw [if_pos (by simp [huniform])] at h
      cases h
  | config =>
    obtain ⟨text, -, h⟩ := of_bind h
    obtain ⟨document, -, h⟩ := of_bind h
    obtain ⟨own, -, h⟩ := of_bind h
    split at h
    · cases h
    · obtain ⟨required, -, h⟩ := of_bind h
      obtain ⟨versions, -, h⟩ := of_bind h
      exact eq_of_ofTexts h
  | script =>
    obtain ⟨text, -, h⟩ := of_bind h
    obtain ⟨module, -, h⟩ := of_bind h
    exact eq_of_ofTexts h

lemma file_of_mem_stores (h : e ∈ stores fs dir) : e.file ∈ filesNamed fs dir e.kind.fileName := by
  obtain ⟨⟨f, r⟩, hf, hr⟩ := mem_filterMap.1 h
  obtain ⟨kind, -, hf⟩ := mem_flatMap.1 hf
  obtain ⟨f', hf', heq⟩ := mem_map.1 hf
  obtain ⟨rfl, rfl⟩ := Prod.mk.inj heq
  obtain ⟨hkind, hfile⟩ := eq_of_readStore (of_toOption hr)
  rw [hkind, hfile]
  exact hf'

/-- Does the file of a store have the name for its kind? -/
def Store.IsNamed (e : Store) : Prop := name e.file = e.kind.fileName

lemma isNamed_of_mem_stores (h : e ∈ stores fs dir) : e.IsNamed := by
  have hfound := mem_filter.1 ((perm_sortBy _ _).mem_iff.1 (file_of_mem_stores h))
  simp only [Bool.and_eq_true, beq_iff_eq] at hfound
  exact hfound.2.1

lemma Store.IsNamed.write (h : e.IsNamed) (fs : Files) (dir : String) (ds : List Dependency) (isTrial : Bool) :
    (write fs dir e ds isTrial).store.IsNamed := by
  rw [store_write]
  split
  · exact h
  · rw [Store.IsNamed, (addNew_eq e ds).1, (addNew_eq e ds).2]
    exact h

lemma Store.IsNamed.eq_script (he : e.IsNamed) (hp : suffix p = ".py")
    (h : resolved e.file = resolved p) : e.kind = .script := by
  have hdown : name e.file ≠ ".." := by
    rw [he]
    cases e.kind <;> decide
  have hdown' : name p ≠ ".." := by
    intro hname
    rw [suffix, hname] at hp
    exact absurd hp (by decide +kernel)
  rw [suffix, ← name_resolved hdown', ← h, name_resolved hdown, he] at hp
  cases hkind : e.kind with
  | script => rfl
  | toml | listing | config =>
    rw [hkind] at hp
    exact absurd hp (by decide +kernel)

end Project

end Mender
