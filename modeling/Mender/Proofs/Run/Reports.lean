import Mender.Proofs.Lists
import Mender.Proofs.Registry
import Mender.Proofs.Run.Phases
import Mender.Proofs.Text.Lines

/-!
# What a report lists

A report has one entry for each codemod that was asked for, and tells in it what was put on record under the codemod's id.
The record keeps all that belongs to one id together (`Record.Distinct`), so a report lists everything once, as long as
no codemod is asked for twice.

* `lists_once_iff` — when a report lists each codemod once.
-/

namespace Mender.Run

open CommandLine List

variable {α : Type} {cs : List Registered} {r : Record}

/-! ## Shelves -/

namespace Shelf

variable {s : Shelf α}

def Distinct (s : Shelf α) : Prop := (s.map (·.1)).Nodup

lemma distinct_change (key : String) (f : List α → List α) : (s.change key f).Distinct ↔ s.Distinct := by
  rw [Distinct, Distinct, change]
  split
  next =>
    have hkeys : ((·.1) ∘ fun e : String × List α => if e.1 == key then (key, f e.2) else e) = (·.1) := by
      funext e
      by_cases he : e.1 = key <;> simp [he]
    rw [map_map, hkeys]
  next hnone =>
    rw [Bool.not_eq_true, any_eq_false] at hnone
    rw [map_append, map_singleton, ← concat_eq_append, nodup_concat]
    refine and_iff_right fun hmem => ?_
    obtain ⟨e, he, hkey⟩ := mem_map.1 hmem
    exact hnone e he (beq_iff_eq.2 hkey)

lemma get_eq_of_distinct (h : s.Distinct) (key : String) : s.get key = (s.filter (·.1 == key)).flatMap (·.2) := by
  induction s with
  | nil => rfl
  | cons e s ih =>
    obtain ⟨hnot, h⟩ := nodup_cons.1 h
    by_cases hkey : e.1 = key
    · have hrest : s.filter (·.1 == key) = [] := by
        rw [filter_eq_nil_iff]
        intro e' he' hsame
        exact hnot (mem_map.2 ⟨e', he', (beq_iff_eq.1 hsame).trans hkey.symm⟩)
      simp [get, hkey, hrest]
    · have hih := ih h
      simp only [get] at hih
      simp [get, hkey, hih]

/-- What is kept under some keys is all that is kept, each thing once, if there is nothing under other keys. -/
lemma perm_flatMap_get {keys : List String} (h : s.Distinct) (hkeys : keys.Nodup)
    (hrest : ∀ key ∉ keys, s.get key = []) : (keys.flatMap s.get).Perm s.all := by
  have hget : keys.flatMap s.get = (keys.flatMap fun key => s.filter (·.1 == key)).flatMap (·.2) := by
    rw [flatMap_assoc]
    exact flatMap_congr fun key _ => get_eq_of_distinct h key
  have hnone : (s.filter fun e => ! decide (e.1 ∈ keys)).flatMap (·.2) = [] := by
    rw [flatMap_eq_nil_iff]
    intro e he
    obtain ⟨he, hkey⟩ := mem_filter.1 he
    have hempty := hrest e.1 (by simpa using hkey)
    rw [get_eq_of_distinct h, flatMap_eq_nil_iff] at hempty
    exact hempty e (mem_filter.2 ⟨he, beq_self_eq_true _⟩)
  have hall := (filter_append_perm (fun e => decide (e.1 ∈ keys)) s).flatMap_right (·.2)
  rw [flatMap_append, hnone, append_nil] at hall
  rw [hget]
  exact ((perm_flatMap_filter (·.1) s hkeys).flatMap_right _).trans hall

end Shelf

/-! ## Entries -/

/-- The record keeps all that belongs to one id together. -/
def Record.Distinct (r : Record) : Prop := r.results.Distinct ∧ r.failures.Distinct

lemma overlooks_distinct (id : String) : Overlooks id Record.Distinct where
  addFile r f := by
    simp [Record.Distinct, Record.addFile, Record.addDependencies, Record.addFailures, Record.addResults,
      Shelf.distinct_change]
  addResults r cs := by simp [Record.Distinct, Record.addResults, Shelf.distinct_change]

/-- What the entries of a report list in one of their places. -/
def listedAt (place : String) (entries : List Json) : List Json :=
  entries.flatMap fun e => match e.get? place with
    | some (.arr items) => items
    | _ => []

/-- A report lists all that is on record just once, and no two of its entries are about the same codemod. -/
structure ListsOnce (r : Record) (entries : List Json) : Prop where
  changeSets : (listedAt "changeset" entries).Perm (r.results.all.map (·.toJson))
  failures : (listedAt "failedFiles" entries).Perm (r.failures.all.map .str)
  ids : (entries.map (·.get? "codemod")).Nodup

lemma perm_listedAt {place : String} {s : Shelf α} {f : α → Json}
    (hentry : ∀ c ∈ cs, (r.entry c).get? place = some (.arr ((s.get c.id).map f))) (h : s.Distinct)
    (hnodup : (cs.map (·.id)).Nodup) (hrest : ∀ id ∉ cs.map (·.id), s.get id = []) :
    (listedAt place (r.compile cs)).Perm (s.all.map f) := by
  have hperm := Shelf.perm_flatMap_get h hnodup hrest
  rw [flatMap_map] at hperm
  have hlisted : listedAt place (r.compile cs) = (cs.flatMap fun c => s.get c.id).map f := by
    rw [listedAt, Record.compile, flatMap_map, map_flatMap]
    exact flatMap_congr fun c hc => by rw [hentry c hc]
  rw [hlisted]
  exact hperm.map f

lemma listsOnce_compile (h : r.Distinct)
    (hrest : ∀ id ∉ cs.map (·.id), told r id = ([], [])) : ListsOnce r (r.compile cs) ↔ (cs.map (·.id)).Nodup := by
  have hids : (r.compile cs).map (·.get? "codemod") = (cs.map (·.id)).map fun id => some (.str id) := by
    rw [Record.compile, map_map, map_map]
    rfl
  have hinjective : Function.Injective fun id => some (Json.str id) := by
    intro id id' heq
    cases heq
    rfl
  refine ⟨fun honce => ?_, fun hnodup => ⟨?_, ?_, ?_⟩⟩
  · have hnodup := honce.ids
    rwa [hids, nodup_map_iff hinjective] at hnodup
  · exact perm_listedAt (fun _ _ => rfl) h.1 hnodup fun id hid => congrArg Prod.fst (hrest id hid)
  · exact perm_listedAt (fun _ _ => rfl) h.2 hnodup fun id hid => congrArg Prod.snd (hrest id hid)
  · rwa [hids, nodup_map_iff hinjective]

/-! ## Whole runs -/

variable {registry : Registry} {setting : Setting} {settings : Settings} {words : List String} {elapsed : Nat}
  {fs : Files} {s : Session} {wanted : List String}

lemma exists_of_perform (h : (perform registry setting settings words elapsed).on { files := fs } = (.ok (), s)) :
    ∃ cs, registry.select (settings.included.getD []) (settings.excluded.getD []) = .ok cs ∧ s.record.Distinct ∧
      (∀ id ∉ cs.map (·.id), told s.record id = ([], [])) ∧
      ∃ s₁ s₂, (writeReport settings words elapsed (s.record.compile cs)).on s₁ = (.ok (), s₂) ∧ s₂.files = s.files := by
  rw [perform] at h
  obtain ⟨⟨cs, files, known⟩, s₀, hstart, h⟩ := exists_of_on_bind h
  obtain ⟨hselect, -, -, -, hrecord⟩ := of_startRun hstart
  obtain ⟨_, s₁, happly, h⟩ := exists_of_on_bind h
  rw [on_bind_of_ok (on_get s₁)] at h
  obtain ⟨s₂, hwrite, hsame⟩ := on_writeReport settings words elapsed (s₁.record.compile cs) s₁
  rw [on_bind_of_ok hwrite] at h
  cases h
  refine ⟨cs, hselect, ?_, fun id hid => ?_, s₁, s₂, ?_, rfl⟩
  · have hkept := (Overlooks.keeps_applyCodemods fun c _ => overlooks_distinct c.id).view_eq happly
    rw [hsame, hkept, hrecord]
    exact ⟨nodup_nil, nodup_nil⟩
  · have hne {c : Registered} (hc : c ∈ cs) : id ≠ c.id := fun heq => hid (heq ▸ mem_map_of_mem hc)
    have hkept := (Overlooks.keeps_applyCodemods fun c hc => overlooks_told (hne hc)).view_eq happly
    rw [hsame, hkept, hrecord]
    rfl
  · rw [hsame]
    exact hwrite

lemma of_codemods {c : Choice} {value : String} (h : codemods registry c value = .ok wanted) :
    wanted ≠ [] ∧ wanted.Nodup := by
  have hwanted : wanted = listed value := by
    rw [codemods] at h
    split at h
    · cases h
      rfl
    · cases h
  rw [hwanted, listed]
  refine ⟨fun hnil => ?_, nodup_eraseDups⟩
  obtain ⟨piece, hpiece⟩ := exists_mem_of_ne_nil _ (Text.piecesOf_ne_nil ',' value.toList)
  have hmem : String.ofList piece ∈ (Text.pieces ',' value).eraseDups := mem_eraseDups.2 (mem_map_of_mem hpiece)
  rw [hnil] at hmem
  cases hmem

/-- **A report lists everything once** just if no two names of the list are names of the same codemod. -/
theorem lists_once_iff {value : String} (hvalue : codemods registry .include_ value = .ok wanted)
    (hwanted : settings.included = some wanted)
    (hrun : (perform registry setting settings words elapsed).on { files := fs } = (.ok (), s)) :
    ∃ cs, wanted.mapM registry.find = .ok cs ∧
      (∃ s₁ s₂, (writeReport settings words elapsed (s.record.compile cs)).on s₁ = (.ok (), s₂) ∧ s₂.files = s.files) ∧
      (ListsOnce s.record (s.record.compile cs) ↔ (cs.map (·.id)).Nodup) ∧
      (registry = Catalogue.registry → (ListsOnce s.record (s.record.compile cs) ↔
        ∀ name ∈ wanted, "pixee:python/" ++ name ∉ wanted)) := by
  obtain ⟨hne, hnodup⟩ := of_codemods hvalue
  obtain ⟨cs, hselect, hdistinct, hrest, hreport⟩ := exists_of_perform hrun
  have hfound : wanted.mapM registry.find = .ok cs := by
    rwa [hwanted, Registry.select, Option.getD_some, if_neg (by simpa using hne)] at hselect
  have honce := listsOnce_compile hdistinct hrest
  refine ⟨cs, hfound, hreport, honce, fun hcatalogue => ?_⟩
  subst hcatalogue
  exact honce.trans (Catalogue.nodup_ids_iff hnodup hfound)

/-- A codemod that is asked for by its name and by its id. -/
def twiceNamed : Settings := { included := some ["use-generator", "pixee:python/use-generator"], pathExcludes := [] }

def listProject : Files := Files.putText {} "proj/a.py" "any([x for x in y])\n"

/-- Whoever asks for a codemod by its name and by its id is told of it twice. -/
theorem twiceNamed_not_once : codemods Catalogue.registry .include_ "use-generator,pixee:python/use-generator" =
        .ok ["use-generator", "pixee:python/use-generator"] ∧
      ∃ s cs, (perform Catalogue.registry { dir := "proj" } twiceNamed [] 0).on { files := listProject } = (.ok (), s) ∧
        (twiceNamed.included.getD []).mapM Catalogue.registry.find = .ok cs ∧
        ¬ ListsOnce s.record (s.record.compile cs) := by
  have hlisted : listed "use-generator,pixee:python/use-generator" = ["use-generator", "pixee:python/use-generator"] := by
    decide +kernel
  have hvalue : codemods Catalogue.registry .include_ "use-generator,pixee:python/use-generator" =
      .ok ["use-generator", "pixee:python/use-generator"] := by
    rw [codemods, hlisted]
    exact if_pos (by decide +kernel)
  have hok : ((perform Catalogue.registry { dir := "proj" } twiceNamed [] 0).on { files := listProject }).1.isOk = true := by
    decide +kernel
  cases hrun : (perform Catalogue.registry { dir := "proj" } twiceNamed [] 0).on { files := listProject } with
  | mk r s =>
    rw [hrun] at hok
    cases r with
    | error f => cases hok
    | ok u =>
      obtain ⟨cs, hfound, -, -, hiff⟩ := lists_once_iff hvalue rfl hrun
      exact ⟨hvalue, s, cs, rfl, hfound, fun honce => (hiff rfl).1 honce "use-generator" (by decide) (by decide)⟩

end Mender.Run
