import Mathlib.Data.List.Nodup
import Mender.Catalogue
import Mender.Proofs.Outcomes

/-!
# What a registry holds

A registry gives out the codemods that were put into it, and no others: `Registry.holds_of_select` says so of every way to
choose codemods, and `Catalogue.mem_all_of_select` of the registry that holds the catalogue. Without a choice all run but
those that are left out, and `Registry.select_sublist_iff` compares two lists of these.
-/

namespace Mender

open List Catalogue

variable {α : Type} {r : Registry} {key : String} {c : Registered} {wanted unwanted : List String} {cs : List Registered}

lemma mem_of_mem_putByKey {a : α} {es : List (String × α)} {e : String × α}
    (h : e ∈ putByKey key a es) : e = (key, a) ∨ e ∈ es := by
  rw [putByKey] at h
  split at h
  · obtain ⟨e', he', rfl⟩ := mem_map.1 h
    split
    · exact .inl rfl
    · exact .inr he'
  · rcases mem_append.1 h with h | h
    · exact .inr h
    · exact .inl (mem_singleton.1 h)

namespace Registry

def Holds (r : Registry) (key : String) (c : Registered) : Prop := (key, c) ∈ r.byName ++ r.byId

lemma eq_or_holds_of_add {c' : Registered} (h : (r.add c').Holds key c) :
    (c = c' ∧ (key = c.codemod.name ∨ key = c.id)) ∨ r.Holds key c := by
  rcases mem_append.1 h with h | h
  · rcases mem_of_mem_putByKey h with heq | h
    · cases heq
      exact .inl ⟨rfl, .inl rfl⟩
    · exact .inr (mem_append_left _ h)
  · rcases mem_of_mem_putByKey h with heq | h
    · cases heq
      exact .inl ⟨rfl, .inr rfl⟩
    · exact .inr (mem_append_right _ h)

lemma mem_or_holds_of_addAll {origin : String} {ds : List Codemod} (h : (r.addAll origin ds).Holds key c) :
    (c.origin = origin ∧ c.codemod ∈ ds ∧ (key = c.codemod.name ∨ key = c.id)) ∨ r.Holds key c := by
  induction ds generalizing r with
  | nil => exact .inr h
  | cons d ds ih =>
    rcases ih h with ⟨horigin, hmem, hkey⟩ | hholds
    · exact .inl ⟨horigin, mem_cons_of_mem _ hmem, hkey⟩
    · rcases eq_or_holds_of_add hholds with ⟨rfl, hkey⟩ | hholds
      · exact .inl ⟨rfl, mem_cons_self .., hkey⟩
      · exact .inr hholds

lemma holds_of_find (h : r.find key = .ok c) : r.Holds key c := by
  rw [find] at h
  split at h
  · rename_i key' c' hfind
    cases h
    obtain rfl : key' = key := by simpa using find?_some hfind
    exact mem_of_find?_eq_some hfind
  · cases h

lemma holds_of_select (h : r.select wanted unwanted = .ok cs) (hc : c ∈ cs) : ∃ key, r.Holds key c := by
  rw [select] at h
  split at h
  · cases h
    obtain ⟨e, he, rfl⟩ := mem_map.1 (mem_filter.1 hc).1
    exact ⟨e.1, mem_append_left _ he⟩
  · obtain ⟨key, -, hkey⟩ := exists_of_mem_mapM h hc
    exact ⟨key, holds_of_find hkey⟩

end Registry

namespace Catalogue

lemma of_holds (h : registry.Holds key c) : c.origin = "pixee" ∧ c.codemod ∈ all ∧ (key = c.codemod.name ∨ key = c.id) := by
  rcases Registry.mem_or_holds_of_addAll h with hmem | hnone
  · exact hmem
  · cases hnone

lemma mem_all_of_select (h : registry.select wanted unwanted = .ok cs) (hc : c ∈ cs) : c.codemod ∈ all := by
  obtain ⟨key, hkey⟩ := Registry.holds_of_select h hc
  exact (of_holds hkey).2.1

/-! ## Names and ids -/

def fullName (key : String) : String := if ':' ∈ key.toList then key else "pixee:python/" ++ key

lemma notMem_name_of_mem_all : ∀ d ∈ all, ':' ∉ d.name.toList := by
  decide +kernel

lemma fullName_append (name : String) : fullName ("pixee:python/" ++ name) = "pixee:python/" ++ name := by
  rw [fullName, if_pos]
  rw [String.toList_append]
  exact mem_append_left _ (by decide)

lemma exists_name_of_find (h : registry.find key = .ok c) :
    ∃ name : String, ':' ∉ name.toList ∧ c.id = "pixee:python/" ++ name ∧ c.id = fullName key := by
  obtain ⟨horigin, hmem, hkey⟩ := of_holds (Registry.holds_of_find h)
  have hplain := notMem_name_of_mem_all _ hmem
  have hid : c.id = "pixee:python/" ++ c.codemod.name := by
    rw [Registered.id, horigin]
    rfl
  refine ⟨_, hplain, hid, ?_⟩
  rcases hkey with rfl | rfl
  · rw [fullName, if_neg hplain, hid]
  · rw [hid, fullName_append]

/-- Different names lead to different codemods unless one of them is the other in full. -/
lemma nodup_ids_iff (hwanted : wanted.Nodup) (h : wanted.mapM registry.find = .ok cs) :
    (cs.map (·.id)).Nodup ↔ ∀ name ∈ wanted, "pixee:python/" ++ name ∉ wanted := by
  have hids : cs.map (·.id) = wanted.map fullName := by
    have hfound := mapM_eq_ok_iff.1 h
    clear h hwanted
    induction hfound with
    | nil => rfl
    | cons hc _ ih =>
      obtain ⟨-, -, -, hid⟩ := exists_name_of_find hc
      rw [map_cons, map_cons, ih, hid]
  rw [hids, nodup_map_iff_inj_on hwanted]
  constructor
  · intro hinj name hname hfull
    have hplain : ':' ∉ name.toList := by
      obtain ⟨c, -, hc⟩ := exists_mem_of_mapM h hfull
      obtain ⟨name', hplain, hid, hfull⟩ := exists_name_of_find hc
      rw [fullName_append, hid, String.append_right_inj] at hfull
      rwa [← hfull]
    have heq := hinj name hname _ hfull (by rw [fullName_append, fullName, if_neg hplain])
    have hlength := congrArg String.length heq
    rw [String.length_append] at hlength
    have hpositive : "pixee:python/".length = 13 := rfl
    omega
  · intro hnone name hname name' hname' heq
    rw [fullName, fullName] at heq
    split at heq <;> split at heq
    · exact heq
    · exact absurd (heq ▸ hname) (hnone name' hname')
    · exact absurd (heq ▸ hname') (hnone name hname)
    · exact (String.append_right_inj _).1 heq

end Catalogue

/-! ## Leaving codemods out -/

/-- Is a codemod named, by its name or its id? -/
def Registered.isAmong (c : Registered) (names : List String) : Bool := names.contains c.codemod.name || names.contains c.id

lemma filter_sublist_filter_iff {p q : α → Bool} {as : List α} :
    (as.filter p).Sublist (as.filter q) ↔ ∀ a ∈ as, p a = true → q a = true := by
  constructor
  · intro h a ha hp
    exact (mem_filter.1 (h.subset (mem_filter.2 ⟨ha, hp⟩))).2
  · intro h
    have hboth : as.filter p = (as.filter q).filter p := by
      rw [filter_filter]
      refine filter_congr fun a ha => ?_
      cases hp : p a
      · rfl
      · rw [h a ha hp, Bool.and_self]
    rw [hboth]
    exact filter_sublist

namespace Registry

/-- The names that count when some are unwanted. Without any, the usual ones do. -/
def leftOut (unwanted : List String) : List String := if unwanted.isEmpty then unasked else unwanted

lemma select_nil : r.select [] unwanted = .ok (r.codemods.filter fun c => ! c.isAmong (leftOut unwanted)) := by
  simp only [select, Registered.isAmong, Bool.not_or]
  rfl

/-- **To leave out more is to run less**, but only for those who left out something before: the usual names no longer count
once others are given. -/
theorem select_sublist_iff (r : Registry) (fewer more : Option (List String)) (h : ∀ n ∈ fewer.getD [], n ∈ more.getD []) :
    ∃ rest all, r.select [] (more.getD []) = .ok rest ∧ r.select [] (fewer.getD []) = .ok all ∧
      (rest.Sublist all ↔ (fewer.getD [] = [] →
        ∀ c ∈ r.codemods, c.isAmong unasked = true → c.isAmong (leftOut (more.getD [])) = true)) ∧
      (rest.filter fun c => ! c.isAmong unasked).Sublist all := by
  refine ⟨_, _, select_nil, select_nil, ?_⟩
  rw [List.filter_filter, filter_sublist_filter_iff, filter_sublist_filter_iff]
  simp only [Bool.and_eq_true, Bool.not_eq_true', ← Bool.not_eq_true]
  by_cases hfewer : fewer.getD [] = []
  · rw [hfewer]
    exact ⟨⟨fun hrest _ c hc => not_imp_not.1 (hrest c hc), fun hall c hc => mt (hall rfl c hc)⟩, fun c _ hc => hc.1⟩
  · obtain ⟨n, hn⟩ := List.exists_mem_of_ne_nil _ hfewer
    have hmore : more.getD [] ≠ [] := List.ne_nil_of_mem (h n hn)
    have hamong (c : Registered) (hc : c.isAmong (leftOut (fewer.getD [])) = true) :
        c.isAmong (leftOut (more.getD [])) = true := by
      simp only [Registered.isAmong, leftOut, List.isEmpty_iff, if_neg hfewer, if_neg hmore, Bool.or_eq_true,
        List.contains_iff_mem] at hc ⊢
      exact hc.imp (h _) (h _)
    exact ⟨⟨fun _ hnil => absurd hnil hfewer, fun _ c _ => mt (hamong c)⟩, fun c _ hc => mt (hamong c) hc.2⟩

theorem select_sublist_secureRandom : ∃ rest all, registry.select [] ["secure-random", "url-sandbox"] = .ok rest ∧
      registry.select [] ["secure-random"] = .ok all ∧ rest.Sublist all := by
  obtain ⟨rest, all, hrest, hall, hiff, -⟩ := select_sublist_iff registry (some ["secure-random"])
    (some ["secure-random", "url-sandbox"]) (by decide)
  exact ⟨rest, all, hrest, hall, hiff.2 nofun⟩

/-- Who leaves out one codemod gets the ones that nobody asked for. -/
theorem secureRandom_runs_more : ∃ rest all, registry.select [] ["secure-random"] = .ok rest ∧
      registry.select [] [] = .ok all ∧ ¬ rest.Sublist all := by
  refine ⟨_, _, select_nil, select_nil, ?_⟩
  rw [filter_sublist_filter_iff]
  intro h
  have hmem : (⟨"pixee", orderImports⟩ : Registered) ∈ registry.codemods := mem_of_getElem? (i := 13) rfl
  exact absurd (h _ hmem (by decide)) (by decide)

end Registry

end Mender
