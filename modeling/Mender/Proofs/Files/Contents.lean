import Mender.CodeFiles
import Mender.Proofs.Lists
import Mender.Proofs.Files.Paths

/-!
# What files hold

`Files` is read and written path by path:

The files of a project are `Sound` if their paths are resolved and no path stands twice. Then the files
chosen for mending are different files (`nodup_codeFiles`).
-/

namespace Mender

open List Mender.Path

variable {dir p : String} {excludes includes : Option (List String)} {fs : Files}

namespace Files

variable {fs gs : Files} {p q n : String}

/-! ## Reading what was written -/

lemma isFile_iff : fs.isFile p = true ↔ resolved p ∈ fs.entries.map (·.1) := by
  simp [isFile]

lemma get?_congr (h : resolved p = resolved q) : fs.get? p = fs.get? q := by
  rw [get?, get?, h]

lemma isFile_of_get? {c : Content} (h : fs.get? p = some c) : fs.isFile p = true := by
  obtain ⟨e, he, -⟩ := Option.map_eq_some_iff.1 h
  have hkey := find?_some he
  exact any_eq_true.2 ⟨e, mem_of_find?_eq_some he, hkey⟩

lemma put_of_isFile (h : fs.isFile p = true) (c : Content) :
    fs.put p c = { fs with entries := fs.entries.map fun e =>
      if e.1 == Path.resolved p then (Path.resolved p, c) else e } :=
  if_pos h

lemma put_of_not_isFile (h : ¬ fs.isFile p = true) (c : Content) :
    fs.put p c = { fs with entries := fs.entries ++ [(resolved p, c)] } :=
  if_neg h

lemma get?_put (c : Content) : (fs.put q c).get? p = if resolved p = resolved q then some c else fs.get? p := by
  have hentries : (fs.put q c).entries = if fs.entries.any (·.1 == resolved q) then fs.entries.map fun e =>
      if e.1 == resolved q then (resolved q, c) else e else fs.entries ++ [(resolved q, c)] := apply_ite Files.entries ..
  rw [get?, hentries, find?_change fs.entries (resolved q) (resolved p) (fun _ => c) c, ← get?]
  cases fs.get? p <;> rfl

lemma get?_put_self (c : Content) : (fs.put p c).get? p = some c := by
  rw [get?_put, if_pos rfl]

lemma get?_put_of_ne (h : resolved p ≠ resolved q) (c : Content) : (fs.put q c).get? p = fs.get? p := by
  rw [get?_put, if_neg h]

/-! ## Paths -/

/-- Do two file systems have the same paths? -/
structure SamePaths (fs gs : Files) : Prop where
  keys : fs.entries.map (·.1) = gs.entries.map (·.1)
  dirs : fs.dirs = gs.dirs

namespace SamePaths

lemma refl (fs : Files) : SamePaths fs fs := ⟨rfl, rfl⟩

variable (h : SamePaths fs gs)
include h

lemma trans {hs : Files} (h' : SamePaths gs hs) : SamePaths fs hs := ⟨h.keys.trans h'.keys, h.dirs.trans h'.dirs⟩

lemma isFile_eq (p : String) : fs.isFile p = gs.isFile p := by
  rw [Bool.eq_iff_iff, isFile_iff, isFile_iff, h.keys]

lemma isDir_eq (p : String) : fs.isDir p = gs.isDir p := by
  rw [isDir, isDir, h.keys, h.dirs]

lemma exists?_eq (p : String) : fs.exists? p = gs.exists? p := by
  rw [exists?, exists?, h.isFile_eq, h.isDir_eq]

lemma below_eq (dir : String) : fs.below dir = gs.below dir := by
  rw [below, below, all, all, h.keys, h.dirs]

lemma children_eq (dir : String) : fs.children dir = gs.children dir := by
  rw [children, children, h.below_eq]

end SamePaths

lemma samePaths_put (h : fs.isFile p = true) (c : Content) : SamePaths (fs.put p c) fs := by
  rw [put_of_isFile h]
  refine ⟨?_, rfl⟩
  rw [map_map]
  refine map_congr_left fun e _ => ?_
  by_cases he : e.1 = Path.resolved p <;> simp [he]

/-! ## Many writes at once -/

def rewrite (fs : Files) (new : String → Option Content) : Files :=
  { fs with entries := fs.entries.map fun e => (e.1, (new e.1).getD e.2) }

lemma put_eq_rewrite (h : fs.isFile p = true) (c : Content) :
    fs.put p c = fs.rewrite fun k => if k = Path.resolved p then some c else none := by
  rw [put_of_isFile h]
  congr 1
  refine map_congr_left fun e _ => ?_
  by_cases he : e.1 = Path.resolved p <;> simp [he]

lemma rewrite_rewrite (f g : String → Option Content) :
    (fs.rewrite f).rewrite g = fs.rewrite fun k => (g k).or (f k) := by
  rw [rewrite, rewrite, map_map]
  congr 1
  refine map_congr_left fun e _ => ?_
  cases hg : g e.1 <;> simp [hg]

lemma rewrite_none (fs : Files) : fs.rewrite (fun _ => none) = fs := by
  rw [rewrite]
  simp

lemma samePaths_rewrite (fs : Files) (new : String → Option Content) : SamePaths (fs.rewrite new) fs := by
  refine ⟨?_, rfl⟩
  rw [rewrite, map_map]
  rfl

lemma get?_rewrite_of_none {new : String → Option Content} (h : new (resolved p) = none) :
    (fs.rewrite new).get? p = fs.get? p := by
  rw [get?, get?, rewrite, find?_map, Option.map_map]
  change Option.map _ (fs.entries.find? fun e => e.1 == resolved p) = _
  cases hfind : fs.entries.find? fun e => e.1 == resolved p with
  | none => rfl
  | some e =>
    have hkey := find?_some hfind
    rw [beq_iff_eq] at hkey
    simp [hkey, h]

/-! ## Sound files -/

/-- Every path is resolved, and no file stands twice. -/
structure Sound (fs : Files) : Prop where
  entries : ∀ e ∈ fs.entries, resolved e.1 = e.1
  dirs : ∀ d ∈ fs.dirs, resolved d = d
  nodup : (fs.entries.map (·.1)).Nodup

lemma sound_empty : Sound {} := ⟨by simp, by simp, by simp⟩

lemma Sound.put (h : fs.Sound) (p : String) (c : Content) : (fs.put p c).Sound := by
  by_cases hp : fs.isFile p = true
  · have hkeys := (samePaths_put hp c).keys
    refine ⟨fun e he => ?_, ?_, hkeys ▸ h.nodup⟩
    · obtain ⟨e', he', heq⟩ := mem_map.1 (hkeys ▸ mem_map_of_mem he)
      exact heq ▸ h.entries e' he'
    · rw [(samePaths_put hp c).dirs]
      exact h.dirs
  · rw [put_of_not_isFile hp]
    refine ⟨fun e he => ?_, h.dirs, ?_⟩
    · rcases mem_append.1 he with he | he
      · exact h.entries e he
      · rw [mem_singleton.1 he, resolved_resolved]
    · rw [map_append]
      refine nodup_append.2 ⟨h.nodup, by simp, ?_⟩
      rintro a ha b hb rfl
      have ha' : a = resolved p := mem_singleton.1 hb
      exact hp (isFile_iff.2 (ha' ▸ ha))

lemma Sound.upward_notMem (h : fs.Sound) (hp : p ∈ fs.all) : ".." ∉ parts p := by
  have hentries : ∀ q ∈ fs.entries.map (·.1), ".." ∉ parts q := by
    intro q hq
    obtain ⟨e, he, rfl⟩ := mem_map.1 hq
    exact h.entries e he ▸ upward_notMem_resolved e.1
  have hdirs : ∀ d ∈ fs.dirs, ".." ∉ parts d := by
    intro d hd
    exact h.dirs d hd ▸ upward_notMem_resolved d
  rw [all, mem_eraseDups, mem_append] at hp
  rcases hp with hp | hp
  · exact hentries p hp
  · -- a directory above a path has the first parts of that path
    obtain ⟨ps, hps, hp⟩ := mem_flatMap.1 hp
    obtain ⟨i, -, rfl⟩ := mem_map.1 hp
    have habove : ∃ q, ".." ∉ parts q ∧ ∀ s ∈ ps, s ∈ parts q := by
      rcases mem_append.1 hps with hps | hps
      · obtain ⟨q, hq, rfl⟩ := mem_map.1 hps
        exact ⟨q, hentries q hq, fun s hs => (dropLast_sublist _).subset hs⟩
      · obtain ⟨d, hd, rfl⟩ := mem_map.1 hps
        exact ⟨d, hdirs d hd, fun s hs => hs⟩
    obtain ⟨q, hq, hsub⟩ := habove
    rw [parts_ofParts false fun s hs => isPart_of_mem_parts (hsub s (mem_of_mem_take hs))]
    exact fun hm => hq (hsub _ (mem_of_mem_take hm))

lemma Sound.exists_of_mem_below (h : fs.Sound) (hp : p ∈ fs.below dir) :
    ∃ ns, ns ≠ [] ∧ (∀ s ∈ ns, Path.IsPart s) ∧ ".." ∉ ns ∧ p = join dir (ofParts false ns) := by
  obtain ⟨ns, hns, rfl⟩ := mem_map.1 hp
  obtain ⟨q, hq, hunder⟩ := mem_filterMap.1 ((perm_sortBy _ _).mem_iff.1 hns)
  have hdrop : ns ≠ [] ∧ ns = (parts q).drop (parts (resolved dir)).length := by
    rw [under?] at hunder
    split at hunder <;> rename_i hcond
    · cases hunder
      split at hcond
      · exact ⟨cons_ne_nil _ _, (Option.some.inj hcond).symm⟩
      · cases hcond
    · cases hunder
  have hsub : ∀ s ∈ ns, s ∈ parts q := fun s hs => mem_of_mem_drop (hdrop.2 ▸ hs)
  exact ⟨ns, hdrop.1, fun s hs => isPart_of_mem_parts (hsub s hs), fun hm => h.upward_notMem hq (hsub _ hm), rfl⟩

lemma get?_of_name (h : ∀ q ∈ fs.entries.map (·.1), name q ≠ n) (hn : n ≠ "..")
    (hp : name p = n) : fs.get? p = none := by
  cases hget : fs.get? p with
  | none => rfl
  | some c =>
    obtain ⟨e, he, hkey⟩ := any_eq_true.1 (isFile_of_get? hget)
    refine absurd ?_ (h e.1 (mem_map_of_mem he))
    rw [beq_iff_eq.1 hkey, name_resolved (hp ▸ hn), hp]

end Files

section

variable (h : p ∈ CodeFiles.codeFiles fs dir excludes includes)
include h

lemma mem_below_of_mem_codeFiles : p ∈ fs.below dir := by
  have h := (perm_sortBy _ _).mem_iff.1 (mem_filter.1 h).1
  have h := (mem_filter.1 (mem_eraseDups.1 h)).1
  obtain ⟨g, -, h⟩ := mem_flatMap.1 h
  exact (mem_filter.1 h).1

lemma suffix_of_mem_codeFiles : suffix p = ".py" := by
  have h := (mem_filter.1 h).2
  simp only [Bool.and_eq_true, beq_iff_eq] at h
  exact h.2

end

lemma nodup_codeFiles (h : fs.Sound) : ((CodeFiles.codeFiles fs dir excludes includes).map resolved).Nodup := by
  refine Nodup.map_on ?_ ?_
  · intro p hp q hq hpq
    obtain ⟨ps, -, hps, hup, rfl⟩ := h.exists_of_mem_below (mem_below_of_mem_codeFiles hp)
    obtain ⟨qs, -, hqs, huq, rfl⟩ := h.exists_of_mem_below (mem_below_of_mem_codeFiles hq)
    rw [eq_of_resolved_join hps hqs hup huq hpq]
  · refine Nodup.filter _ ?_
    exact (perm_sortBy _ _).nodup_iff.2 nodup_eraseDups

end Mender
