import Mathlib.Data.List.Induction
import Mathlib.Data.List.Pairwise
import Mender.Proofs.Import.Names
import Mender.Syntax.Read

/-!
# What imports ask for

An import asks for modules, for names of a module or for all that a module has, each perhaps under another name. Where
imports are merged, each request is made once and none is lost.

* `nodup_gather`, `foldl_of_mem_gather` — what has the same key is put together, and nothing else;
* `enumerations_agree_iff` — when the merged imports do not depend on the order of sets.
-/

namespace Mender.Import

open Syntax List Node Text

variable {module s : String} {names : List (String × Option String)} {os : List Node}
variable (e : String × Option String) {line a : Node}

/-- What is wanted of a module. -/
inductive Wanted where
  /-- the module itself -/
  | module
  /-- all that it has -/
  | all
  | name (s : String)
  deriving DecidableEq, Repr

/-- What an import asks for: something of a module, the name of which begins with its dots, and the name after `as`. -/
structure Request where
  module : String
  wanted : Wanted
  as? : Option String
  deriving DecidableEq, Repr

/-- What an import statement asks for. -/
def requestsOf (n : Node) : List Request :=
  match n.kind with
  | .importStatement => n.aliases.map fun a => ⟨a.importedName, .module, a.importedAs?⟩
  | .importFrom =>
    if (n.get .names).kind == .importStar then [⟨n.moduleName, .all, none⟩]
    else n.aliases.map fun a => ⟨n.moduleName, .name a.importedName, a.importedAs?⟩
  | _ => []

/-- What a line with an import asks for. -/
def requests (line : Node) : List Request := requestsOf (importOf line)

/-! ## Gathering -/

section

variable {α β γ : Type} [BEq β] {key : α → β} {add : α → Option γ → γ} {xs : List α} {k : β} {c : γ}

lemma gather_concat (x : α) :
    gather key add (xs ++ [x]) = gatherAt (key x) (add x) (gather key add xs) := foldl_concat _ _ _ _

variable [LawfulBEq β]

lemma lookup_gatherAt (k key : β) (f : Option γ → γ) (es : List (β × γ)) :
    (gatherAt key f es).lookup k = if key == k then some (f (es.lookup k)) else es.lookup k := by
  fun_induction gatherAt key f es with
  | case1 =>
    rw [lookup_cons, BEq.comm]
    cases key == k <;> rfl
  | case2 e es hkey =>
    rw [eq_of_beq hkey, lookup_cons, lookup_cons, eq_of_beq hkey, BEq.comm]
    split <;> simp [*]
  | case3 e es hkey ih =>
    rw [lookup_cons, lookup_cons, ih]
    split <;> split <;> simp_all

lemma keys_gatherAt (key : β) (f : Option γ → γ) (es : List (β × γ)) :
    (gatherAt key f es).map (·.1) = if key ∈ es.map (·.1) then es.map (·.1) else es.map (·.1) ++ [key] := by
  fun_induction gatherAt key f es with
  | case1 => simp
  | case2 e es hkey => simp [eq_of_beq hkey]
  | case3 e es hkey ih =>
    have hne : key ≠ e.1 := fun h => hkey (by simp [h])
    rw [map_cons, ih, map_cons]
    simp only [mem_cons, hne, false_or]
    split <;> rfl

lemma nodup_gather (key : α → β) (add : α → Option γ → γ) (xs : List α) : ((gather key add xs).map (·.1)).Nodup := by
  induction xs using reverseRecOn with
  | nil => exact nodup_nil
  | append_singleton xs x ih =>
    rw [gather_concat, keys_gatherAt]
    split
    · exact ih
    next hnew =>
      refine nodup_append.2 ⟨ih, nodup_singleton _, ?_⟩
      rintro k hk _ hx rfl
      exact hnew (mem_singleton.1 hx ▸ hk)

lemma lookup_gather (k : β) :
    (gather key add xs).lookup k = (xs.filter (key · == k)).foldl (fun old x => some (add x old)) none := by
  induction xs using reverseRecOn with
  | nil => rfl
  | append_singleton xs x ih =>
    rw [gather_concat, lookup_gatherAt, ih, filter_append, foldl_append, filter_singleton]
    cases key x == k <;> rfl

lemma foldl_of_mem_gather (h : (k, c) ∈ gather key add xs) :
    (xs.filter (key · == k)).foldl (fun old x => some (add x old)) none = some c := by
  rw [← lookup_gather, lookup_eq_some_iff]
  obtain ⟨before, behind, hsplit⟩ := append_of_mem h
  refine ⟨before, behind, hsplit, fun e he => ?_⟩
  have hnodup := nodup_gather key add xs
  rw [hsplit, map_append, map_cons, nodup_append] at hnodup
  exact bne_iff_ne.2 (hnodup.2.2 e.1 (mem_map_of_mem he) k (.head _)).symm

lemma mem_keys_gather : k ∈ (gather key add xs).map (·.1) ↔ ∃ x ∈ xs, key x = k := by
  induction xs using reverseRecOn with
  | nil => simp [gather]
  | append_singleton xs x ih =>
    have hstep : k ∈ (gather key add (xs ++ [x])).map (·.1) ↔ k ∈ (gather key add xs).map (·.1) ∨ key x = k := by
      rw [gather_concat, keys_gatherAt]
      split
      next hold => exact ⟨.inl, fun h => h.elim id fun hx => hx ▸ hold⟩
      next => rw [mem_append, mem_singleton, @eq_comm _ k]
    rw [hstep, ih]
    simp only [mem_append, mem_singleton, or_and_right, exists_or, exists_eq_left]

end

/-! ## Names that were taken apart -/

lemma importedName_eq (h : a.get .name = ofDotted s) : a.importedName = s := by
  rw [importedName, h, fullName?_ofDotted, Option.getD_some]

lemma aliases_plainLine (module : String × Option String) (leading : List Node) :
    (importOf (plainLine module leading)).aliases =
      [make .importAlias [(.name, ofDotted module.1), (.asname, asPart module.2)]] := rfl

lemma moduleOn_plainLine (module : String × Option String) (leading : List Node) :
    moduleOn (plainLine module leading) = module.1 := by
  have hname : moduleOn (plainLine module leading) =
      ((importOf (plainLine module leading)).aliases.head?.map importedName).getD "" := rfl
  rw [hname, aliases_plainLine, head?_cons, Option.map_some, Option.getD_some, importedName_eq rfl]

/-! ## Lines by kind -/

def Request.ofModule : Request := ⟨e.1, .module, e.2⟩

def Request.ofName (module : String) (e : String × Option String) : Request := ⟨module, .name e.1, e.2⟩

section

variable {line : Node}

lemma requests_plain (h : (importOf line).kind = .importStatement) :
    requests line = ((importOf line).aliases.map aliasPair).map .ofModule := by
  rw [requests, requestsOf, h, map_map]
  rfl

lemma requests_star (h : (importOf line).kind = .importFrom) (hstar : isStarLine line = true) :
    requests line = [⟨moduleOn line, .all, none⟩] := by
  rw [isStarLine] at hstar
  rw [requests, requestsOf, h]
  exact if_pos hstar

lemma requests_names (h : (importOf line).kind = .importFrom) (hstar : isStarLine line = false) :
    requests line = ((importOf line).aliases.map aliasPair).map (.ofName (moduleOn line)) := by
  rw [isStarLine] at hstar
  rw [requests, requestsOf, h, map_map]
  exact if_neg (Bool.eq_false_iff.1 hstar)

variable {r : Request}

lemma wanted_plain (h : (importOf line).kind = .importStatement) (hr : r ∈ requests line) : r.wanted = .module := by
  rw [requests_plain h] at hr
  obtain ⟨e, -, rfl⟩ := mem_map.1 hr
  rfl

lemma wanted_star (h : (importOf line).kind = .importFrom) (hstar : isStarLine line = true) (hr : r ∈ requests line) :
    r.wanted = .all := by
  rw [requests_star h hstar] at hr
  rw [mem_singleton.1 hr]

lemma wanted_names (h : (importOf line).kind = .importFrom) (hstar : isStarLine line = false)
    (hr : r ∈ requests line) : ∃ s, r.wanted = .name s := by
  rw [requests_names h hstar] at hr
  obtain ⟨e, -, rfl⟩ := mem_map.1 hr
  exact ⟨e.1, rfl⟩

lemma import_of_isImportLine (h : isImportLine line = true) : line.list .body = [importOf line] ∧
    ((importOf line).kind = .importStatement ∨ (importOf line).kind = .importFrom) := by
  rw [isImportLine, Bool.and_eq_true] at h
  obtain ⟨-, h⟩ := h
  split at h
  next s hbody =>
    have hs : importOf line = s := by rw [importOf, hbody]; rfl
    rw [Bool.or_eq_true, beq_iff_eq, beq_iff_eq] at h
    exact ⟨by rw [hbody, hs], hs ▸ h⟩
  next => cases h

lemma requests_ne_nil (hline : isImportLine line = true) (h : (importOf line).flaw? = none) : requests line ≠ [] := by
  obtain ⟨-, hkind | hkind⟩ := import_of_isImportLine hline
  · rw [requests_plain hkind]
    intro hnil
    rw [map_eq_nil_iff, map_eq_nil_iff, aliases] at hnil
    rw [flaw?, flaws, hkind] at h
    simp [hnil] at h
  · cases hstar : isStarLine line with
    | true =>
      rw [requests_star hkind hstar]
      exact cons_ne_nil _ _
    | false =>
      rw [requests_names hkind hstar]
      intro hnil
      rw [map_eq_nil_iff, map_eq_nil_iff, aliases] at hnil
      rw [isStarLine] at hstar
      rw [flaw?, flaws, hkind] at h
      simp [hnil, bne, hstar] at h

end

lemma importedAs?_eq {as? : Option String} (h : a.get .asname = asPart as?) : a.importedAs? = as? := by
  rw [importedAs?, h]
  cases as? <;> rfl

lemma requests_plainLine (leading : List Node) : requests (plainLine e leading) = [.ofModule e] := by
  rw [requests_plain rfl, aliases_plainLine, map_singleton, map_singleton, aliasPair, importedName_eq rfl,
    importedAs?_eq rfl]

lemma requests_starLine (leading : List Node) :
    requests (fromLine module (fresh .importStar) leading) = [⟨module, .all, none⟩] := by
  rw [requests_star rfl rfl, moduleOn_fromLine]

lemma aliasPair_alias (comma : Node) :
    aliasPair (make .importAlias [(.name, ofName e.1), (.asname, asPart e.2), (.comma, comma)]) = e := by
  rw [aliasPair, importedAs?_eq rfl]
  rfl

lemma aliasPairs_namesLine (module : String) (names : List (String × Option String)) (leading : List Node) :
    (importOf (namesLine module names leading)).aliases.map aliasPair = names := by
  show map _ (mapIdx _ names) = _
  refine ext_getElem (by simp) fun i h₁ h₂ => ?_
  rw [getElem_map, getElem_mapIdx, aliasPair_alias]

lemma requests_of_fromImport {leading : List Node} (h : fromImport module names leading = .ok line) :
    (requests line).Perm (names.map (.ofName module)) := by
  obtain ⟨sorted, hsorted, h⟩ := of_bind h
  cases h
  rw [requests_names rfl rfl, aliasPairs_namesLine, namesLine, moduleOn_fromLine]
  exact (perm_of_sortNaturally hsorted).map _

lemma moduleOn_of_fromImport {leading : List Node} (h : fromImport module names leading = .ok line) :
    moduleOn line = module := by
  obtain ⟨sorted, -, h⟩ := of_bind h
  cases h
  exact moduleOn_fromLine ..

/-! ## Merged imports -/

/-- Do lines ask for certain things, each of them once? -/
def AsksOnce (lines : List Node) (rs : List Request) : Prop :=
  (lines.flatMap requests).Nodup ∧ ∀ r, r ∈ lines.flatMap requests ↔ r ∈ rs

section

variable {lines : List Node}

lemma map_fst_modulesOn (line : Node) : (modulesOn line).map (·.1) = (importOf line).aliases.map aliasPair := by
  rw [modulesOn]
  split
  next h => rw [h]; rfl
  next a rest h => rw [h, map_cons, map_cons, map_map]; rfl

lemma asksOnce_gather {α β γ : Type} [BEq β] [LawfulBEq β] {key : α → β} {add : α → Option γ → γ} {xs : List α}
    {new : β × γ → Node} (ask : β → Request) (hask : ask.Injective) (hnew : ∀ g, requests (new g) = [ask g.1])
    (hold : lines.flatMap requests = xs.map fun x => ask (key x)) :
    AsksOnce ((gather key add xs).map new) (lines.flatMap requests) := by
  have hmap : ((gather key add xs).map new).flatMap requests = ((gather key add xs).map (·.1)).map ask := by
    rw [flatMap_map, map_map, map_eq_flatMap]
    simp only [hnew]
    rfl
  rw [AsksOnce, hmap, hold]
  refine ⟨(nodup_gather ..).map hask, fun r => ?_⟩
  simp only [mem_map (f := ask), mem_keys_gather]
  simp

lemma asksOnce_plainImports (h : ∀ line ∈ lines, (importOf line).kind = .importStatement) :
    AsksOnce (plainImports lines) (lines.flatMap requests) := by
  refine asksOnce_gather .ofModule ?_ (fun _ => requests_plainLine ..) ?_
  · rintro ⟨_, _⟩ ⟨_, _⟩ heq
    cases heq
    rfl
  · rw [map_flatMap]
    refine flatMap_congr fun line hline => ?_
    rw [requests_plain (h line hline), ← map_fst_modulesOn, map_map]
    rfl

lemma asksOnce_starImports (h : ∀ line ∈ lines, (importOf line).kind = .importFrom ∧ isStarLine line = true) :
    AsksOnce (starImports lines) (lines.flatMap requests) := by
  refine asksOnce_gather (⟨·, .all, none⟩) ?_ (fun _ => requests_starLine _) ?_
  · intro _ _ heq
    cases heq
    rfl
  · rw [map_eq_flatMap]
    exact flatMap_congr fun line hline => requests_star (h line hline).1 (h line hline).2

lemma names_foldl_add (lines : List Node) :
    let g := (lines.foldl (fun old line => some (FromGroup.add line (old.getD {}))) none).getD {}
    g.names.Nodup ∧ ∀ e, e ∈ g.names ↔ ∃ line ∈ lines, ∃ a ∈ (importOf line).aliases, aliasPair a = e := by
  induction lines using reverseRecOn with
  | nil => simp
  | append_singleton lines line ih =>
    rw [foldl_concat, Option.getD_some]
    refine ⟨nodup_eraseDups, fun e => ?_⟩
    rw [FromGroup.add, mem_eraseDups, mem_append, mem_map, ih.2]
    simp only [mem_append, mem_singleton, or_and_right, exists_or, exists_eq_left]

/-- The names that some lines take from their modules, by module. -/
def nameGroups (lines : List Node) : List (String × FromGroup) :=
  gather moduleOn (fun line old => FromGroup.add line (old.getD {})) lines

lemma names_of_mem_nameGroups {g : FromGroup} (h : (module, g) ∈ nameGroups lines) : g.names.Nodup ∧ ∀ e, e ∈ g.names ↔
      ∃ line ∈ lines, moduleOn line = module ∧ ∃ a ∈ (importOf line).aliases, aliasPair a = e := by
  have hnames := names_foldl_add (lines.filter (moduleOn · == module))
  rw [foldl_of_mem_gather h, Option.getD_some] at hnames
  simpa only [mem_filter, beq_iff_eq, and_assoc] using hnames

lemma perm_of_forall₂ {es : List (String × FromGroup)}
    (h : Forall₂ (fun e o => fromImport e.1 e.2.names (commentLines e.2.comments) = .ok o) es os) :
    (os.flatMap requests).Perm (es.flatMap fun e => e.2.names.map (.ofName e.1)) := by
  induction h with
  | nil => exact .refl _
  | cons ho _ ih =>
    rw [flatMap_cons, flatMap_cons]
    exact (requests_of_fromImport ho).append ih

section

variable (h : ∀ line ∈ lines, (importOf line).kind = .importFrom ∧ isStarLine line = false)
include h

lemma mem_requests_iff_mem_nameGroups {r : Request} :
    r ∈ lines.flatMap requests ↔ ∃ p ∈ nameGroups lines, r ∈ p.2.names.map (.ofName p.1) := by
  rw [mem_flatMap]
  constructor
  · rintro ⟨line, hline, hr⟩
    rw [requests_names (h line hline).1 (h line hline).2, map_map] at hr
    obtain ⟨a, ha, rfl⟩ := mem_map.1 hr
    have hkey : moduleOn line ∈ (nameGroups lines).map (·.1) := mem_keys_gather.2 ⟨line, hline, rfl⟩
    obtain ⟨⟨module, g⟩, hg, rfl⟩ := mem_map.1 hkey
    refine ⟨_, hg, mem_map_of_mem (((names_of_mem_nameGroups hg).2 _).2 ?_)⟩
    exact ⟨line, hline, rfl, a, ha, rfl⟩
  · rintro ⟨⟨module, g⟩, hg, hr⟩
    obtain ⟨e, he, rfl⟩ := mem_map.1 hr
    obtain ⟨line, hline, rfl, a, ha, rfl⟩ := ((names_of_mem_nameGroups hg).2 e).1 he
    refine ⟨line, hline, ?_⟩
    rw [requests_names (h line hline).1 (h line hline).2]
    exact mem_map_of_mem (mem_map_of_mem ha)

lemma asksOnce_nameImports (hos : nameImports lines = .ok os) : AsksOnce os (lines.flatMap requests) := by
  have hperm := perm_of_forall₂ (mapM_eq_ok_iff.1 hos)
  rw [AsksOnce, hperm.nodup_iff]
  refine ⟨nodup_flatMap.2 ⟨fun p hp => ?_, ?_⟩, fun r => ?_⟩
  · refine (names_of_mem_nameGroups hp).1.map ?_
    rintro ⟨_, _⟩ ⟨_, _⟩ heq
    cases heq
    rfl
  · refine (pairwise_map.1 (nodup_gather ..)).imp fun hne r hr hr' => ?_
    obtain ⟨_, -, rfl⟩ := mem_map.1 hr
    obtain ⟨_, -, heq⟩ := mem_map.1 hr'
    exact hne (congrArg Request.module heq).symm
  · rw [hperm.mem_iff, mem_flatMap, mem_requests_iff_mem_nameGroups h]
    rfl

/-- Imports of names can be merged exactly if the names of each module can be compared. -/
lemma nameImports_isOk_iff :
    (nameImports lines).isOk = true ↔ ∀ r ∈ lines.flatMap requests, ∀ r' ∈ lines.flatMap requests, r.module = r'.module →
        ∀ s s', r.wanted = .name s → r'.wanted = .name s' → Text.Comparable s s' := by
  rw [nameImports, mapM_isOk_iff]
  simp only [fromImport_isOk, sortNaturally_isOk_iff]
  simp only [mem_requests_iff_mem_nameGroups h]
  constructor
  · rintro hgroups r ⟨p, hp, hr⟩ r' ⟨p', hp', hr'⟩ hmodule s s' hs hs'
    obtain ⟨e, he, rfl⟩ := mem_map.1 hr
    obtain ⟨e', he', rfl⟩ := mem_map.1 hr'
    obtain rfl : p = p' := inj_on_of_nodup_map (nodup_gather ..) hp hp' hmodule
    cases hs
    cases hs'
    exact hgroups p hp e he e' he'
  · intro hrequests p hp e he e' he'
    exact hrequests _ ⟨p, hp, mem_map_of_mem he⟩ _ ⟨p, hp, mem_map_of_mem he'⟩ rfl e.1 e'.1 rfl rfl

end

/-! ## The modules of merged imports -/

def HasModule (line : Node) : Prop := requests line ≠ [] ∧ ∀ r ∈ requests line, r.module = moduleOn line

lemma hasModule_plainImports : ∀ line ∈ plainImports lines, HasModule line := by
  intro line hline
  obtain ⟨⟨e, comments⟩, -, rfl⟩ := mem_map.1 hline
  rw [HasModule, requests_plainLine, moduleOn_plainLine]
  simp [Request.ofModule]

lemma hasModule_starImports : ∀ line ∈ starImports lines, HasModule line := by
  intro line hline
  obtain ⟨⟨module, comments⟩, -, rfl⟩ := mem_map.1 hline
  rw [HasModule, requests_starLine, moduleOn_fromLine]
  simp

lemma hasModule_of_nameImports (h : ∀ line ∈ lines, (importOf line).aliases ≠ []) (hos : nameImports lines = .ok os) :
    ∀ line ∈ os, HasModule line := by
  intro line hline
  obtain ⟨⟨module, g⟩, hg, hline⟩ := exists_of_mem_mapM hos hline
  have hperm := requests_of_fromImport hline
  rw [HasModule, moduleOn_of_fromImport hline]
  refine ⟨?_, fun r hr => ?_⟩
  · have hkey : module ∈ (nameGroups lines).map (·.1) := mem_map_of_mem hg
    obtain ⟨old, hold, hmodule⟩ := mem_keys_gather.1 hkey
    obtain ⟨a, ha⟩ := exists_mem_of_ne_nil _ (h old hold)
    have he := ((names_of_mem_nameGroups hg).2 (aliasPair a)).2 ⟨old, hold, hmodule, a, ha, rfl⟩
    exact ne_nil_of_mem (hperm.mem_iff.2 (mem_map_of_mem he))
  · obtain ⟨e, -, rfl⟩ := mem_map.1 (hperm.mem_iff.1 hr)
    rfl

end

/-! ## Names in any order

The names that are imported from a module are gathered without repetitions and sorted. Which order they were gathered in
shows only in names with the same key (`enumerations_agree_iff`). -/

variable {names' sorted : List (String × Option String)} {leading lines : List Node}

/-- A name that stands before another one with the same key before sorting does so afterwards. -/
lemma not_behind_of_sorted {e e' : String × Option String} (hne : e ≠ e') (hnames : (e :: e' :: names).Nodup)
    (hself : Text.Comparable e.1 e.1) (hkey : naturalKey e.1 = naturalKey e'.1)
    (h : sortNaturally (·.1) (e :: e' :: names) = .ok sorted) : sorted.Pairwise fun x y => ¬ (x = e' ∧ y = e) := by
  have hgiven : (e :: e' :: names).Pairwise fun x y => ¬ (x = e' ∧ y = e) := by
    refine pairwise_cons.2 ⟨fun y _ h => hne h.1, (nodup_cons.1 hnames).2.imp_of_mem fun {x y} _ hy _ h => ?_⟩
    exact (nodup_cons.1 hnames).1 (h.2 ▸ hy)
  refine (pairwise_of_sortNaturally hgiven h).imp fun {x y} hxy heq => ?_
  obtain ⟨rfl, rfl⟩ := heq
  exact hxy.2 (precedes_of_key_eq hself hkey) ⟨rfl, rfl⟩

lemma namesLine_inj (h : namesLine module names leading = namesLine module names' leading) : names = names' := by
  rw [← aliasPairs_namesLine module names leading, h, aliasPairs_namesLine]

lemma fromImport_of_sorted (h : sortNaturally (·.1) names = .ok sorted) :
    (fromImport module names leading).toOption = some (namesLine module sorted leading) := by
  rw [fromImport, h]
  rfl

/-- **An import of several names does not depend on the order in which they are enumerated, if no two of them have the
same key.** Otherwise it does: case and the name after `as` do not count when names are sorted. -/
theorem enumerations_agree_iff {g : FromGroup} (hg : (module, g) ∈ nameGroups lines) (leading : List Node) :
    (∀ es es', es.Perm g.names → es'.Perm g.names →
      (fromImport module es leading).toOption = (fromImport module es' leading).toOption) ↔
    ((∀ e ∈ g.names, ∀ e' ∈ g.names, Text.Comparable e.1 e'.1) →
      ∀ e ∈ g.names, ∀ e' ∈ g.names, naturalKey e.1 = naturalKey e'.1 → e = e') := by
  have hnodup := (names_of_mem_nameGroups hg).1
  have hsort {es : List (String × Option String)} (hes : es.Perm g.names)
      (hall : ∀ e ∈ g.names, ∀ e' ∈ g.names, Text.Comparable e.1 e'.1) : ∃ s, sortNaturally (·.1) es = .ok s :=
    exists_of_isOk (sortNaturally_isOk_iff.2 (by simpa only [hes.mem_iff] using hall))
  constructor
  · intro h hall e he e' he' hkey
    by_contra hne
    have hperm : g.names.Perm (e :: e' :: (g.names.erase e).erase e') :=
      (perm_cons_erase he).trans ((perm_cons_erase ((mem_erase_of_ne (Ne.symm hne)).2 he')).cons e)
    have hperm' := hperm.trans (.swap e' e _)
    obtain ⟨s, hs⟩ := hsort hperm.symm hall
    obtain ⟨s', hs'⟩ := hsort hperm'.symm hall
    have heq := h _ _ hperm.symm hperm'.symm
    rw [fromImport_of_sorted hs, fromImport_of_sorted hs', Option.some_inj] at heq
    obtain rfl := namesLine_inj heq
    -- the two names would stand in neither order
    have hneither := (not_behind_of_sorted hne (hperm.nodup_iff.1 hnodup) (hall e he e he) hkey hs).and
      (not_behind_of_sorted (Ne.symm hne) (hperm'.nodup_iff.1 hnodup) (hall e' he' e' he') hkey.symm hs')
    have hsymm : Std.Symm fun x y => ¬ (x = e' ∧ y = e) ∧ ¬ (x = e ∧ y = e') := ⟨fun x y h => ⟨fun h' => h.2 h'.symm, fun h' => h.1 h'.symm⟩⟩
    have hmem {x : String × Option String} (hx : x ∈ g.names) : x ∈ s :=
      ((perm_of_sortNaturally hs).trans hperm.symm).mem_iff.2 hx
    exact (hneither.forall (hmem he) (hmem he') hne).2 ⟨rfl, rfl⟩
  · intro h es es' hes hes'
    by_cases hall : ∀ e ∈ g.names, ∀ e' ∈ g.names, Text.Comparable e.1 e'.1
    · obtain ⟨s, hs⟩ := hsort hes hall
      obtain ⟨s', hs'⟩ := hsort hes' hall
      have hmem {x : String × Option String} (hx : x ∈ s) : x ∈ g.names :=
        ((perm_of_sortNaturally hs).trans hes).mem_iff.1 hx
      have hperm : s.Perm s' :=
        (perm_of_sortNaturally hs).trans (hes.trans (hes'.symm.trans (perm_of_sortNaturally hs').symm))
      have hordered {es s : List (String × Option String)} (hs : sortNaturally (·.1) es = .ok s) :
          s.Pairwise fun x y => Text.Precedes x.1 y.1 :=
        (pairwise_of_sortNaturally (pairwise_of_forall fun _ _ => trivial) hs).imp And.left
      rw [fromImport_of_sorted hs, fromImport_of_sorted hs']
      rw [hperm.eq_of_pairwise (fun x y hx hy hxy hyx => ?_) (hordered hs) (hordered hs')]
      exact h hall x (hmem hx) y (hmem (hperm.mem_iff.2 hy)) (hxy.key_eq hyx)
    · have hnone {es : List (String × Option String)} (hes : es.Perm g.names) :
          (fromImport module es leading).toOption = none := by
        have hfails : ¬ (fromImport module es leading).isOk = true := by
          rw [fromImport_isOk, sortNaturally_isOk_iff]
          simpa only [hes.mem_iff] using hall
        cases hline : fromImport module es leading with
        | error f => rfl
        | ok line => exact absurd (by rw [hline]; rfl) hfails
      rw [hnone hes, hnone hes']

/-- A name that is imported twice, as two others. -/
def twoNames : String := "from a import c as m, c as n\n"

def twoNamesGroups : List (String × FromGroup) := nameGroups (((ofModule? twoNames).getD absent).list .body)

/-- The import depends on which of the two names comes first. -/
theorem twoNames_not_agreed : ∃ g, twoNamesGroups = [("a", g)] ∧ ∃ es es', es.Perm g.names ∧ es'.Perm g.names ∧
    (fromImport "a" es []).toOption ≠ (fromImport "a" es' []).toOption := by
  have hgroups : (twoNamesGroups.map fun e => (e.1, e.2.names)) = [("a", [("c", some "m"), ("c", some "n")])] := by
    decide +kernel
  have hsorts : (sortNaturally (·.1) [("c", some "m"), ("c", some "n")]).isOk = true := by decide +kernel
  obtain ⟨⟨module, g⟩, hgroup, heq⟩ := map_eq_singleton_iff.1 hgroups
  obtain ⟨rfl, hnames⟩ := Prod.mk.inj heq
  refine ⟨g, hgroup, ?_⟩
  by_contra hall
  push Not at hall
  have hagree := (enumerations_agree_iff (hgroup ▸ mem_singleton_self _) []).1 hall
  rw [hnames] at hagree
  have hsame := hagree (sortNaturally_isOk_iff.1 hsorts) ("c", some "m") (by simp) ("c", some "n") (by simp) rfl
  exact absurd hsame (by decide)

end Mender.Import
