import Mender.Catalogue
import Mender.Codemod.Apply
import Mender.Proofs.Files.Contents
import Mender.Proofs.Outcomes

/-!
# What codemods see of the other files

A codemod is given all files of a project, but it looks at no file besides its own except in two ways: some ask
which paths there are, and the one that orders imports asks which packages are declared open. `SameSight` says that
two states of the files do not differ in either, and then every codemod of the catalogue does the same
(`blind_of_sameSight`).
-/

namespace Mender

open Codemod Option Mender.Path Catalogue

namespace Import.Section

/-- Do the same paths exist, and are the packages that `K` is about declared open in the same way? -/
structure SameSight (K : String → Prop) (fs gs : Files) : Prop where
  paths : fs.SamePaths gs
  packages : ∀ p, K p → (fs.get? p).map saysOpen = (gs.get? p).map saysOpen

variable {K : String → Prop} {fs gs hs : Files}

lemma SameSight.refl (K : String → Prop) (fs : Files) : SameSight K fs fs := ⟨.refl fs, fun _ _ => rfl⟩

/-- The files that can declare a package open. -/
def IsInit (p : String) : Prop := name p = "__init__.py"

lemma isInit_join (dir : String) : IsInit (Path.join dir "__init__.py") := by
  have hpart : ∀ s ∈ ["__init__.py"], Path.IsPart s := by
    intro s hs
    obtain rfl := List.mem_singleton.1 hs
    exact ⟨by decide, by decide, by decide⟩
  have hname : Path.ofParts false ["__init__.py"] = "__init__.py" := by
    rw [Path.ofParts, if_neg (by decide), if_neg (by decide), String.intercalate_singleton]
  have hjoin : Path.parts (Path.join dir "__init__.py") = Path.parts dir ++ ["__init__.py"] := by
    rw [← hname, Path.parts_join hpart]
    rw [hname]
  rw [IsInit, Path.name, hjoin]
  simp

variable (h : SameSight IsInit fs gs)
include h

lemma isOpenPackage_eq (dir : String) : isOpenPackage fs dir = isOpenPackage gs dir := by
  simp only [isOpenPackage, h.paths.isDir_eq, h.paths.exists?_eq, h.paths.children_eq, h.packages _ (isInit_join dir)]

lemma isFound_eq (top : Bool) (dir : String) (parts : List String) :
    isFound fs top dir parts = isFound gs top dir parts := by
  induction parts generalizing top dir with
  | nil => rfl
  | cons root rest ih => simp only [isFound, h.paths.isDir_eq, h.paths.exists?_eq, isOpenPackage_eq h, ih]

lemma ofModule_eq (source : String) : ofModule fs source = ofModule gs source := by
  funext name
  simp only [ofModule, isFound_eq h]

end Import.Section

open Import.Section

/-! ## What codemods do not notice -/

variable {fs gs : Files} {c : Codemod} (t : Task)

/-- Does a codemod do the same whichever of two states the other files are in? -/
def Codemod.Blind (c : Codemod) (fs gs : Files) : Prop :=
  ∀ t : Task, c.prepare { t with files := fs } = c.prepare { t with files := gs } ∧
    c.work { t with files := fs } = c.work { t with files := gs }

lemma isDjangoSettings_eq (h : fs.SamePaths gs) (path : String) : isDjangoSettings fs path = isDjangoSettings gs path := by
  rw [isDjangoSettings, isDjangoSettings, h.isDir_eq, h.children_eq]

lemma blind_disableDebug (h : fs.SamePaths gs) : disableDebug.Blind fs gs := by
  intro t
  refine ⟨rfl, ?_⟩
  show Task.disableDebug _ = Task.disableDebug _
  simp only [Task.disableDebug, Task.isSettings, isDjangoSettings_eq h]
  rfl

lemma blind_secureSessionCookies (h : fs.SamePaths gs) : secureSessionCookies.Blind fs gs := by
  intro t
  refine ⟨rfl, ?_⟩
  show Task.secureSessionCookies _ = Task.secureSessionCookies _
  simp only [Task.secureSessionCookies, Task.isSettings, isDjangoSettings_eq h]
  rfl

lemma blind_orderImports (h : SameSight IsInit fs gs) : orderImports.Blind fs gs := by
  intro t
  refine ⟨rfl, ?_⟩
  show Task.orderImports _ = Task.orderImports _
  simp only [Task.orderImports, ofModule_eq h]
  rfl

lemma fixQueries_eq (fs gs : Files) (qs : List (Syntax.Node × List Sql.Leaf)) (module : Syntax.Node) :
    Task.fixQueries { t with files := fs } qs module = Task.fixQueries { t with files := gs } qs module := by
  induction qs generalizing module with
  | nil => rfl
  | cons q qs ih =>
    simp only [Task.fixQueries, ih]
    rfl

lemma blind_parameterizeQueries (fs gs : Files) : parameterizeQueries.Blind fs gs := by
  intro t
  refine ⟨rfl, ?_⟩
  show Task.parameterizeQueries _ = Task.parameterizeQueries _
  simp only [Task.parameterizeQueries, fixQueries_eq t fs gs]
  rfl

lemma reachedFrom_eq (fs gs : Files) (fuel : Nat) :
    Task.reachedFrom { t with files := fs } fuel = Task.reachedFrom { t with files := gs } fuel := by
  induction fuel with
  | zero => rfl
  | succ fuel ih =>
    funext n
    simp only [Task.reachedFrom, ih]
    rfl

lemma wrapFiles_eq (fs gs : Files) (rs : List OpenedFile) (module : Syntax.Node) :
    Task.wrapFiles { t with files := fs } rs module = Task.wrapFiles { t with files := gs } rs module := by
  induction rs generalizing module with
  | nil => rfl
  | cons r rs ih =>
    simp only [Task.wrapFiles, Task.usesOf?, Task.reachedNames, reachedFrom_eq t fs gs, ih]
    rfl

lemma blind_closeFiles (fs gs : Files) : closeFiles.Blind fs gs := by
  intro t
  refine ⟨rfl, ?_⟩
  show Task.closeFiles _ = Task.closeFiles _
  simp only [Task.closeFiles, wrapFiles_eq t fs gs]
  rfl

/-- The files whose content a codemod may look at besides its own: only the one that orders imports does so. -/
def Codemod.LooksAt (c : Codemod) (p : String) : Prop := c.name = "order-imports" ∧ IsInit p

lemma blind_of_sameSight (hc : c ∈ all) (h : SameSight c.LooksAt fs gs) : c.Blind fs gs := by
  simp only [all, List.mem_cons, List.not_mem_nil, or_false] at hc
  repeat' rcases hc with rfl | hc
  on_goal 32 => exact blind_closeFiles fs gs
  on_goal 30 => exact blind_parameterizeQueries fs gs
  on_goal 14 => exact blind_orderImports ⟨h.paths, fun p hp => h.packages p ⟨rfl, hp⟩⟩
  on_goal 3 => exact blind_secureSessionCookies h.paths
  on_goal 2 => exact blind_disableDebug h.paths
  -- the others never hand their task to a recursion that could ask for the files
  all_goals exact fun t => ⟨rfl, rfl⟩

/-! ## What codemods make of files -/

variable {dir path text : String} {findings : Findings} {w : Wishes} {r : FileResult}

lemma transform_eq (h : c.Blind fs gs) (t : Task) :
    c.transform { t with files := fs } = c.transform { t with files := gs } := by
  simp only [transform, (h t).1, (h t).2]
  rfl

lemma mendModule_eq (hblind : c.Blind fs gs) (module? : Option Syntax.Node) :
    c.mendModule fs dir path findings w module? = c.mendModule gs dir path findings w module? := by
  refine bind_congr fun skipLines => bind_congr fun onlyLines => ?_
  cases module? with
  | none => rfl
  | some module =>
    exact transform_eq hblind
      { files := fs, dir, path := plain path, skipLines, onlyLines
        findings := findings.select c.name (plain path)
        changeText := c.changeText
        facts := .of module }

lemma readModule?_plain {path' : String} (h : fs.get? path = gs.get? path') :
    readModule? fs (plain path) = readModule? gs (plain path') := by
  rw [readModule?, readModule?, Files.readText?, Files.readText?, Files.get?_congr (resolved_plain path),
    Files.get?_congr (resolved_plain path'), h]

lemma mend_eq (hblind : c.Blind fs gs) (h : fs.get? path = gs.get? path) :
    c.mend fs dir path findings w = c.mend gs dir path findings w := by
  rw [mend, mend, mendModule_eq hblind, readModule?_plain h]

lemma eq_of_mendModule_none {text : Option String} (h : c.mendModule fs dir path findings w none = .ok (r, text)) :
    r = { path := plain path, failures := [plain path] } ∧ text = none := by
  obtain ⟨skipLines, -, h⟩ := of_bind h
  obtain ⟨onlyLines, -, h⟩ := of_bind h
  cases h
  exact ⟨rfl, rfl⟩

lemma isFile_of_mend (h : c.mend fs dir path findings w = .ok (r, some text)) : fs.isFile path = true := by
  rw [mend] at h
  cases hread : readModule? fs (plain path) with
  | none =>
    rw [hread] at h
    cases (eq_of_mendModule_none h).2
  | some module =>
    obtain ⟨content, htext, -⟩ := bind_eq_some_iff.1 hread
    obtain ⟨text', hget, -⟩ := map_eq_some_iff.1 htext
    obtain ⟨content', hget, -⟩ := bind_eq_some_iff.1 hget
    rw [Files.get?_congr (resolved_plain path)] at hget
    exact Files.isFile_of_get? hget

end Mender
