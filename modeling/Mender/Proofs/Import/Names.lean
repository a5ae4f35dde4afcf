import Mathlib.Data.List.TakeWhile
import Mender.Import.Order
import Mender.Proofs.Text.Lines
import Mender.Proofs.Text.Natural

/-!
# Names of modules

An import that is put in order is written anew: the name of its module is taken as a text, cut at the dots and put
together again as a chain of attributes. Nothing of the name is lost on the way, dots in front of it included, wherever
the names that are imported can be put in order at all (`modules_rebuilt_iff`).
-/

namespace Mender.Import

open Syntax List Node Text

variable {module : String} {n s : Node} {parts : List String} {dots : Nat} {names : List (String × Option String)}
  {leading : List Node}

/-! ## Chains of attributes -/

/-- A chain of names with dots between them, by its parts. -/
inductive Spells : Node → List String → Prop
  | name {part : String} {ps : List Node} {m : Option Nat} : Spells (.mk .name part ps m) [part]
  | member {value attr l d r : Node} {t : String} {m : Option Nat} {parts : List String} : Spells value parts →
      attr.kind = .name → Spells (.mk .member t [l, value, d, attr, r] m) (parts ++ [attr.text])

lemma Spells.ne_nil (h : Spells n parts) : parts ≠ [] := by
  cases h <;> simp

lemma Spells.fullName?_eq (h : Spells n parts) : n.fullName? = some (".".intercalate parts) := by
  induction h with
  | name => rw [String.intercalate_singleton, fullName?]
  | member h _ ih =>
    rw [fullName?, ih, String.intercalate_append_of_ne_nil h.ne_nil (cons_ne_nil _ _), String.intercalate_singleton]
    rfl

lemma Spells.foldl (h : Spells n parts) (rest : List String) :
    Spells (rest.foldl (fun e part => make .member [(.value, e), (.attr, make .name [] part)]) n) (parts ++ rest) := by
  induction rest generalizing n parts with
  | nil => rwa [append_nil]
  | cons part rest ih =>
    rw [append_cons]
    exact ih (.member h rfl)

lemma spells_ofDotted (s : String) : Spells (ofDotted s) (pieces '.' s) := by
  rw [ofDotted]
  split
  next hnil => exact absurd (map_eq_nil_iff.1 hnil) (piecesOf_ne_nil _ _)
  next first rest hpieces =>
    rw [hpieces]
    exact Spells.foldl .name rest

lemma intercalate_pieces (s : String) : ".".intercalate (pieces '.' s) = s := by
  rw [← String.toList_inj, String.toList_intercalate, pieces, map_map]
  have hid : String.toList ∘ String.ofList = id := funext fun _ => String.toList_ofList
  rw [hid, map_id]
  exact intercalate_piecesOf '.' s.toList

lemma pieces_intercalate (hne : parts ≠ []) (h : ∀ part ∈ parts, '.' ∉ part.toList) :
    pieces '.' (".".intercalate parts) = parts := by
  rw [pieces, String.toList_intercalate]
  refine (congrArg _ (piecesOf_intercalate (mt map_eq_nil_iff.1 hne) (forall_mem_map.2 h))).trans ?_
  simp

lemma spells_intercalate (hne : parts ≠ []) (h : ∀ part ∈ parts, '.' ∉ part.toList) :
    Spells (ofDotted (".".intercalate parts)) parts := by
  have hspells := spells_ofDotted (".".intercalate parts)
  rwa [pieces_intercalate hne h] at hspells

lemma fullName?_ofDotted (s : String) : (ofDotted s).fullName? = some s := by
  rw [(spells_ofDotted s).fullName?_eq, intercalate_pieces]

/-! ## From-imports -/

@[simp] lemma importOf_lineOf (leading : List Node) (s : Node) : importOf (lineOf leading s) = s := rfl

/-- Are these the parts of a name, if what follows dots in front is the name? None has a dot in it, and the first one is
not empty. -/
def IsDotted (parts : List String) : Prop := parts.head? ≠ some "" ∧ ∀ part ∈ parts, '.' ∉ part.toList

/-- The text of a name of these parts behind some dots. -/
def dotted (dots : Nat) (parts : List String) : String := String.ofList (replicate dots '.') ++ ".".intercalate parts

/-- How a from-import names its module: by some dots and the parts of a name, of which there may be none. -/
structure NamesModule (s : Node) (dots : Nat) (parts : List String) : Prop where
  kind : s.kind = .importFrom
  dots : (s.list .relative).length = dots
  module : if parts = [] then (s.get .module).isPresent = false else Spells (s.get .module) parts

lemma fullName?_of_not_isPresent (h : n.isPresent = false) : n.fullName? = none := by
  obtain ⟨k, t, ps, m⟩ := n
  obtain rfl | rfl : k = .absent ∨ k = .auto := or_iff_not_imp_left.2 (by simpa [isPresent, kind] using h) <;> rfl

lemma NamesModule.moduleName_eq (h : NamesModule s dots parts) : s.moduleName = dotted dots parts := by
  have hmodule := h.module
  rw [moduleName, h.kind]
  show String.ofList (replicate (s.list .relative).length '.') ++ _ = _
  rw [h.dots]
  split at hmodule
  next hnil =>
    rw [fullName?_of_not_isPresent hmodule, hnil]
    rfl
  next => rw [hmodule.fullName?_eq, Option.getD_some, dotted]

/-- The dots in front of a name are those before its first part, which begins with no dot. -/
lemma takeWhile_dotted (h : IsDotted parts) : (dotted dots parts).toList.takeWhile (· == '.') = replicate dots '.' := by
  rw [dotted, String.toList_append, String.toList_ofList, takeWhile_append_of_pos (by simp), String.toList_intercalate]
  cases parts with
  | nil => simp
  | cons part rest =>
    have hne : part ≠ "" := fun hempty => h.1 (congrArg some hempty)
    have hdot := h.2 part (.head _)
    obtain ⟨c, cs, hpart⟩ := exists_cons_of_ne_nil (mt String.toList_eq_nil_iff.1 hne)
    rw [hpart] at hdot
    rw [map_cons, hpart, intercalate_cons_cons_left, takeWhile_cons_of_neg, append_nil]
    simpa using fun hc : c = '.' => hdot (hc ▸ .head _)

lemma namesModule_fromLine (h : IsDotted parts) (names : Node) :
    NamesModule (importOf (fromLine (dotted dots parts) names leading)) dots parts := by
  have hrest : ((dotted dots parts).drop dots).toString = ".".intercalate parts := by
    rw [← String.toList_inj, dotted]
    simp
  rw [fromLine, importOf_lineOf, takeWhile_dotted h, length_replicate, hrest]
  refine ⟨rfl, length_replicate, ?_⟩
  split
  next hnil =>
    subst hnil
    rfl
  next hne =>
    -- an empty text would have one part, which is empty
    have hempty : ¬ (".".intercalate parts).isEmpty = true := by
      intro hempty
      have hpieces := pieces_intercalate hne h.2
      rw [String.isEmpty_iff.1 hempty] at hpieces
      exact h.1 (hpieces ▸ rfl)
    show Spells (if _ then _ else _) parts
    rw [if_neg hempty]
    exact spells_intercalate hne h.2

/-- Every text is a name behind some dots. -/
lemma exists_dotted (s : String) : ∃ dots parts, IsDotted parts ∧ s = dotted dots parts := by
  rw [← String.ofList_toList (s := s)]
  generalize s.toList = cs
  induction cs with
  | nil => exact ⟨0, [], ⟨nofun, nofun⟩, rfl⟩
  | cons c cs ih =>
    by_cases hc : c = '.'
    · obtain ⟨dots, parts, h, hcs⟩ := ih
      refine ⟨dots + 1, parts, h, ?_⟩
      rw [← String.toList_inj] at hcs ⊢
      simpa [dotted, replicate_succ, hc] using hcs
    · refine ⟨0, pieces '.' (String.ofList (c :: cs)), ⟨?_, ?_⟩, ?_⟩
      · obtain ⟨piece, rest, hpieces⟩ := exists_cons_of_ne_nil (piecesOf_ne_nil '.' cs)
        simp [pieces, piecesOf, hc, hpieces, prependChar]
      · simpa [pieces] using fun _ => notMem_of_mem_piecesOf
      · simp [dotted, intercalate_pieces]

lemma moduleOn_fromLine (names : Node) (leading : List Node) : moduleOn (fromLine module names leading) = module := by
  obtain ⟨dots, parts, h, rfl⟩ := exists_dotted module
  exact (namesModule_fromLine h names).moduleName_eq

lemma fromImport_isOk (leading : List Node) :
    (fromImport module names leading).isOk = (sortNaturally (·.1) names).isOk := by
  rw [fromImport]
  cases sortNaturally (·.1) names <;> rfl

/-- **The name of a module is the same after it was taken apart and put together.** A dotted name becomes a chain of just
its parts. A from-import that is written anew, whatever comments stand above it, has the dots and the parts of the name
that it had, exactly if the names it imports can be compared: otherwise there is no such import. -/
theorem modules_rebuilt_iff (h : IsDotted parts) :
    (parts ≠ [] → Spells (ofDotted (".".intercalate parts)) parts ∧
      (ofDotted (".".intercalate parts)).fullName? = some (".".intercalate parts)) ∧
    ∀ s dots names leading, NamesModule s dots parts → names ≠ [] →
      ((∃ line, fromImport s.moduleName names leading = .ok line ∧ moduleOn line = s.moduleName ∧
        NamesModule (importOf line) dots parts) ↔ ∀ e ∈ names, ∀ e' ∈ names, Comparable e.1 e'.1) := by
  refine ⟨fun hne => ⟨spells_intercalate hne h.2, fullName?_ofDotted _⟩, fun s dots names leading hs _ => ?_⟩
  rw [← sortNaturally_isOk_iff, ← fromImport_isOk leading, isOk_iff_exists]
  refine exists_congr fun line => and_iff_left_of_imp fun hok => ?_
  have hline : NamesModule (importOf line) dots parts := by
    obtain ⟨sorted, -, hok⟩ := of_bind hok
    cases hok
    rw [hs.moduleName_eq]
    exact namesModule_fromLine h _
  exact ⟨hline.moduleName_eq.trans hs.moduleName_eq.symm, hline⟩

/-- Two dots and a name of two parts. -/
def relativeImport : Node := make .importFrom [(.relative, seq [make .dot [], make .dot []]), (.module, ofDotted "p.q"),
  (.names, fresh .importStar)]

/-- With two names that cannot be compared, this import cannot be written anew. -/
theorem relativeImport_not_rebuilt : relativeImport.moduleName = "..p.q" ∧ NamesModule relativeImport 2 ["p", "q"] ∧
    ¬ ∃ line, fromImport relativeImport.moduleName [("a1\u0663", none), ("a1b", none)] [] = .ok line ∧
      moduleOn line = relativeImport.moduleName ∧ NamesModule (importOf line) 2 ["p", "q"] := by
  have hnames : NamesModule relativeImport 2 ["p", "q"] := ⟨rfl, rfl, spells_ofDotted "p.q"⟩
  have hdotted : IsDotted ["p", "q"] := by simp [IsDotted]
  refine ⟨hnames.moduleName_eq, hnames, ?_⟩
  rw [(modules_rebuilt_iff hdotted).2 relativeImport 2 _ [] hnames (cons_ne_nil _ _), ← sortNaturally_isOk_iff]
  decide +kernel

end Mender.Import
