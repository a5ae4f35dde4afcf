import Mender.Proofs.Scope.Nested
import Mender.Proofs.Scope.Parents

/-!
# Names that imports bind

An import statement may have several aliases, and the alias that has bound a name is looked for again among them: it is
the first one that has the name for its new name or for its real one. An access is spelled out as the import means it
if and only if no alias in front has the name for its real one, unless that makes no difference (`baseName?_iff`).
-/

namespace Mender

open List Option

namespace Syntax.Node

lemma mem_namesBound_of_importedAs? {a : Node} {x : String} (h : a.importedAs? = some x) : x ∈ a.namesBound := by
  rw [namesBound, h]
  exact mem_singleton_self x

lemma importedName_of_plain {a : Node} {x : String} (has : a.importedAs? = none) (hplain : (a.get .name).kind = .name)
    (hx : x ∈ a.namesBound) : a.importedName = x := by
  rw [namesBound, has] at hx
  rw [importedName]
  generalize a.get .name = name at hplain hx
  obtain ⟨k, t, ps, m⟩ := name
  cases hplain
  exact (mem_singleton.1 hx).symm

/-- Does an expression reach some attributes, one after the other, from another one? -/
inductive Reaches (leaf : Node) : Node → List String → Prop
  | self : Reaches leaf leaf []
  | member {n : Node} {attrs : List String} (hkind : n.kind = .member) (hparts : n.parts.length = 5)
      (h : Reaches leaf (n.get .value) attrs) : Reaches leaf n (attrs ++ [(n.get .attr).text])

end Syntax.Node

namespace Scope.Facts

open Syntax Node

/-- A name with attributes behind it. -/
def spelled (name : String) (attrs : List String) : String := attrs.foldl (fun s attr => s ++ "." ++ attr) name

lemma spelled_concat (name : String) (attrs : List String) (attr : String) :
    spelled name (attrs ++ [attr]) = spelled name attrs ++ "." ++ attr := by
  rw [spelled, foldl_append]
  rfl

lemma spelled_inj {name name' : String} {attrs : List String} : spelled name attrs = spelled name' attrs ↔ name = name' := by
  refine ⟨fun h => ?_, fun h => h ▸ rfl⟩
  induction attrs generalizing name name' with
  | nil => exact h
  | cons attr attrs ih => exact (String.append_left_inj _).1 ((String.append_left_inj _).1 (ih h))

/-- What a name that an alias binds means: what is imported, or, if a dotted name is, the package at its beginning. -/
def meant (statement a : Node) (x : String) : String :=
  if statement.kind = .importStatement ∧ a.importedAs? = none then x else importBase statement a

/-- Is a name bound by one alias of an import only? -/
structure MadeBy (statement a : Node) (before : List Node) (x : String) : Prop where
  only : ∃ behind, statement.aliases = before ++ a :: behind ∧ ∀ e ∈ before ++ behind, x ∉ e.namesBound
  binds : x ∈ a.namesBound
  plain : statement.kind ≠ .importStatement → (a.get .name).kind = .name
  named : meant statement a x ≠ ""

variable {f : Facts} {n leaf statement a e : Node} {before : List Node} {b : Binding} {x base : String}
  {attrs : List String}

lemma importBase_inj : importBase statement e = importBase statement a ↔ e.importedName = a.importedName := by
  rw [importBase, importBase]
  split
  · rfl
  · exact String.append_right_inj ..

lemma baseName?_of_reaches (h : Reaches leaf n attrs) (hleaf : f.baseName? leaf = .ok (some base)) :
    f.baseName? n = .ok (if base = "" ∧ attrs ≠ [] then none else some (spelled base attrs)) := by
  induction h with
  | self => rw [hleaf, if_neg (by simp)]; rfl
  | @member n attrs hkind hparts h ih =>
    obtain ⟨k, t, ps, m⟩ := n
    cases hkind
    obtain ⟨l, value, d, attr, r, rfl⟩ : ∃ l value d attr r, ps = [l, value, d, attr, r] := by
      match ps, hparts with
      | [l, value, d, attr, r], _ => exact ⟨l, value, d, attr, r, rfl⟩
    rw [baseName?]
    change f.baseName? value = _ at ih
    rw [ih]
    by_cases hbase : base = ""
    · by_cases hattrs : attrs = []
      · subst hbase hattrs
        rfl
      · rw [if_pos ⟨hbase, hattrs⟩, if_pos ⟨hbase, by simp⟩]
        rfl
    · have hne : (spelled base attrs).isEmpty = false := by
        rw [Bool.eq_false_iff, ne_eq, String.isEmpty_iff]
        cases attrs using reverseRecOn with
        | nil => exact hbase
        | append_singleton as a => simp [spelled_concat]
      rw [if_neg (by simp [hbase]), if_neg (by simp [hbase]), spelled_concat]
      change Except.ok (if (spelled base attrs).isEmpty = true then none else _) = _
      rw [hne]
      rfl

lemma name_of_single? (hkind : leaf.kind = .name) (h : f.single? leaf = .ok (some b)) : b.name = leaf.text := by
  obtain ⟨k, t, ps, m⟩ := leaf
  cases hkind
  obtain ⟨bs, hbs, h⟩ := of_bind h
  obtain ⟨scope, -, hbs⟩ := of_bind hbs
  split at h
  next b' =>
    cases h
    split at hbs
    next access rest haccess =>
      have hmem : access ∈ f.scopes.accessesOf scope (.mk .name t ps m) := haccess ▸ mem_cons_self ..
      rw [Scopes.accessesOf, simpleName?, Array.mem_toList_iff, Array.mem_filter, Bool.and_eq_true] at hmem
      rw [Scopes.name_of_mem_referents (Except.ok.inj hbs ▸ mem_singleton_self b)]
      exact beq_iff_eq.1 hmem.2.2
    next => cases hbs
  next => cases h

/-- What the name at the left end of an access is spelled out as: the alias that is found again for it decides. -/
def found (statement : Node) (x : String) : String := ((aliasNamed? statement x).map (importBase statement)).getD x

lemma baseName?_of_single? (hkind : leaf.kind = .name) (hsingle : f.single? leaf = .ok (some b))
    (himport : f.importOf? b = some statement) : f.baseName? leaf = .ok (some (found statement leaf.text)) := by
  have hname := name_of_single? hkind hsingle
  obtain ⟨k, t, ps, m⟩ := leaf
  cases hkind
  rw [baseName?, importedName, hsingle]
  dsimp only [bind, Except.bind]
  rw [himport]
  dsimp only
  rw [if_pos (beq_iff_eq.2 hname), hname, found]
  cases aliasNamed? statement (Node.mk .name t ps m).text <;> rfl

/-! ## The alias that is found -/

lemma namesBound_of_aliasNamed? (h : aliasNamed? statement x = some e) :
    e ∈ statement.aliases ∧ (x ∈ e.namesBound ∧ e.importedAs? = some x ∨ e.importedName = x) := by
  have hfound := find?_some h
  rw [Bool.or_eq_true, beq_iff_eq, beq_iff_eq] at hfound
  exact ⟨mem_of_find?_eq_some h, hfound.imp_left fun has => ⟨mem_namesBound_of_importedAs? has, has⟩⟩

lemma found_of_plain (h : MadeBy statement a before x) (has : a.importedAs? = none) :
    found statement x = meant statement a x := by
  obtain ⟨behind, haliases, hothers⟩ := h.only
  have hreal {e : Node} (he : aliasNamed? statement x = some e) : e.importedName = x := by
    obtain ⟨hmem, ⟨hbound, hnew⟩ | hreal⟩ := namesBound_of_aliasNamed? he
    · rw [haliases] at hmem
      rcases mem_append.1 hmem with hmem | hmem
      · exact absurd hbound (hothers e (mem_append_left _ hmem))
      · rcases mem_cons.1 hmem with rfl | hmem
        · rw [has] at hnew
          cases hnew
        · exact absurd hbound (hothers e (mem_append_right _ hmem))
    · exact hreal
  rw [found, meant]
  by_cases hkind : statement.kind = .importStatement
  · rw [if_pos ⟨hkind, has⟩]
    cases he : aliasNamed? statement x with
    | none => rfl
    | some e => exact (if_pos (beq_iff_eq.2 hkind)).trans (hreal he)
  · have hname : a.importedName = x := importedName_of_plain has (h.plain hkind) h.binds
    rw [if_neg fun hboth => hkind hboth.1]
    cases he : aliasNamed? statement x with
    | none =>
      have hnot := find?_eq_none.1 he a (haliases ▸ mem_append_right _ (.head _))
      simp [hname] at hnot
    | some e => exact importBase_inj.2 ((hreal he).trans hname.symm)

/-- An alias with a new name is found unless one in front of it has that name for the real one. -/
lemma found_iff_of_renamed (h : MadeBy statement a before x) (has : a.importedAs? = some x) :
    found statement x = meant statement a x ↔ a.importedName = x ∨ ∀ e ∈ before, e.importedName ≠ x := by
  obtain ⟨behind, haliases, hothers⟩ := h.only
  have hmatch (e : Node) (he : e ∈ before) : (e.importedAs? == some x || e.importedName == x) = (e.importedName == x) := by
    have hnew : e.importedAs? ≠ some x := fun hnew => hothers e (mem_append_left _ he) (mem_namesBound_of_importedAs? hnew)
    rw [beq_eq_false_iff_ne.2 hnew, Bool.false_or]
  rw [found, meant, if_neg (by simp [has]), aliasNamed?, haliases, find?_append, find?_cons_of_pos (by simp [has])]
  cases hfront : before.find? fun e => e.importedAs? == some x || e.importedName == x with
  | none =>
    refine iff_of_true rfl (.inr fun e he hname => ?_)
    have hnot := find?_eq_none.1 hfront e he
    rw [hmatch e he] at hnot
    exact hnot (beq_iff_eq.2 hname)
  | some e =>
    have he := mem_of_find?_eq_some hfront
    have hname : e.importedName = x := by
      have hfound := find?_some hfront
      rw [hmatch e he] at hfound
      exact beq_iff_eq.1 hfound
    change importBase statement e = _ ↔ _
    rw [importBase_inj, hname]
    exact ⟨fun h => .inl h.symm, fun h => h.elim Eq.symm fun hnone => absurd hname (hnone e he)⟩

/-- **Names mean what their import binds**, if and only if the alias that has bound the name keeps its real name, or no
alias in front of it in the statement has the name for its real one. -/
theorem baseName?_iff (hkind : leaf.kind = .name) (hn : Reaches leaf n attrs) (hsingle : f.single? leaf = .ok (some b))
    (himport : f.importOf? b = some statement) (hmade : MadeBy statement a before leaf.text) :
    f.baseName? n = .ok (some (spelled (meant statement a leaf.text) attrs)) ↔
      a.importedAs? = none ∨ a.importedName = leaf.text ∨ ∀ e ∈ before, e.importedName ≠ leaf.text := by
  have hfound : f.baseName? n = .ok (some (spelled (meant statement a leaf.text) attrs)) ↔
      found statement leaf.text = meant statement a leaf.text := by
    rw [baseName?_of_reaches hn (baseName?_of_single? hkind hsingle himport)]
    constructor
    · intro h
      split at h
      · cases h
      · exact spelled_inj.1 (some.inj (Except.ok.inj h))
    · intro h
      rw [h, if_neg fun hempty => hmade.named hempty.1]
  rw [hfound]
  cases has : a.importedAs? with
  | none => exact iff_of_true (found_of_plain hmade has) (.inl rfl)
  | some name =>
    have hname : leaf.text = name := by
      have hbinds := hmade.binds
      rw [namesBound, has] at hbinds
      exact mem_singleton.1 hbinds
    rw [found_iff_of_renamed hmade (hname ▸ has)]
    simp

/-- A module that takes two things from another one, the second under the real name of the first. -/
def crossedNames : Node := (ofModule? "from m import b as c, a as b\nb.f\n").getD absent

def crossedAccess : Node := (crossedNames.nodes.find? (·.kind == .member)).getD absent

def crossedLeaf : Node := crossedAccess.get .value

/-- The name stands for `m.a`, and the access is not spelled out as `m.a.f`. -/
theorem crossedNames_mixed_up : ∃ b statement a before, crossedLeaf.kind = .name ∧
    Reaches crossedLeaf crossedAccess ["f"] ∧ (of crossedNames).single? crossedLeaf = .ok (some b) ∧
    (of crossedNames).importOf? b = some statement ∧ MadeBy statement a before crossedLeaf.text ∧
    spelled (meant statement a crossedLeaf.text) ["f"] = "m.a.f" ∧
    (of crossedNames).baseName? crossedAccess ≠ .ok (some "m.a.f") := by
  have hleaf : crossedLeaf.kind = .name ∧ crossedLeaf.text = "b" := by decide +kernel
  have hreaches : Reaches crossedLeaf crossedAccess ["f"] := by
    have hattr : (crossedAccess.get .attr).text = "f" := by decide +kernel
    exact hattr ▸ .member (by decide +kernel) (by decide +kernel) .self
  have hcheck : (((of crossedNames).single? crossedLeaf).toOption.bind fun o => o.bind fun b =>
      ((of crossedNames).importOf? b).map fun s => (s.kind, s.moduleName, s.aliases.map fun e =>
        (e.importedName, e.importedAs?, (e.get .name).kind))) =
      some (.importFrom, "m", [("b", some "c", .name), ("a", some "b", .name)]) := by decide +kernel
  obtain ⟨o, hsingle, hcheck⟩ := bind_eq_some_iff.1 hcheck
  obtain ⟨b, rfl, hcheck⟩ := bind_eq_some_iff.1 hcheck
  obtain ⟨statement, himport, hcheck⟩ := map_eq_some_iff.1 hcheck
  have hsingle : (of crossedNames).single? crossedLeaf = .ok (some b) := by
    cases h : (of crossedNames).single? crossedLeaf with
    | error e => rw [h] at hsingle; cases hsingle
    | ok o => rw [h] at hsingle; cases hsingle; rfl
  simp only [Prod.mk.injEq] at hcheck
  obtain ⟨hkind, hmodule, haliases⟩ := hcheck
  obtain ⟨e, a, hboth⟩ : ∃ e a, statement.aliases = [e, a] := length_eq_two.1 (by simpa using congrArg length haliases)
  simp only [hboth, map_cons, map_nil, cons.injEq, Prod.mk.injEq, and_true] at haliases
  obtain ⟨⟨hreal, hnew, -⟩, hreal', hnew', hplain⟩ := haliases
  have hmeant : meant statement a "b" = "m.a" := by
    rw [meant, if_neg (by simp [hkind]), importBase, if_neg (by simp [hkind]), hmodule, hreal']
    rfl
  have hmade : MadeBy statement a [e] crossedLeaf.text := by
    rw [hleaf.2]
    refine ⟨⟨[], hboth, fun e' he' => ?_⟩, mem_namesBound_of_importedAs? hnew', fun _ => hplain, by rw [hmeant]; decide⟩
    rw [mem_singleton.1 he', namesBound, hnew]
    simp
  refine ⟨b, statement, a, [e], hleaf.1, hreaches, hsingle, himport, hmade, by rw [hleaf.2, hmeant]; decide, fun h => ?_⟩
  have hiff := (baseName?_iff hleaf.1 hreaches hsingle himport hmade).1 (by rw [hleaf.2, hmeant, h]; decide)
  simp [hleaf.2, hreal, hreal', hnew'] at hiff

end Scope.Facts

end Mender
