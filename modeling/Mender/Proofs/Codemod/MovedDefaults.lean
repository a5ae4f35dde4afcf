import Mender.Proofs.Codemod.Defaults
import Mender.Proofs.Scope.Nested

/-!
# What moved defaults mean

A default is evaluated where its function is defined, in the scope around the function. The codemod that renews mutable
defaults moves it into the body, where names are looked up from the scope of the function. The new statements bind
nothing but parameters.

* `exists_of_makes_renewing` — the defaults stand in the body afterwards;
* `moved_default_iff` — when the names in them mean the same there.
-/

namespace Mender.Codemod

open Syntax Node Scope List Option

/-- The way to the moved expression in the statement that makes a default. -/
def defaultWay : List (Slot × Nat) := [(.body, 0), (.value, 0), (.body, 0)]

lemma isFiller_freshDefault {param : Node} (h : hasMutableDefault param = true) :
    (freshDefault (param.get .default)).kind.isFiller = false := by
  rw [hasMutableDefault, Bool.and_eq_true, isMutableDefault, Bool.or_eq_true, isCallOf] at h
  rw [freshDefault]
  split
  · split <;> rfl
  · rcases h.2 with hkind | hcall
    · simp only [contains_cons, contains_nil, Bool.or_false, Bool.or_eq_true, beq_iff_eq] at hkind
      rcases hkind with hkind | hkind | hkind <;> (rw [hkind]; rfl)
    · rw [Bool.and_eq_true, Bool.and_eq_true, beq_iff_eq] at hcall
      rw [hcall.1.1]
      rfl

lemma at?_defaultStatement {param : Node} (h : hasMutableDefault param = true) :
    (defaultStatement param).at? defaultWay = some (freshDefault (param.get .default)) := by
  have hline (a : Node) : (Node.make .simpleStatementLine [(.body, Node.seq [a])]).get .body = Node.seq [a] := rfl
  have hrun (a : Node) : (Node.seq [a]).opened = [a] := rfl
  have hassign (x y : Node) : (Node.make .assign [(.targets, x), (.value, y)]).get .value = y := rfl
  have hvalue (x y z : Node) : (Node.make .ifExp [(.body, x), (.test, y), (.orelse, z)]).get .body = x := rfl
  have hkind (x y z : Node) : (Node.make .ifExp [(.body, x), (.test, y), (.orelse, z)]).kind.isFiller = false := rfl
  simp only [defaultStatement, defaultWay, at?, inner?, hline, hrun, hassign, hvalue, opened_node (hkind _ _ _),
    opened_node (isFiller_freshDefault h), getElem?_cons_zero, bind_some]

lemma exists_of_makes_renewing {t : Task} {f : Node} {e : Syntax.Edit} (hkind : f.kind = .functionDef)
    (hmade : madeParams f ≠ []) (h : t.renewing.Makes f e) :
    ∃ f' block : Node, e = .keep f' ∧ f'.get .body =
      block.setList .body (withDefaults ((madeParams f).map defaultStatement) (block.list .body)) := by
  obtain ⟨new, -, s, s', hleave⟩ := Pass.exists_rebuiltTo (fun _ => rfl) h
  rcases exists_of_leave hleave with ⟨hne, -⟩ | ⟨-, params, changed, function, -, hblock, -, hfunction, rfl⟩
  · exact absurd hkind hne
  · have hsome : (madeParams f).isEmpty = false := isEmpty_eq_false_iff.2 hmade
    refine ⟨function, new.get .body, rfl, ?_⟩
    obtain ⟨newParams, -, hfunction⟩ := of_bind hfunction
    rw [if_neg (by rw [hsome]; exact Bool.false_ne_true)] at hfunction
    obtain ⟨body, hbody, hfunction⟩ := of_bind hfunction
    obtain rfl := eq_of_sound hbody
    have hpresent : ((new.unmarked.set .params newParams).get .body).kind ≠ .absent := by
      rw [get_set_of_ne (by decide), get_unmarked, hblock hsome]
      decide
    rw [eq_of_sound hfunction]
    exact get_set_of_kind_ne hpresent _

lemma exists_scopes {module n : Node} {scope : Nat} (h : (Facts.of module).scope n = .ok scope) :
    (Facts.of module).scopes.Nested ∧ scope < (Facts.of module).scopes.frames.size := by
  rw [Facts.scope] at h
  split at h
  next i hi =>
    cases h
    obtain ⟨m, -, hm⟩ := bind_eq_some_iff.1 hi
    cases hscopes : Scopes.ofModule module with
    | error e =>
      have hnone : (Facts.of module).scopes = ⟨#[], #[], #[], #[]⟩ := by
        simp only [Facts.of, hscopes]
      rw [hnone] at hm
      cases hm
    | ok s =>
      have hsome : (Facts.of module).scopes = s := by
        simp only [Facts.of, hscopes]
      rw [hsome] at hm ⊢
      obtain ⟨hnested, hnoted⟩ := nested_ofModule hscopes
      refine ⟨hnested, hnoted m scope ?_⟩
      rw [Array.getD_eq_getD_getElem?] at hm
      cases hget : s.scopeOf[m]? with
      | none =>
        rw [hget] at hm
        cases hm
      | some i =>
        rw [hget] at hm
        exact congrArg some hm
  next => cases h

/-- **What a default means after it was moved.** The body of the new function begins with statements that make the
defaults from the expressions that stood in the list of parameters. Names in them are looked up from the scope of the
parameters, and no longer from the one around it. A name that the function declares global or nonlocal means what it means
in the scope that it is handed to. Any other name means the same just if the function does not bind it, as a parameter or
a local variable, and the scope around the function is no class body that binds it, or that declares it global or nonlocal
where it means something else around the class. In a comprehension or another function inside the default only what the
function binds matters. -/
theorem moved_default_iff {module : Node} {t : Task} (ht : t.facts = .of module) {f p : Node}
    (hkind : f.kind = .functionDef) (hp : p ∈ madeParams f) {scope : Nat}
    (hscope : t.facts.scope (p.get .name) = .ok scope) (hown : scope ≠ Scopes.builtinScope) :
    (∀ e, t.renewing.Makes f e → ∃ f' block : Node, e = .keep f' ∧ f'.get .body =
        block.setList .body (withDefaults ((madeParams f).map defaultStatement) (block.list .body))) ∧
    (defaultStatement p).at? defaultWay = some (freshDefault (p.get .default)) ∧
    ∀ name, let s := t.facts.scopes
      let around := (s.frame scope).parent
      (∀ target, s.handed? scope name = some target → s.lookup scope name = s.lookupInside target name ∧
        ((s.frame scope).level ≠ .classBody → s.lookupInside scope name = s.lookupInside target name)) ∧
      (s.handed? scope name = none →
        (s.handed? around name = none → (s.lookup scope name = s.lookup around name ↔ s.bound scope name = [] ∧
          (around ≠ Scopes.builtinScope → (s.frame around).level = .classBody → s.bound around name = []))) ∧
        (∀ target, s.handed? around name = some target → (s.lookup scope name = s.lookup around name ↔
          s.bound scope name = [] ∧ (around ≠ Scopes.builtinScope → (s.frame around).level = .classBody →
            s.lookupInside (s.frame around).parent name = s.lookupInside target name))) ∧
        ((s.frame scope).level ≠ .classBody →
          (s.lookupInside scope name = s.lookupInside around name ↔ s.bound scope name = []))) := by
  have hmutable : hasMutableDefault p = true := by
    rw [madeParams] at hp
    split at hp
    · cases hp
    · exact (mem_filter.1 hp).2
  refine ⟨fun e h => exists_of_makes_renewing hkind (ne_nil_of_mem hp) h, at?_defaultStatement hmutable, ?_⟩
  intro name s around
  rw [ht] at hscope
  obtain ⟨hnested, hsize⟩ := exists_scopes hscope
  rw [← ht] at hnested hsize
  have hpos : 0 < scope := Nat.pos_of_ne_zero hown
  refine ⟨fun target htarget => ⟨?_, fun hlevel => ?_⟩, Scopes.lookup_eq_parent_iff hnested hpos hsize⟩
  · exact Scopes.lookupTo_handed hnested hpos hsize htarget (by simp)
  · exact Scopes.lookupTo_handed hnested hpos hsize htarget (by simp [hlevel])

/-- A function whose default reads a name that is also one of its parameters. -/
def shadowedDefault : Node := (Node.ofModule? "x = 1\ndef f(x, a=[x]):\n    return a\n").getD Node.absent

def shadowedTask : Task where
  facts := .of shadowedDefault

theorem shadowedDefault_means_other : ∃ f ∈ shadowedDefault.met, ∃ p ∈ madeParams f, ∃ scope,
    shadowedTask.facts.scope (p.get .name) = .ok scope ∧
    shadowedTask.facts.scopes.lookup scope "x" ≠
      shadowedTask.facts.scopes.lookup (shadowedTask.facts.scopes.frame scope).parent "x" := by
  have hcheck : ((shadowedDefault.at? [(.body, 1)]).bind fun f => (madeParams f).head?.bind fun p =>
      (shadowedTask.facts.scope (p.get .name)).toOption.map fun scope => (f.kind, scope,
        shadowedTask.facts.scopes.handed? scope "x",
        shadowedTask.facts.scopes.handed? (shadowedTask.facts.scopes.frame scope).parent "x",
        (shadowedTask.facts.scopes.bound scope "x").isEmpty)) = some (.functionDef, 2, none, none, false) := by
    decide +kernel
  obtain ⟨f, hf, hcheck⟩ := bind_eq_some_iff.1 hcheck
  obtain ⟨p, hp, hcheck⟩ := bind_eq_some_iff.1 hcheck
  obtain ⟨scope, hscope, hcheck⟩ := exists_of_toOption_map hcheck
  simp only [Prod.mk.injEq] at hcheck
  obtain ⟨hkind, rfl, hhanded, haround, hbound⟩ := hcheck
  have hp := mem_of_mem_head? hp
  refine ⟨f, mem_met_of_at? hf, p, hp, 2, hscope, fun heq => ?_⟩
  have hfacts : shadowedTask.facts = .of shadowedDefault := rfl
  obtain ⟨-, -, hnames⟩ := moved_default_iff hfacts hkind hp hscope (by decide)
  exact isEmpty_eq_false_iff.1 hbound ((((hnames "x").2 hhanded).1 haround).1 heq).1

end Mender.Codemod
