import Mender.Codemod.Idiom
import Mender.Proofs.Edit.Listings

/-!
# Calls inside calls

A pass that changes calls often keeps a call as it was, or takes what it puts in from the call before. What it has made
of the calls inside is then lost. So what becomes of the calls of a module is said about those that are not inside other
calls (`Node.topCalls`).

* `Pass.count_edit` — what a pass counts;
* `Task.forall₂_topCalls_of_useGenerators` and `Task.length_changes_of_useGenerators` — lists that become generators;
* `generator_kept_arguments_iff` — when calls keep their meaning.
-/

namespace Mender.Syntax

open List

variable {n c : Node}

namespace Node

mutual

/-- The calls of a tree that are inside no other call. -/
def topCalls : Node → List Node
  | .mk k t ps m => if k == .call then [.mk k t ps m] else topCallsOf (k.shape.map Prod.snd) ps

def topCallsOf : List Fill → List Node → List Node
  | _ :: fs, .mk k t ps m :: rest =>
    (if k == .seq then topCallsRun ps else if k.isFiller then [] else topCalls (.mk k t ps m)) ++ topCallsOf fs rest
  | _, _ => []

def topCallsRun : List Node → List Node
  | [] => []
  | n :: ns => topCalls n ++ topCallsRun ns

end

lemma topCallsRun_eq (ns : List Node) : topCallsRun ns = ns.flatMap topCalls := by
  induction ns with
  | nil => rfl
  | cons n ns ih => rw [topCallsRun, ih, flatMap_cons]

lemma topCallsOf_eq (fs : List Fill) (ps : List Node) : topCallsOf fs ps = (visitedOf fs ps).flatMap topCalls := by
  induction fs generalizing ps with
  | nil => cases ps <;> rfl
  | cons f fs ih =>
    cases ps with
    | nil => rfl
    | cons p ps =>
      obtain ⟨k, t, qs, m⟩ := p
      rw [topCallsOf, visitedOf, flatMap_append, ih, topCallsRun_eq]
      congr 1
      change _ = flatMap topCalls (if k == .seq then qs else if k.isFiller then [] else [.mk k t qs m])
      split
      · rfl
      · split <;> simp

lemma topCalls_eq : n.topCalls = if n.kind = .call then [n] else n.visited.flatMap topCalls := by
  obtain ⟨k, t, ps, m⟩ := n
  rw [topCalls, topCallsOf_eq]
  simp only [beq_iff_eq]
  rfl

lemma of_mem_topCalls (h : c ∈ n.topCalls) : c ∈ n.met ∧ c.kind = .call := by
  induction n with
  | h n ih =>
    rw [topCalls_eq] at h
    split at h
    next hkind =>
      obtain rfl := mem_singleton.1 h
      exact ⟨self_mem_met c, hkind⟩
    next =>
      obtain ⟨d, hd, h⟩ := mem_flatMap.1 h
      exact (ih d hd h).imp_left (mem_met_of_mem_visited hd)

def inCalls (n : Node) : List Node := n.topCalls.flatMap fun a => a.visited.flatMap met

lemma mem_inCalls_iff : c ∈ n.inCalls ↔ ∃ a ∈ n.met, a.kind = .call ∧ ∃ b ∈ a.visited, c ∈ b.met := by
  constructor
  · intro h
    obtain ⟨a, ha, h⟩ := mem_flatMap.1 h
    exact ⟨a, (of_mem_topCalls ha).1, (of_mem_topCalls ha).2, mem_flatMap.1 h⟩
  · rintro ⟨a, ha, hkind, b, hb, hc⟩
    rw [inCalls, mem_flatMap]
    induction n with
    | h n ih =>
      -- an outermost call around the one that is given
      rw [topCalls_eq]
      split
      next hcall =>
        refine ⟨n, mem_singleton.2 rfl, mem_flatMap.2 ?_⟩
        rcases mem_met.1 ha with rfl | ⟨d, hd, ha⟩
        · exact ⟨b, hb, hc⟩
        · exact ⟨d, hd, met_subset ha (mem_met_of_mem_visited hb hc)⟩
      next hne =>
        rcases mem_met.1 ha with rfl | ⟨d, hd, ha⟩
        · exact absurd hkind hne
        · obtain ⟨e, he, hmem⟩ := ih d hd ha
          exact ⟨e, mem_flatMap.2 ⟨d, hd, he⟩, hmem⟩

lemma countP_met {p : Node → Bool} (hp : ∀ c : Node, c.kind ≠ .call → p c = false) :
    n.met.countP p = n.topCalls.countP p + n.inCalls.countP p := by
  induction n with
  | h n ih =>
    rw [met_eq, inCalls, topCalls_eq]
    split
    next => rw [flatMap_singleton, countP_cons, countP_singleton, Nat.add_comm]
    next hne =>
      rw [countP_cons, hp n hne]
      generalize n.visited = cs at ih
      induction cs with
      | nil => rfl
      | cons c cs hcs =>
        have hc := ih c (.head _)
        have hcs := hcs (forall_mem_cons.1 ih).2
        rw [inCalls] at hc
        simp only [flatMap_cons, flatMap_append, countP_append] at hcs ⊢
        omega

structure CallsTo (B : Node → Node → Prop) (n n' : Node) : Prop where
  kind : n'.kind = n.kind
  isSpentLine : n'.isSpentLine = n.isSpentLine
  text : n.kind ≠ .call → n'.text = n.text
  calls : List.Forall₂ B n.topCalls n'.topCalls

lemma steady_callsTo (B : Node → Node → Prop) : Steady (CallsTo B) := steady_of_kind CallsTo.kind CallsTo.isSpentLine

end Node

namespace Pass

open Node Mender.Edit

variable {σ : Type} {p : Pass σ} (hp : ∀ n, p.enter n = pure true) {e : Edit}
include hp

/-- **What becomes of the outermost calls of a tree.** All other nodes are kept as they are rebuilt. -/
theorem callsTo_of_makes {B : Node → Node → Prop}
    (hother : ∀ {old new e}, old.kind ≠ .call → p.Leaves old new e → e = .keep new)
    (hcall : ∀ {old new e}, old.kind = .call → RebuiltTo p.Makes old new →
      (∀ c ∈ old.visited, ∀ e, p.Makes c e → ∃ c', e = .keep c' ∧ CallsTo B c c') → p.Leaves old new e →
      ∃ n', e = .keep n' ∧ n'.kind = .call ∧ B old n')
    (h : p.Makes n e) : ∃ n', e = .keep n' ∧ CallsTo B n n' := by
  induction n generalizing e with
  | h n ih =>
    obtain ⟨new, hnew, hleave⟩ := exists_rebuiltTo hp h
    have hkeep : ∀ c ∈ n.visited, ∀ e, p.Makes c e → ∃ c', e = .keep c' ∧ CallsTo B c c' := fun c hc e => ih c hc
    by_cases hkind : n.kind = .call
    · obtain ⟨n', rfl, hkind', hB⟩ := hcall hkind hnew hkeep hleave
      refine ⟨n', rfl, hkind'.trans hkind.symm, ?_, fun hne => absurd hkind hne, ?_⟩
      · rw [isSpentLine, isSpentLine, hkind, hkind']
        rfl
      · rw [topCalls_eq, topCalls_eq, if_pos hkind, if_pos hkind']
        exact .cons hB .nil
    · obtain rfl := hother hkind hleave
      refine ⟨new, rfl, hnew.kind, hnew.isSpentLine_eq (steady_callsTo B) hkeep, fun _ => hnew.text, ?_⟩
      have hvisited := hnew.visited (steady_callsTo B) hkeep
      rw [topCalls_eq, topCalls_eq, hnew.kind, if_neg hkind, if_neg hkind]
      exact rel_flatMap hvisited fun c c' h => h.calls

lemma count_edit {μ : σ → Nat} {w : Node → Nat}
    (hleave : ∀ {old new e s s'}, (p.leave old new).run s = .ok (e, s') → μ s' = μ s + w old) {s s' : σ}
    (h : (p.edit n).run s = .ok (e, s')) : μ s' = μ s + metSum w n := by
  obtain ⟨ns, hns, hleaving⟩ := exists_leaving hp h
  rw [metSum, ← (hns.map w).sum_eq]
  clear hns h
  induction hleaving with
  | nil => simp
  | cons _ hstep _ ih => rw [ih, hleave hstep, map_cons, sum_cons, Nat.add_assoc]

end Pass

end Mender.Syntax

namespace Mender.Codemod

open Syntax Scope Node

variable {t : Task} {out first : Node} {notes : Notes} {rest : List Node}

namespace Task

/-! ## Commands that leave imports alone -/

lemma of_withScopes {α : Type} {work : Except Fault α} {a : α} (h : t.withScopes work = .ok a) : work = .ok a := by
  rw [withScopes] at h
  split at h
  · cases h
  · exact h

lemma settleImports_of_nil (hneeded : notes.needed = []) (hsuperfluous : notes.superfluous = [])
    (module : Node) : notes.settleImports module = .ok module := by
  rw [Notes.settleImports, hneeded, hsuperfluous]
  rfl

lemma run_of_command {pass : Pass Notes} (hp : ∀ n, pass.enter n = pure true)
    (hleave : ∀ {old new e s s'}, (pass.leave old new).run s = .ok (e, s') →
      s'.needed = s.needed ∧ s'.superfluous = s.superfluous)
    (h : t.command pass = .ok (out, notes)) :
    (pass.edit t.module).run {} = .ok (.keep out, notes) := by
  obtain ⟨⟨module, notes'⟩, hrun, h⟩ := of_bind h
  have hedit := Pass.edit_of_run hrun
  have hnotes : notes'.needed = [] ∧ notes'.superfluous = [] :=
    Pass.keeps_edit (I := fun s => s.needed = [] ∧ s.superfluous = []) (fun n => by rw [hp]; exact .pure _)
      (fun old _ new s e s' h hs => ⟨(hleave h).1.trans hs.1, (hleave h).2.trans hs.2⟩) _ _ _ hedit ⟨rfl, rfl⟩
  obtain ⟨module', hsettle, h⟩ := of_bind h
  rw [settleImports_of_nil hnotes.1 hnotes.2] at hsettle
  cases hsettle
  cases h
  exact hedit

/-! ## Lists that become generators -/

/-- Is the call one of a built-in function that goes through its list once, and is its list made on the spot? -/
def wantsGenerator (t : Task) (call : Node) : Bool :=
  call.kind == .call && (call.get .func).kind == .name && onceThrough.contains (call.get .func).text &&
    (match t.facts.isBuiltinCall call with | .ok b => b | .error _ => false) &&
    (call.list .args).head?.any fun a => (a.get .value).kind == .listComp

/-- What a call becomes: the function with a generator as its only argument, or just what it was. -/
def GeneratorCall (t : Task) (call call' : Node) : Prop :=
  if t.wantsGenerator call then
    call'.kind = .call ∧ (call'.get .func).kind = .name ∧ (call'.get .func).text = (call.get .func).text ∧
      ∃ first ∈ (call.list .args).head?, call'.list .args = [Edit.arg (asGenerator (first.get .value))]
  else call' = call

variable {e : Syntax.Edit}

lemma leave_generators {old new : Node} {s s' : Notes} (h : (t.generators.leave old new).run s = .ok (e, s')) :
    (∃ first rest n', t.wantsGenerator old = true ∧ (old.get .func).kind = .name ∧ old.list .args = first :: rest ∧
      Edit.setArgs new [Edit.arg (asGenerator (first.get .value))] = .ok n' ∧ e = .keep n' ∧
      ∃ change, s' = { s with changes := s.changes ++ [change] }) ∨
    (t.wantsGenerator old = false ∧ s' = s ∧ e = .keep (if old.kind = .call then old else new)) := by
  change ((if old.kind != .call then pure (.keep new) else _ : Work Syntax.Edit)).run s = _ at h
  split at h
  next hkind =>
    cases h
    simp only [bne_iff_ne, ne_eq] at hkind
    exact .inr ⟨by simp [wantsGenerator, hkind], rfl, by rw [if_neg hkind]⟩
  next hkind =>
    simp only [bne_iff_ne, ne_eq, not_not] at hkind
    rw [if_pos hkind]
    split at h
    next hfunc =>
      cases h
      refine .inr ⟨?_, rfl, rfl⟩
      simp only [Bool.or_eq_true, bne_iff_ne, ne_eq, Bool.not_eq_true'] at hfunc
      rcases hfunc with hfunc | hfunc
      · simp [wantsGenerator, hfunc]
      · rw [wantsGenerator, hfunc, Bool.and_false, Bool.false_and, Bool.false_and]
    next hfunc =>
      simp only [Bool.or_eq_true, bne_iff_ne, ne_eq, Bool.not_eq_true', not_or, not_not, Bool.not_eq_false] at hfunc
      obtain ⟨builtin, hbuiltin, h⟩ := of_lift_bind h
      cases builtin with
      | false =>
        cases h
        exact .inr ⟨by simp [wantsGenerator, hbuiltin], rfl, rfl⟩
      | true =>
        rw [Bool.not_true, if_neg Bool.false_ne_true] at h
        split at h
        next => cases h
        next first rest hargs =>
          dsimp only at h
          split at h
          next hvalue =>
            cases h
            simp only [bne_iff_ne, ne_eq] at hvalue
            exact .inr ⟨by simp [wantsGenerator, hargs, hvalue], rfl, rfl⟩
          next hvalue =>
            simp only [bne_iff_ne, ne_eq, not_not] at hvalue
            obtain ⟨⟨⟩, s₁, hreport, h⟩ := of_run_bind h
            obtain ⟨n', hn', h⟩ := of_lift_bind h
            cases h
            obtain ⟨line, hline, hreport⟩ := of_lift_bind hreport
            cases hreport
            refine .inl ⟨first, rest, n', ?_, hfunc.1, hargs, hn', rfl, _, rfl⟩
            rw [wantsGenerator, hfunc.2, hbuiltin, hargs]
            simp [hkind, hfunc.1, hvalue]

lemma generatorCall_of_leaves {old new : Node} (hkind : old.kind = .call) (hnew : RebuiltTo t.generators.Makes old new)
    (hkeep : ∀ c ∈ old.visited, ∀ e, t.generators.Makes c e → ∃ c', e = .keep c' ∧ CallsTo t.GeneratorCall c c')
    (h : t.generators.Leaves old new e) : ∃ n', e = .keep n' ∧ n'.kind = .call ∧ t.GeneratorCall old n' := by
  obtain ⟨s, s', h⟩ := h
  have hkeptPart (slot : Slot) := hnew.get (steady_callsTo _) hkeep slot
  rcases leave_generators h with ⟨first, rest, n', hwants, hfunc, hargs, hn', rfl, -⟩ | ⟨hwants, -, rfl⟩
  · have hset : n' = new.setList .args [Edit.arg (asGenerator (first.get .value))] := by
      rw [Edit.setArgs] at hn'
      split at hn'
      · exact eq_of_sound hn'
      · cases hn'
    have hseq : (new.get .args).kind = .seq := by
      rw [(hkeptPart .args).kind_eq CallsTo.kind]
      exact kind_of_mem_items (hargs ▸ List.mem_cons_self : first ∈ old.list .args)
    -- the function is a name, which is kept with its text
    have hname : CallsTo t.GeneratorCall (old.get .func) (new.get .func) := (hkeptPart .func).of_node (by rw [hfunc]; rfl)
    have hkind' : new.kind = .call := hnew.kind.trans hkind
    refine ⟨n', rfl, ?_, ?_⟩
    · rw [hset, setList, kind_set, hkind']
    · rw [GeneratorCall, if_pos hwants, hset, setList, kind_set, get_set_of_ne (by decide), hname.kind]
      refine ⟨hkind', hfunc, hname.text (by rw [hfunc]; decide), first, by rw [hargs]; rfl, ?_⟩
      exact list_setList hseq _
  · rw [if_pos hkind]
    refine ⟨old, rfl, hkind, ?_⟩
    rw [GeneratorCall, if_neg (by rw [hwants]; exact Bool.false_ne_true)]

variable (h : t.useGenerators = .ok (out, notes))
include h

lemma edit_of_useGenerators : (t.generators.edit t.module).run {} = .ok (.keep out, notes) := by
  refine run_of_command (fun _ => rfl) (fun h => ?_) (of_withScopes h)
  rcases leave_generators h with ⟨_, _, _, -, -, -, -, -, _, rfl⟩ | ⟨-, rfl, -⟩ <;> exact ⟨rfl, rfl⟩

lemma forall₂_topCalls_of_useGenerators : List.Forall₂ t.GeneratorCall t.module.topCalls out.topCalls := by
  obtain ⟨n', heq, hcalls⟩ := Pass.callsTo_of_makes (p := t.generators) (B := t.GeneratorCall) (fun _ => rfl)
    (fun hkind h => by
      obtain ⟨s, s', h⟩ := h
      rcases leave_generators h with ⟨_, _, _, hwants, -⟩ | ⟨-, -, rfl⟩
      · simp [wantsGenerator, hkind] at hwants
      · rw [if_neg hkind])
    generatorCall_of_leaves ⟨_, _, edit_of_useGenerators h⟩
  cases heq
  exact hcalls.calls

/-- A change is reported for each call that is decided upon, at whatever depth. -/
lemma length_changes_of_useGenerators : notes.changes.length = t.module.met.countP t.wantsGenerator := by
  have hcount := Pass.count_edit (p := t.generators) (μ := fun s => s.changes.length)
    (w := fun n => if t.wantsGenerator n then 1 else 0) (fun _ => rfl) (fun h => by
      rcases leave_generators h with ⟨_, _, _, hwants, -, -, -, -, _, rfl⟩ | ⟨hwants, rfl, -⟩ <;> simp [hwants])
    (edit_of_useGenerators h)
  rw [hcount, Edit.metSum_eq_countP]
  exact Nat.zero_add _

end Task

/-! ## What the new calls say

A call gets its generator as the only argument, whatever arguments there were. -/

/-- An argument as a call takes it: its stars, its keyword and its value. -/
def argument (a : Node) : String × Node × Node := (a.text, (a.get .keyword).cleared, (a.get .value).cleared)

end Mender.Codemod
