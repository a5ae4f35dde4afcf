import Mathlib.Data.List.GetD
import Mender.Proofs.Outcomes
import Mender.Syntax.Walk

/-!
# What passes make of trees

A pass goes into a node, edits the nodes in it and makes something of the rebuilt node. For proofs this is said without
state and without the three functions that call each other: `Node.visited` are the nodes that a pass goes on to,
`Node.rebuild` puts together what it has made of them, and `Pass.editing_eq` is the pass in these terms.

* `Node.visitedInduction` — induction over a tree along the nodes that passes visit.
-/

namespace Mender.Syntax

open List

variable {n c n' p : Node} {P : Node → Prop} {fs : List Fill} {ps ns : List Node} {i : Nat} {g : Node → Except Fault Edit}

namespace Node

/-- The nodes that a pass goes on to in one place: the members of a run, or what else stands there. -/
def opened (p : Node) : List Node := if p.kind == .seq then p.parts else if p.kind.isFiller then [] else [p]

lemma opened_run (h : p.kind = .seq) : p.opened = p.parts := by
  rw [opened, if_pos (beq_iff_eq.2 h)]

lemma items_run (h : p.kind = .seq) : p.items = p.parts := if_pos h

lemma kind_of_mem_items (h : c ∈ p.items) : p.kind = .seq := by
  by_contra hne
  rw [items, if_neg hne] at h
  cases h

lemma opened_filler (h : p.kind.isFiller = true) (hseq : p.kind ≠ .seq) : p.opened = [] := by
  rw [opened, if_neg (mt beq_iff_eq.1 hseq), if_pos h]

lemma ne_seq_of_isFiller {k : Kind} (h : k.isFiller = false) : k ≠ .seq := by
  rintro rfl
  cases h

lemma opened_node (h : p.kind.isFiller = false) : p.opened = [p] := by
  rw [opened, if_neg (mt beq_iff_eq.1 (ne_seq_of_isFiller h)), h]
  rfl

/-- The nodes that a pass goes on to, from parts and the places they stand in. -/
def visitedOf : List Fill → List Node → List Node
  | _ :: fs, p :: ps => p.opened ++ visitedOf fs ps
  | _, _ => []

/-- The nodes that a pass goes on to from a node. -/
def visited (n : Node) : List Node := visitedOf (n.kind.shape.map Prod.snd) n.parts

lemma sizeOf_lt_of_mem_parts (h : p ∈ n.parts) : sizeOf p < sizeOf n := by
  obtain ⟨k, t, ps, m⟩ := n
  have := sizeOf_lt_of_mem h
  simp only [parts, mk.sizeOf_spec] at this ⊢
  omega

lemma partsInduction (h : ∀ n, (∀ p ∈ n.parts, P p) → P n) (n : Node) : P n := h n fun p _hp => partsInduction h p
termination_by sizeOf n
decreasing_by exact sizeOf_lt_of_mem_parts _hp

lemma cases_of_mem_opened (h : c ∈ p.opened) : c = p ∧ p.kind.isFiller = false ∨ p.kind = .seq ∧ c ∈ p.parts := by
  revert h
  fun_cases opened p with
  | case1 hseq => exact fun h => .inr ⟨beq_iff_eq.1 hseq, h⟩
  | case2 => rintro ⟨⟩
  | case3 _ hfill => exact fun h => .inl ⟨mem_singleton.1 h, Bool.eq_false_iff.2 hfill⟩

lemma exists_getElem?_of_mem_visitedOf (h : c ∈ visitedOf fs ps) :
    ∃ i < fs.length, ∃ p, ps[i]? = some p ∧ c ∈ p.opened := by
  fun_induction visitedOf fs ps with
  | case1 f fs p ps ih =>
    rcases mem_append.1 h with h | h
    · exact ⟨0, Nat.zero_lt_succ _, p, rfl, h⟩
    · obtain ⟨i, hi, hc⟩ := ih h
      exact ⟨i + 1, Nat.succ_lt_succ hi, hc⟩
  | case2 => cases h

lemma mem_visitedOf (h : c ∈ visitedOf fs ps) : ∃ p ∈ ps, c = p ∧ p.kind.isFiller = false ∨ p.kind = .seq ∧ c ∈ p.parts := by
  obtain ⟨i, -, p, hp, hc⟩ := exists_getElem?_of_mem_visitedOf h
  exact ⟨p, mem_of_getElem? hp, cases_of_mem_opened hc⟩

lemma sizeOf_lt_of_mem_visited (h : c ∈ n.visited) : sizeOf c < sizeOf n := by
  obtain ⟨p, hp, ⟨rfl, -⟩ | ⟨-, hc⟩⟩ := mem_visitedOf h
  · exact sizeOf_lt_of_mem_parts hp
  · exact Nat.lt_trans (sizeOf_lt_of_mem_parts hc) (sizeOf_lt_of_mem_parts hp)

@[induction_eliminator] lemma visitedInduction (h : ∀ n, (∀ c ∈ n.visited, P c) → P n) (n : Node) : P n :=
  h n fun c _hc => visitedInduction h c
termination_by sizeOf n
decreasing_by exact sizeOf_lt_of_mem_visited _hc

mutual

/-- The nodes that a pass meets in a tree, a node before those inside. -/
def met : Node → List Node
  | .mk k t ps m => .mk k t ps m :: metOf (k.shape.map Prod.snd) ps

def metOf : List Fill → List Node → List Node
  | _ :: fs, .mk k t ps m :: rest =>
    (if k == .seq then metRun ps else if k.isFiller then [] else met (.mk k t ps m)) ++ metOf fs rest
  | _, _ => []

def metRun : List Node → List Node
  | [] => []
  | n :: ns => met n ++ metRun ns

end

lemma metRun_eq (ns : List Node) : metRun ns = ns.flatMap met := by
  induction ns with
  | nil => rw [metRun, flatMap_nil]
  | cons n ns ih => rw [metRun, ih, flatMap_cons]

lemma metOf_eq : metOf fs ps = (visitedOf fs ps).flatMap met := by
  fun_induction visitedOf fs ps with
  | case1 f fs p ps ih =>
    obtain ⟨k, t, qs, m⟩ := p
    rw [metOf, flatMap_append, ih, metRun_eq]
    congr 1
    change _ = flatMap met (if k == .seq then qs else if k.isFiller then [] else [.mk k t qs m])
    split
    · rfl
    · split <;> simp
  | case2 fs ps hnot =>
    rw [metOf, flatMap_nil]
    exact fun f fs k t qs m rest => hnot f fs _ rest

lemma met_eq : n.met = n :: n.visited.flatMap met := by
  obtain ⟨k, t, ps, m⟩ := n
  rw [met, metOf_eq]
  rfl

lemma forall_met : (∀ d ∈ n.met, P d) ↔ P n ∧ ∀ c ∈ n.visited, ∀ d ∈ c.met, P d := by
  rw [met_eq, forall_mem_cons, forall_mem_flatMap]

lemma mem_met : c ∈ n.met ↔ c = n ∨ ∃ d ∈ n.visited, c ∈ d.met := by
  rw [met_eq, mem_cons, mem_flatMap]

lemma self_mem_met (n : Node) : n ∈ n.met := mem_met.2 (.inl rfl)

lemma mem_met_of_mem_visited {d : Node} (hc : c ∈ n.visited) (hd : d ∈ c.met) : d ∈ n.met := mem_met.2 (.inr ⟨c, hc, hd⟩)

lemma visited_subset : n.visited ⊆ n.met := fun c hc => mem_met_of_mem_visited hc (self_mem_met c)

lemma met_subset {a : Node} (ha : a ∈ n.met) : a.met ⊆ n.met := by
  induction n with
  | h n ih =>
    rw [mem_met] at ha
    rcases ha with rfl | ⟨c, hc, ha⟩
    · exact List.Subset.refl _
    · exact fun d hd => mem_met_of_mem_visited hc (ih c hc ha hd)

lemma mem_visited_of_mem_met (h : c ∈ n.met) : c = n ∨ ∃ a ∈ n.met, c ∈ a.visited := by
  induction n with
  | h n ih =>
    rw [mem_met] at h
    rcases h with rfl | ⟨d, hd, h⟩
    · exact .inl rfl
    · rcases ih d hd h with rfl | ⟨a, ha, hc⟩
      · exact .inr ⟨n, self_mem_met n, hd⟩
      · exact .inr ⟨a, mem_met_of_mem_visited hd ha, hc⟩

section

variable (hP : ∀ n, P n → ∀ c ∈ n.parts, P c) (h : P n)
include hP h

lemma of_visited (hc : c ∈ n.visited) : P c := by
  obtain ⟨p, hp, ⟨rfl, -⟩ | ⟨-, hc⟩⟩ := mem_visitedOf hc
  · exact hP n h c hp
  · exact hP p (hP n h p hp) c hc

lemma of_met (hc : c ∈ n.met) : P c := by
  induction n with
  | h n ih =>
    rw [mem_met] at hc
    rcases hc with rfl | ⟨d, hd, hc⟩
    · exact h
    · exact ih d hd (of_visited hP h hd) hc

end

/-! ## Rebuilding a node -/

def rebuildRun (g : Node → Except Fault Edit) (isBody : Bool) : List Node → Except Fault (List Node)
  | [] => pure []
  | n :: rest => do
    let e ← g n
    let rest' ← rebuildRun g isBody rest
    pure (e.members isBody n ++ rest')

/-- What stands in a place after the nodes in it were edited. -/
def rebuildPart (g : Node → Except Fault Edit) (f : Fill) (p : Node) : Except Fault Node :=
  if p.kind == .seq then do
    let items ← rebuildRun g (f == .body) p.parts
    pure (.mk p.kind p.text items p.mark)
  else if p.kind.isFiller then pure p
  else do f.put (← g p)

section

variable (g : Node → Except Fault Edit) (f : Fill)

lemma rebuildPart_run (h : p.kind = .seq) :
    rebuildPart g f p = rebuildRun g (f == .body) p.parts >>= fun items => pure (.mk p.kind p.text items p.mark) := by
  rw [rebuildPart, if_pos (beq_iff_eq.2 h)]

lemma rebuildPart_filler (h : p.kind.isFiller = true) (hseq : p.kind ≠ .seq) : rebuildPart g f p = .ok p := by
  rw [rebuildPart, if_neg (mt beq_iff_eq.1 hseq), if_pos h]
  rfl

lemma rebuildPart_node (h : p.kind.isFiller = false) : rebuildPart g f p = g p >>= f.put := by
  rw [rebuildPart, if_neg (mt beq_iff_eq.1 (ne_seq_of_isFiller h)), h]
  rfl

end

/-- Put the parts of a node together again from what became of the nodes in them. -/
def rebuildParts (g : Node → Except Fault Edit) : List Fill → List Node → Except Fault (List Node)
  | f :: fs, p :: ps => do
    let part ← rebuildPart g f p
    let rest ← rebuildParts g fs ps
    pure (part :: rest)
  | _, ps => pure ps

/-- Put a node together again from what became of the visited nodes. -/
def rebuild (g : Node → Except Fault Edit) (n : Node) : Except Fault Node := do
  let ps ← rebuildParts g (n.kind.shape.map Prod.snd) n.parts
  (Node.mk n.kind n.text ps none).sound

/-! ## What a rebuilt node holds -/

lemma of_sound (h : n.sound = .ok n') : n' = n ∧ n.flaw? = none := by
  rw [sound] at h
  split at h
  · cases h
  next hflaw =>
    cases h
    exact ⟨rfl, hflaw⟩

lemma eq_of_sound (h : n.sound = .ok n') : n' = n := (of_sound h).1

lemma exists_of_rebuild (h : n.rebuild g = .ok n') :
    ∃ ps, rebuildParts g (n.kind.shape.map Prod.snd) n.parts = .ok ps ∧ n' = .mk n.kind n.text ps none := by
  obtain ⟨ps, hps, h⟩ := of_bind h
  exact ⟨ps, hps, eq_of_sound h⟩

lemma kind_of_rebuild (h : n.rebuild g = .ok n') : n'.kind = n.kind ∧ n'.mark = none := by
  obtain ⟨_, -, rfl⟩ := exists_of_rebuild h
  exact ⟨rfl, rfl⟩

lemma place_cases (p : Node) : p.kind = .seq ∨ (p.kind.isFiller = true ∧ p.kind ≠ .seq) ∨ p.kind.isFiller = false := by
  cases h : p.kind.isFiller with
  | true => exact (eq_or_ne p.kind .seq).imp_right fun hne => .inl ⟨rfl, hne⟩
  | false => exact .inr (.inr rfl)

section

variable {h : Node → Except Fault Edit}

lemma rebuildRun_congr (heq : ∀ n ∈ ns, g n = h n) (isBody : Bool) : rebuildRun g isBody ns = rebuildRun h isBody ns := by
  induction ns with
  | nil => rfl
  | cons n ns ih => rw [rebuildRun, rebuildRun, heq n (.head _), ih (forall_mem_cons.1 heq).2]

lemma rebuildPart_congr (heq : ∀ c ∈ p.opened, g c = h c) (f : Fill) : rebuildPart g f p = rebuildPart h f p := by
  rcases place_cases p with hseq | ⟨hfill, hseq⟩ | hnode
  · rw [rebuildPart_run _ _ hseq, rebuildPart_run _ _ hseq, rebuildRun_congr fun n hn => heq n (by rwa [opened_run hseq])]
  · rw [rebuildPart_filler _ _ hfill hseq, rebuildPart_filler _ _ hfill hseq]
  · rw [rebuildPart_node _ _ hnode, rebuildPart_node _ _ hnode, heq p (by simp [opened_node hnode])]

lemma rebuildParts_congr (heq : ∀ c ∈ visitedOf fs ps, g c = h c) : rebuildParts g fs ps = rebuildParts h fs ps := by
  fun_induction visitedOf fs ps with
  | case1 f fs p ps ih =>
    rw [rebuildParts, rebuildParts, rebuildPart_congr fun c hc => heq c (mem_append_left _ hc),
      ih fun c hc => heq c (mem_append_right _ hc)]
  | case2 fs ps hnot => rw [rebuildParts.eq_2 _ _ _ hnot, rebuildParts.eq_2 _ _ _ hnot]

lemma rebuild_congr (heq : ∀ c ∈ n.visited, g c = h c) : n.rebuild g = n.rebuild h := by
  rw [rebuild, rebuild, rebuildParts_congr heq]

end

variable {s s' : Slot}

lemma get_eq_getD (hi : n.kind.slots.idxOf? s = some i) : n.get s = n.parts.getD i absent := by
  rw [get, hi]

lemma get_eq_absent (hi : n.kind.slots.idxOf? s = none) : n.get s = absent := by
  rw [get, hi]

lemma opened_getD_sublist (ps : List Node) (hi : i < fs.length) : (ps.getD i absent).opened.Sublist (visitedOf fs ps) := by
  induction fs generalizing ps i with
  | nil => cases hi
  | cons f fs ih =>
    cases ps with
    | nil => exact nil_sublist _
    | cons p ps =>
      cases i with
      | zero => exact sublist_append_left ..
      | succ i => exact (ih ps (Nat.lt_of_succ_lt_succ hi)).trans (sublist_append_right ..)

lemma opened_get_sublist (n : Node) (s : Slot) : (n.get s).opened.Sublist n.visited := by
  rw [get]
  cases hi : n.kind.slots.idxOf? s with
  | none => exact nil_sublist _
  | some i =>
    obtain ⟨hlt, -⟩ := idxOf?_eq_some_iff.1 hi
    exact opened_getD_sublist n.parts (by simpa [Kind.slots] using hlt)

lemma set_eq (hi : n.kind.slots.idxOf? s = some i) (part : Node) :
    n.set s part = .mk n.kind n.text (n.parts.set i part) none := by
  rw [set, hi]

lemma get_set_of_ne (h : s' ≠ s) (part : Node) : (n.set s part).get s' = n.get s' := by
  cases hi : n.kind.slots.idxOf? s with
  | none =>
    rw [set, hi]
    cases n
    rfl
  | some i =>
    rw [set_eq hi]
    cases hj : n.kind.slots.idxOf? s' with
    | none =>
      have hnew : (Node.mk n.kind n.text (n.parts.set i part) none).get s' = absent := get_eq_absent hj
      rw [hnew, get_eq_absent hj]
    | some j =>
      have hij : i ≠ j := by
        rintro rfl
        obtain ⟨_, hs, -⟩ := idxOf?_eq_some_iff.1 hi
        obtain ⟨_, hs', -⟩ := idxOf?_eq_some_iff.1 hj
        exact h (hs'.symm.trans hs)
      have hnew : (Node.mk n.kind n.text (n.parts.set i part) none).get s' = (n.parts.set i part).getD j absent := get_eq_getD hj
      rw [hnew, get_eq_getD hj, getD_eq_getElem?_getD, getD_eq_getElem?_getD, getElem?_set_ne hij]

lemma mem_visitedOf_set {part : Node} (h : c ∈ visitedOf fs (ps.set i part)) : c ∈ visitedOf fs ps ∨ c ∈ part.opened := by
  induction fs generalizing ps i with
  | nil => cases h
  | cons f fs ih =>
    cases ps with
    | nil => cases h
    | cons p ps =>
      cases i with
      | zero =>
        rcases mem_append.1 h with h | h
        · exact .inr h
        · exact .inl (mem_append_right _ h)
      | succ i =>
        rcases mem_append.1 h with h | h
        · exact .inl (mem_append_left _ h)
        · exact (ih h).imp_left (mem_append_right _)

end Node

section

variable {σ α β : Type} {s s' : σ} {b : β}

lemma of_run_bind {x : Step σ α} {g : α → Step σ β} (h : (x >>= g).run s = .ok (b, s')) :
    ∃ a s₁, x.run s = .ok (a, s₁) ∧ (g a).run s₁ = .ok (b, s') := by
  rw [StateT.run_bind] at h
  obtain ⟨⟨a, s₁⟩, hx, h⟩ := of_bind h
  exact ⟨a, s₁, hx, h⟩

lemma run_bind_of {x : Step σ α} {a : α} {g : α → Step σ β} {s₁ : σ} (h : x.run s = .ok (a, s₁)) :
    (x >>= g).run s = (g a).run s₁ := by
  rw [StateT.run_bind, h]
  rfl

lemma run_lift_bind {x : Except Fault α} {a : α} {g : α → Step σ β} (h : x = .ok a) :
    (liftM x >>= g).run s = (g a).run s := by
  rw [h]
  rfl

lemma of_lift_bind {x : Except Fault α} {g : α → Step σ β}
    (h : (liftM x >>= g).run s = .ok (b, s')) : ∃ a, x = .ok a ∧ (g a).run s = .ok (b, s') := by
  obtain ⟨a, s₁, hx, h⟩ := of_run_bind h
  cases x with
  | error e => cases hx
  | ok a' =>
    cases hx
    exact ⟨a, rfl, h⟩

end

/-- The result of a step without a state. -/
def Step.result {α : Type} (x : Step Unit α) : Except Fault α := (x.run ()).map Prod.fst

namespace Step

variable {α β : Type}

@[simp] lemma result_pure (a : α) : (pure a : Step Unit α).result = pure a := rfl

@[simp] lemma result_bind (x : Step Unit α) (f : α → Step Unit β) :
    (x >>= f).result = x.result >>= fun a => (f a).result := by
  simp only [result, StateT.run_bind]
  cases x.run () with
  | error e => rfl
  | ok r => rfl

@[simp] lemma result_lift (x : Except Fault α) : (liftM x : Step Unit α).result = x := by
  cases x <;> rfl

@[simp] lemma result_foldlM_lift (f : α → β → Except Fault α) (a : α) (bs : List β) :
    (bs.foldlM (fun a b => liftM (f a b)) a : Step Unit α).result = bs.foldlM f a := by
  induction bs generalizing a with
  | nil => rfl
  | cons b bs ih => simp only [foldlM_cons, result_bind, result_lift, ih]

end Step

namespace Pass

open Node

/-- What a pass makes of a node. -/
def editing (p : Pass Unit) (n : Node) : Except Fault Edit := (p.edit n).result

def leaving (p : Pass Unit) (old new : Node) : Except Fault Edit := (p.leave old new).result

def GoesIn (p : Pass Unit) : Prop := ∀ n, p.enter n = pure true

lemma result_editRun (p : Pass Unit) (isBody : Bool) : (p.editRun isBody ns).result = rebuildRun p.editing isBody ns := by
  induction ns with
  | nil => rw [editRun, rebuildRun, Step.result_pure]
  | cons n ns ih => simp only [editRun, rebuildRun, Step.result_bind, ih, editing, Step.result_pure]

lemma result_editParts (p : Pass Unit) : (p.editParts fs ps).result = rebuildParts p.editing fs ps := by
  fun_induction rebuildParts p.editing fs ps with
  | case1 f fs q ps ih =>
    obtain ⟨k, t, qs, m⟩ := q
    rw [editParts, rebuildPart]
    change _ = (if k == .seq then _ else if k.isFiller then _ else _) >>= _
    split
    · simp only [Step.result_bind, result_editRun, Step.result_pure, ih, pure_bind, bind_assoc]
      rfl
    · split
      · simp only [Step.result_bind, Step.result_pure, ih, pure_bind]
      · simp only [Step.result_bind, Step.result_lift, Step.result_pure, ih, editing, bind_assoc]
  | case2 fs ps hnot =>
    rw [editParts, Step.result_pure]
    exact fun f fs k t qs m rest => hnot f fs _ rest

variable {p : Pass Unit}

lemma editing_eq (hp : p.GoesIn) : p.editing n = n.rebuild p.editing >>= p.leaving n := by
  obtain ⟨k, t, ps, m⟩ := n
  rw [editing, edit, hp]
  simp only [pure_bind, if_true, Step.result_bind, Step.result_lift, result_editParts, rebuild, kind, parts, text,
    bind_assoc]
  rfl

/-! ## Passes that stay in range

Where leaving a node never asks for a place that a list does not have, the whole pass does not. It may fail for other
causes: what is left of a node does not fit its place, or cannot be written down. -/

def InRange {α : Type} (x : Except Fault α) : Prop := x ≠ .error .outOfRange

section

variable {α β : Type} {g : Node → Except Fault Edit}

lemma InRange.ok (a : α) : InRange (.ok a) := fun h => by cases h

lemma InRange.bind {x : Except Fault α} {g : α → Except Fault β} (hx : InRange x) (hg : ∀ a, x = .ok a → InRange (g a)) :
    InRange (x >>= g) := by
  cases x with
  | error e => exact fun h => hx (congrArg Except.error (Except.error.inj h))
  | ok a => exact hg a rfl

lemma inRange_put (f : Fill) (e : Edit) : InRange (f.put e) := by
  cases e with
  | keep n => exact .ok n
  | drop => cases f <;> exact fun h => by cases h
  | splice ns => exact fun h => by cases h

lemma inRange_sound (n : Node) : InRange n.sound := by
  rw [sound]
  split
  · exact fun h => by cases h
  · exact .ok n

lemma inRange_rebuildRun (isBody : Bool) (hg : ∀ n ∈ ns, InRange (g n)) : InRange (rebuildRun g isBody ns) := by
  induction ns with
  | nil => exact .ok _
  | cons n ns ih =>
    obtain ⟨hn, hns⟩ := forall_mem_cons.1 hg
    exact hn.bind fun _ _ => (ih hns).bind fun _ _ => .ok _

lemma inRange_rebuildPart (f : Fill) {q : Node} (hg : ∀ c ∈ q.opened, InRange (g c)) : InRange (rebuildPart g f q) := by
  rcases place_cases q with hseq | ⟨hfill, hseq⟩ | hnode
  · rw [opened_run hseq] at hg
    rw [rebuildPart_run _ _ hseq]
    exact (inRange_rebuildRun _ hg).bind fun _ _ => .ok _
  · rw [rebuildPart_filler _ _ hfill hseq]
    exact .ok q
  · rw [rebuildPart_node _ _ hnode]
    exact (hg q (by simp [opened_node hnode])).bind fun e _ => inRange_put f e

lemma inRange_rebuildParts (hg : ∀ c ∈ visitedOf fs ps, InRange (g c)) : InRange (rebuildParts g fs ps) := by
  fun_induction visitedOf fs ps with
  | case1 f fs q ps ih =>
    rw [rebuildParts]
    refine (inRange_rebuildPart f fun c hc => hg c (mem_append_left _ hc)).bind fun _ _ => ?_
    exact (ih fun c hc => hg c (mem_append_right _ hc)).bind fun _ _ => .ok _
  | case2 fs ps hnot =>
    rw [rebuildParts.eq_2 _ _ _ hnot]
    exact .ok ps

lemma inRange_editing (hp : p.GoesIn) (hleave : ∀ old new, InRange (p.leaving old new)) (n : Node) :
    InRange (p.editing n) := by
  induction n with
  | h n ih =>
    rw [editing_eq hp]
    exact ((inRange_rebuildParts ih).bind fun _ _ => inRange_sound _).bind fun new _ => hleave n new

lemma inRange_apply (hp : p.GoesIn) (hleave : ∀ old new, InRange (p.leaving old new)) (n : Node) : InRange (p.apply n) := by
  have hedit := inRange_editing hp hleave n
  rw [editing, Step.result] at hedit
  rw [apply, run]
  cases hrun : (p.edit n).run () with
  | error e =>
    rw [hrun] at hedit
    exact fun h => hedit (congrArg Except.error (Except.error.inj h))
  | ok r =>
    obtain ⟨e, s⟩ := r
    cases e <;> exact fun h => by cases h

end

def KeepsAt (p : Pass Unit) (n : Node) : Prop := ∀ new, p.leaving n new = .ok (.keep new)

def NeverSplits (p : Pass Unit) : Prop := ∀ n ns, p.editing n ≠ .ok (.splice ns)

/-- The node that a pass makes of a node, if it is one node. -/
def image? (p : Pass Unit) (n : Node) : Option Node :=
  match p.editing n with
  | .ok (.keep n') => some n'
  | _ => none

lemma image?_eq_some : p.image? n = some n' ↔ p.editing n = .ok (.keep n') := by
  rw [image?]
  constructor
  · intro h
    split at h
    case h_1 _ heq =>
      cases h
      exact heq
    case h_2 => cases h
  · intro h
    rw [h]

lemma rebuild_of_image? (hp : p.GoesIn) (hn : p.KeepsAt n) (h : p.image? n = some n') : n.rebuild p.editing = .ok n' := by
  rw [image?_eq_some, editing_eq hp] at h
  obtain ⟨new, hnew, h⟩ := of_bind h
  rw [hn] at h
  cases h
  exact hnew

lemma exists_image?_of_keepsAt (hp : p.GoesIn) (hn : p.KeepsAt n) {e : Edit}
    (he : p.editing n = .ok e) : ∃ n', p.image? n = some n' := by
  have hkeep := he
  rw [editing_eq hp] at hkeep
  obtain ⟨new, -, hkeep⟩ := of_bind hkeep
  rw [hn] at hkeep
  cases hkeep
  exact ⟨new, image?_eq_some.2 he⟩

lemma apply_eq_ok_iff : p.apply n = .ok n' ↔ p.editing n = .ok (.keep n') := by
  rw [apply, run, editing, Step.result]
  cases (p.edit n).run () with
  | error e => exact ⟨nofun, nofun⟩
  | ok r =>
    obtain ⟨e, u⟩ := r
    cases e <;> simp [bind, Except.bind, Except.map]

lemma image?_of_apply (h : p.apply n = .ok n') : p.image? n = some n' := image?_eq_some.2 (apply_eq_ok_iff.1 h)

/-! ## Several passes -/

/-- The node that several passes, one after the other, make of a node. -/
def became (ps : List (Pass Unit)) (n : Node) : Option Node := ps.foldlM (fun n p => p.image? n) n

@[simp] lemma became_nil : became [] n = some n := rfl

@[simp] lemma became_cons (ps : List (Pass Unit)) : became (p :: ps) n = (p.image? n).bind (became ps) := rfl

lemma exists_of_became_cons {ps : List (Pass Unit)} (h : became (p :: ps) n = some n') :
    ∃ n₁, p.image? n = some n₁ ∧ became ps n₁ = some n' :=
  Option.bind_eq_some_iff.1 h

lemma became_append (ps qs : List (Pass Unit)) : became (ps ++ qs) n = (became ps n).bind (became qs) := by
  rw [became, foldlM_append]
  rfl

/-- The node `c` of the tree `n` becomes the node `c'` of the tree `n'`, and so do the nodes around it. -/
inductive Stands (ps : List (Pass Unit)) : (n n' c c' : Node) → Prop
  | here {n n' : Node} : became ps n = some n' → Stands ps n n' n n'
  | inside {n n' d d' c c' : Node} : became ps n = some n' → d ∈ n.visited → d' ∈ n'.visited → Stands ps d d' c c' →
      Stands ps n n' c c'

lemma Stands.became_eq {ps : List (Pass Unit)} {c' : Node} (h : Stands ps n n' c c') : became ps c = some c' := by
  induction h with
  | here h => exact h
  | inside _ _ _ _ ih => exact ih

end Pass

end Mender.Syntax

/-! ## Nodes with other parts

What is the same in a node after a part of it was replaced, and what stands in the place of that part (`get_set_cases`). -/

namespace Mender.Syntax.Node

open List

variable (n : Node) (s : Slot) (part : Node)

lemma kind_set : (n.set s part).kind = n.kind := by
  rw [set]
  split
  · rfl
  · cases n
    rfl

lemma text_set : (n.set s part).text = n.text := by
  rw [set]
  split
  · rfl
  · cases n
    rfl

lemma mark_set : (n.set s part).mark = none := by
  rw [set]
  split
  · rfl
  · cases n
    rfl

lemma items_set : (n.set s part).items = n.items := by
  rw [items, items, kind_set]
  split
  next hseq =>
    rw [set, show n.kind.slots.idxOf? s = none by rw [hseq]; rfl]
    cases n
    rfl
  next => rfl

lemma get_unmarked : n.unmarked.get s = n.get s := by
  cases n
  rfl

lemma text_unmarked : n.unmarked.text = n.text := by
  cases n
  rfl

lemma kind_unmarked : n.unmarked.kind = n.kind := by
  cases n
  rfl

lemma kind_setAll (changes : List (Slot × Node)) : (n.setAll changes).kind = n.kind := by
  rw [setAll, ← kind_unmarked n]
  generalize n.unmarked = n
  induction changes generalizing n with
  | nil => rfl
  | cons c cs ih => rw [foldl_cons, ih, kind_set]

lemma kind_make (k : Kind) (changes : List (Slot × Node)) (t : String) : (make k changes t).kind = k := by
  rw [make, kind_setAll]
  rfl

lemma get_set : (n.set s part).get s = if (n.kind.slots.idxOf? s).any (· < n.parts.length) then part else absent := by
  cases hi : n.kind.slots.idxOf? s with
  | none =>
    rw [set, hi]
    exact (get_unmarked n s).trans (get_eq_absent hi)
  | some i =>
    have hi' : (Node.mk n.kind n.text (n.parts.set i part) none).kind.slots.idxOf? s = some i := hi
    rw [set_eq hi, get_eq_getD hi', Option.any_some]
    change (n.parts.set i part).getD i absent = _
    rcases Nat.lt_or_ge i n.parts.length with hlt | hge
    · rw [if_pos (by simpa using hlt), getD_eq_getElem?_getD, getElem?_set_self hlt, Option.getD_some]
    · rw [if_neg (by simpa using hge), set_eq_of_length_le hge, getD_eq_default _ _ hge]

lemma get_set_cases : (n.set s part).get s = part ∨ (n.get s = absent ∧ (n.set s part).get s = absent) := by
  rw [get_set]
  split
  next => exact .inl rfl
  next h =>
    refine .inr ⟨?_, rfl⟩
    cases hi : n.kind.slots.idxOf? s with
    | none => exact get_eq_absent hi
    | some i =>
      rw [hi, Option.any_some] at h
      rw [get_eq_getD hi, getD_eq_default _ _ (by simpa using h)]

lemma get_set_of_kind_ne {n : Node} {s : Slot} (h : (n.get s).kind ≠ .absent) (part : Node) :
    (n.set s part).get s = part := by
  rcases get_set_cases n s part with hget | ⟨habsent, -⟩
  · exact hget
  · rw [habsent] at h
    exact absurd rfl h

lemma list_setList {n : Node} {s : Slot} (h : (n.get s).kind = .seq) (items : List Node) :
    (n.setList s items).list s = items := by
  rw [list, setList, get_set_of_kind_ne (by rw [h]; decide)]
  rfl

lemma list_set_of_items {s : Slot} {n part : Node} (h : part.items = (n.get s).items) (s' : Slot) :
    (n.set s part).list s' = n.list s' := by
  rw [list, list]
  by_cases hs : s' = s
  · subst hs
    rcases get_set_cases n s' part with hget | ⟨hget, hget'⟩
    · rw [hget, h]
    · rw [hget, hget']
  · rw [get_set_of_ne hs]

lemma get_of_isFiller {n : Node} (h : n.kind.isFiller = true) (s : Slot) : n.get s = absent := by
  have hslots : n.kind.slots = [] := by
    generalize n.kind = k at h
    cases k <;> first | rfl | cases h
  rw [get, hslots]
  rfl

lemma list_of_isFiller {n : Node} (h : n.kind.isFiller = true) (s : Slot) : n.list s = [] := by
  rw [list, get_of_isFiller h]
  rfl

lemma mem_visited_set {n part c : Node} {s : Slot} (h : c ∈ (n.set s part).visited) : c ∈ n.visited ∨ c ∈ part.opened := by
  cases hi : n.kind.slots.idxOf? s with
  | none =>
    rw [Node.set, hi] at h
    cases n
    exact .inl h
  | some i =>
    rw [set_eq hi] at h
    exact mem_visitedOf_set h

end Mender.Syntax.Node
