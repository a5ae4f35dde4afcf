import Mender.Proofs.Codemod.Generators
import Mender.Proofs.Codemod.Moves

/-!
# Conditions that take assignments in

On its way through a module the pass has an expression at hand just between a line whose assignment moves and the `if`
behind it (`passed_of_edit`). So each `if` gets the expression that moves into it, and what the pass makes of a node can be
said without its state (`Turns`). An `if` that gets nothing is kept as it was, with all that is in it: the pass is lossy.
A line and the `if` behind it change together or not at all (`pairs_move_together`).

* `listed_of_useWalrus` — the assignments and conditions of the new module.
-/

namespace Mender.Codemod

open Syntax Node Mender.Edit List

variable {s₁ : Notes × WalrusState} {expr target value n' n new : Node} {source : String}

def exprs (s : Notes × WalrusState) : List Node := s.2.pending.map Prod.snd

/-- The state behind the front of a node: an `if` takes what is at hand. -/
def entered (n : Node) (s : Notes × WalrusState) : Notes × WalrusState :=
  if n.kind = .ifStatement then (s.1, { pending := s.2.pending.tail, opened := s.2.pending.head? :: s.2.opened }) else s

namespace Task

variable {t : Task} {module old test c line test' assign : Node} {e : Syntax.Edit} {s s' : Notes × WalrusState}

/-! ## At one node -/

/-- What the pass makes of a statement whose parts were edited. -/
inductive Left (module n new : Node) : Syntax.Edit → Prop
  | stays : n.kind = .assign → movedFrom? module n = none → Left module n new (.keep n)
  | moves {expr : Node} : n.kind = .assign → movedFrom? module n = some expr → Left module n new .drop
  | plain : n.kind = .ifStatement → movedInto? module n = none → Left module n new (.keep n)
  | takes {expr n' : Node} : n.kind = .ifStatement → movedInto? module n = some expr → withWalrus new expr = .ok n' →
      Left module n new (.keep n')
  | line : n.kind = .simpleStatementLine →
      Left module n new (if (new.list .body).isEmpty then .splice (lineRemains n) else .keep new)
  | other : n.kind ≠ .assign → n.kind ≠ .ifStatement → n.kind ≠ .simpleStatementLine → Left module n new (.keep new)

/-- How many changes the pass reports for a node: one if something moves into it. -/
def weight (module c : Node) : Nat := if (movedInto? module c).isSome then 1 else 0

lemma enter_walruses {moves : List (Nat × Node)} (s : Notes × WalrusState) :
    ((t.walruses moves).enter n).run s = .ok (true, entered n s) := by
  change (if n.kind == .ifStatement then _ else _ : Step _ Bool).run s = _
  simp only [beq_iff_eq, entered]
  split <;> rfl

/-- Do two states differ in what is at hand and in the reported changes only? -/
structure Even (s s' : Notes × WalrusState) : Prop where
  opened : s'.2.opened = s.2.opened
  needed : s'.1.needed = s.1.needed
  superfluous : s'.1.superfluous = s.1.superfluous

lemma Even.trans (h : Even s s₁) (h' : Even s₁ s') : Even s s' :=
  ⟨h'.opened.trans h.opened, h'.needed.trans h.needed, h'.superfluous.trans h.superfluous⟩

/-- The step behind a node. An `if` takes the last entry off, and only an assignment puts something at hand. -/
lemma left_of_leave (h : ((t.walruses (walrusMoves module)).leave n new).run s = .ok (e, s')) :
    Even (if n.kind = .ifStatement then (s.1, { s.2 with opened := s.2.opened.tail }) else s) s' ∧
      exprs s' = (if n.kind = .assign then movedFrom? module n else none).toList ++ exprs s ∧
      ((n.kind = .ifStatement → s.2.opened.head?.join.map Prod.snd = movedInto? module n) → Left module n new e ∧
        s'.1.changes.length = s.1.changes.length + if n.kind = .ifStatement then weight module n else 0) := by
  unfold Task.walruses at h
  dsimp only at h
  split at h
  next hkind =>
    rw [if_pos hkind, if_neg (by rw [hkind]; decide), if_pos hkind, weight]
    obtain ⟨⟨notes, st⟩, s₁, hget, h⟩ := of_run_bind h
    cases hget
    obtain ⟨⟨⟩, s₂, hmodify, h⟩ := of_run_bind h
    cases hmodify
    split at h
    next line expr hhead =>
      obtain ⟨⟨⟩, s₃, hreport, h⟩ := of_run_bind h
      cases hreport
      obtain ⟨n', hn', h⟩ := of_lift_bind h
      cases h
      refine ⟨⟨rfl, rfl, rfl⟩, rfl, fun hinto => ?_⟩
      have hinto := hinto hkind
      rw [hhead] at hinto
      exact ⟨.takes hkind hinto.symm hn', by rw [← hinto]; simp⟩
    next hhead =>
      cases h
      refine ⟨⟨rfl, rfl, rfl⟩, rfl, fun hinto => ?_⟩
      have hinto := hinto hkind
      rw [hhead] at hinto
      exact ⟨.plain hkind hinto.symm, by rw [← hinto]; rfl⟩
  next hkind =>
    rw [if_neg (by rw [hkind]; decide), if_pos hkind, if_neg (by rw [hkind]; decide), movedFrom?]
    split at h
    next m expr hmove =>
      obtain ⟨line, -, h⟩ := of_lift_bind h
      cases h
      rw [hmove]
      exact ⟨⟨rfl, rfl, rfl⟩, rfl, fun _ => ⟨.moves hkind (by rw [movedFrom?, hmove]; rfl), rfl⟩⟩
    next hmove =>
      cases h
      rw [hmove]
      exact ⟨⟨rfl, rfl, rfl⟩, rfl, fun _ => ⟨.stays hkind (by rw [movedFrom?, hmove]; rfl), rfl⟩⟩
  next hkind =>
    rw [if_neg (by rw [hkind]; decide), if_neg (by rw [hkind]; decide), if_neg (by rw [hkind]; decide)]
    have hleft : Left module n new _ := .line hkind
    split at h
    next hempty =>
      rw [if_pos hempty] at hleft
      cases h
      exact ⟨⟨rfl, rfl, rfl⟩, rfl, fun _ => ⟨hleft, rfl⟩⟩
    next hempty =>
      rw [if_neg hempty] at hleft
      cases h
      exact ⟨⟨rfl, rfl, rfl⟩, rfl, fun _ => ⟨hleft, rfl⟩⟩
  next hif hassign hline =>
    cases h
    rw [if_neg hif, if_neg hassign, if_neg hif]
    exact ⟨⟨rfl, rfl, rfl⟩, rfl, fun _ => ⟨.other hassign hif hline, rfl⟩⟩

lemma exists_leave_of_edit (h : ((t.walruses (walrusMoves module)).edit n).run s = .ok (e, s')) :
    ∃ qs s₁, ((t.walruses (walrusMoves module)).editParts (n.kind.shape.map Prod.snd) n.parts).run (entered n s) =
        .ok (qs, s₁) ∧ (Node.mk n.kind n.text qs none).flaw? = none ∧
      ((t.walruses (walrusMoves module)).leave n (.mk n.kind n.text qs none)).run s₁ = .ok (e, s') ∧
      Even (entered n s) s₁ ∧ Even s s' := by
  induction n generalizing e s s' with
  | h n ih =>
    obtain ⟨qs, s₁, hqs, hflaw, hleave⟩ := Pass.exists_of_edit (enter_walruses s) h
    have hs₁ : Even (entered n s) s₁ := (Pass.partsTo_along (R := fun _ _ => True) (I := fun _ => Even (entered n s)) []
      (fun c hc rest e s₁ s₂ he hI => by
        obtain ⟨-, -, -, -, -, -, hs₂⟩ := ih c hc he
        exact ⟨trivial, hI.trans hs₂⟩) hqs ⟨rfl, rfl, rfl⟩).2
    refine ⟨qs, s₁, hqs, hflaw, hleave, hs₁, ?_⟩
    -- an `if` takes off what it has put on
    have hs' := (left_of_leave hleave).1
    rw [entered] at hs₁
    split at hs₁
    next hif =>
      rw [if_pos hif] at hs'
      exact ⟨hs'.opened.trans (congrArg tail hs₁.opened), hs'.needed.trans hs₁.needed, hs'.superfluous.trans hs₁.superfluous⟩
    next hif =>
      rw [if_neg hif] at hs'
      exact hs₁.trans hs'

/-! ## From node to node -/

/-- Are the changes between two states those of the nodes `ns` but for those of `rest`, which are left? -/
def Counts (module : Node) (ns rest : List Node) (s s' : Notes × WalrusState) : Prop :=
  s'.1.changes.length + (rest.map (metSum (weight module))).sum =
    s.1.changes.length + (ns.map (metSum (weight module))).sum

lemma Counts.trans {ns rest : List Node} (h : Counts module ns (c :: rest) s s₁) (h' : Counts module [c] [] s₁ s') :
    Counts module ns rest s s' := by
  simp only [Counts, map_cons, sum_cons, map_nil, sum_nil] at h h' ⊢
  omega

/-- What the pass makes of a node in a state in which just that is at hand what moves into the node. -/
def Turns (t : Task) (module n : Node) (e : Syntax.Edit) : Prop :=
  ∃ s s', ((t.walruses (walrusMoves module)).edit n).run s = .ok (e, s') ∧
    (MadeOf isInner n ∨ (Settled n ∧ exprs s = (movedInto? module n).toList))

section

variable (hinner : MadeOf isInner n)
include hinner

lemma edit_walruses_of_inner (h : ((t.walruses (walrusMoves module)).edit n).run s = .ok (e, s')) :
    exprs s' = exprs s ∧ s'.1.changes.length = s.1.changes.length ∧
      ∃ new, RebuiltTo (t.Turns module) n new ∧ e = .keep new := by
  induction n generalizing e s s' with
  | h n ih =>
    have hkind := hinner.kind
    have hif := hinner.kind_ne (k := .ifStatement) rfl
    obtain ⟨qs, s₁, hqs, hflaw, hleave, -⟩ := exists_leave_of_edit h
    rw [entered, if_neg hif] at hqs
    obtain ⟨hparts, hs₁⟩ := Pass.partsTo_along (R := t.Turns module)
      (I := fun _ s₁ => exprs s₁ = exprs s ∧ s₁.1.changes.length = s.1.changes.length) []
      (fun c hc rest e s₁ s₂ he hI => by
        obtain ⟨hexprs, hchanges, -⟩ := ih c hc (hinner.of_mem_visited hc) he
        exact ⟨⟨s₁, s₂, he, .inl (hinner.of_mem_visited hc)⟩, hexprs.trans hI.1, hchanges.trans hI.2⟩) hqs ⟨rfl, rfl⟩
    obtain ⟨-, hexprs, hleft⟩ := left_of_leave hleave
    obtain ⟨hleft, hchanges⟩ := hleft fun h => absurd h hif
    cases hleft with
    | stays hk | moves hk | plain hk | takes hk | line hk =>
      rw [hk] at hkind
      cases hkind
    | other hassign =>
      rw [if_neg hassign] at hexprs
      rw [if_neg hif] at hchanges
      exact ⟨hexprs.trans hs₁.1, hchanges.trans hs₁.2, .mk n.kind n.text qs none, ⟨rfl, rfl, rfl, hparts, hflaw⟩, rfl⟩

lemma rebuiltTo_of_turns_inner (h : t.Turns module n e) : ∃ new, RebuiltTo (t.Turns module) n new ∧ e = .keep new := by
  obtain ⟨s, s', h, -⟩ := h
  exact (edit_walruses_of_inner hinner h).2.2

lemma cleared_of_turns_inner (h : t.Turns module n e) :
    ∃ n', e = .keep n' ∧ n'.cleared = n.cleared := cleared_of_inner rebuiltTo_of_turns_inner hinner h

end

/-- What is at hand when the nodes `rest` are still to be visited from a node: what moves into the next statement, and in
the end what the node itself gives away, if it is a line. -/
def held (module n : Node) (rest : List Node) : Option Node :=
  match nextStatement? rest with
  | some next => movedInto? module next
  | none => (singleAssign? n).bind fun single => movedFrom? module single.1

section

variable (hread : ofModule? source = some module) (hn : n ∈ module.met)
include hread hn

lemma counts_of_inner (hinner : MadeOf isInner n) (h : s'.1.changes.length = s.1.changes.length) :
    Counts module [n] [] s s' := by
  have hzero : metSum (weight module) n = 0 := by
    rw [metSum, sum_eq_zero]
    rw [forall_mem_map]
    intro c hc
    rw [weight, movedInto?_of_kind_ne hread (met_subset hn hc) ((hinner.of_mem_met hc).kind_ne rfl)]
    rfl
  simp [Counts, hzero, h]

variable (hsettled : Settled n)
include hsettled

lemma held_visited : held module n n.visited = none := by
  rw [held]
  split
  next next hnext =>
    have hnodes : n ∈ module.nodes := mem_nodes_of_mem_met hn (self_mem_nodes hsettled.isFiller)
    have hfirst := movedInto?_next hread hnodes (nil_append n.children).symm
    rw [hsettled.children_eq, nextStatement?_filter, hnext] at hfirst
    exact hfirst
  next hnext =>
    cases hsingle : singleAssign? n with
    | none => rfl
    | some single =>
      obtain ⟨assign, target, value⟩ := single
      obtain ⟨hassign, l₁, l₂, hvisited, -⟩ := exists_visited_of_singleAssign? hsettled hsingle
      have hnone := find?_eq_none.1 hnext assign (by simp [hvisited])
      simp [hassign.kind] at hnone

/-- What a statement gives away is what is at hand behind it. -/
lemma owed?_eq_held {front back : List Node} (hvisited : n.visited = front ++ c :: back) (hkind : isInner c.kind = false) :
    owed? module c = held module n back := by
  cases hsingle : singleAssign? n with
  | none =>
    have hnodes : n ∈ module.nodes := mem_nodes_of_mem_met hn (self_mem_nodes hsettled.isFiller)
    have hchildren := hsettled.children_eq
    rw [hvisited, filter_append, filter_cons_of_pos (by simp [isFiller_of_isInner_eq_false hkind])] at hchildren
    have hnext := movedInto?_next hread hnodes (hchildren.trans (append_cons ..))
    rw [getLast?_concat, nextStatement?_filter] at hnext
    rw [owed?_eq hread hnodes hsingle hchildren, held, hsingle]
    refine hnext.symm.trans ?_
    cases nextStatement? back <;> rfl
  | some single =>
    -- the assignment is the only statement of the line
    obtain ⟨assign, target, value⟩ := single
    obtain ⟨-, l₁, l₂, hsplit, hl₁, hl₂⟩ := exists_visited_of_singleAssign? hsettled hsingle
    have hnot {l : List Node} (hl : ∀ d ∈ l, MadeOf isInner d) : c ∉ l := fun hc => by
      rw [(hl c hc).kind] at hkind
      cases hkind
    obtain ⟨-, rfl, rfl⟩ := (append_cons_inj_of_notMem (hnot hl₁) (hnot hl₂)).1 (hsplit.symm.trans hvisited)
    have hnone : nextStatement? l₂ = none := find?_eq_none.2 fun d hd => by simp [(hl₂ d hd).kind]
    rw [owed?, if_pos (exists_of_singleAssign? hsingle).2.2.1, held, hnone, hsingle]
    rfl

variable (hnode : ∀ c ∈ n.visited, Settled c → ∀ {e s s'}, exprs s = (movedInto? module c).toList →
    ((t.walruses (walrusMoves module)).edit c).run s = .ok (e, s') →
    Counts module [c] [] s s' ∧ exprs s' = (owed? module c).toList)
include hnode

/-- The parts of a node, if what is said about its statements holds. -/
lemma parts_of_edit {qs : List Node} (hs : exprs s = [])
    (h : ((t.walruses (walrusMoves module)).editParts (n.kind.shape.map Prod.snd) n.parts).run s = .ok (qs, s')) :
    PartsTo (t.Turns module) (n.kind.shape.map Prod.snd) n.parts qs ∧ Counts module n.visited [] s s' ∧
      exprs s' = (held module n []).toList := by
  obtain ⟨hparts, hcounts, -, hexprs⟩ := Pass.partsTo_along (R := t.Turns module)
    (I := fun rest s₁ => Counts module n.visited rest s s₁ ∧ (∃ front, n.visited = front ++ rest) ∧
      exprs s₁ = (held module n rest).toList) []
    (fun c hc rest e s₁ s₂ he hI => by
      obtain ⟨hcounts, ⟨front, hvisited⟩, hexprs⟩ := hI
      have hvisited' : n.visited = (front ++ [c]) ++ rest := by rw [hvisited, append_cons]
      rcases hsettled.cases_visited hc with hstatement | ⟨hinner, -⟩
      · rw [held, nextStatement?_cons hstatement.kind] at hexprs
        obtain ⟨hcounts', hexprs'⟩ := hnode c hc hstatement hexprs he
        rw [owed?_eq_held hread hn hsettled hvisited hstatement.kind] at hexprs'
        exact ⟨⟨s₁, s₂, he, .inr ⟨hstatement, hexprs⟩⟩, hcounts.trans hcounts', ⟨_, hvisited'⟩, hexprs'⟩
      · obtain ⟨hsame, hchanges, -⟩ := edit_walruses_of_inner hinner he
        rw [held, nextStatement?_cons_of_inner hinner.kind] at hexprs
        have hmet := met_subset hn (visited_subset hc)
        exact ⟨⟨s₁, s₂, he, .inl hinner⟩, hcounts.trans (counts_of_inner hread hmet hinner hchanges), ⟨_, hvisited'⟩,
          hsame.trans hexprs⟩)
    h (by
      have hfirst := held_visited hread hn hsettled
      rw [append_nil]
      rw [visited] at hfirst ⊢
      rw [hfirst]
      exact ⟨rfl, ⟨[], rfl⟩, hs⟩)
  exact ⟨hparts, hcounts, hexprs⟩

lemma exists_of_edit_walruses (hs : exprs s = (movedInto? module n).toList)
    (h : ((t.walruses (walrusMoves module)).edit n).run s = .ok (e, s')) :
    ∃ new s₁, RebuiltTo (t.Turns module) n new ∧ Counts module n.visited [] s s₁ ∧ exprs s₁ = (held module n []).toList ∧
      ((t.walruses (walrusMoves module)).leave n new).run s₁ = .ok (e, s') ∧
      (n.kind = .ifStatement → s₁.2.opened.head?.join.map Prod.snd = movedInto? module n) := by
  obtain ⟨qs, s₁, hqs, hflaw, hleave, heven, -⟩ := exists_leave_of_edit h
  have hentered : exprs (entered n s) = [] ∧ (entered n s).1 = s.1 := by
    rw [entered]
    split
    next =>
      refine ⟨?_, rfl⟩
      rw [exprs] at hs ⊢
      rw [map_tail, hs]
      cases movedInto? module n <;> rfl
    next hif =>
      rw [movedInto?_of_kind_ne hread hn hif] at hs
      exact ⟨hs, rfl⟩
  obtain ⟨hparts, hcounts, hexprs⟩ := parts_of_edit hread hn hsettled hnode hentered.1 hqs
  rw [Counts, hentered.2] at hcounts
  refine ⟨.mk n.kind n.text qs none, s₁, ⟨rfl, rfl, rfl, hparts, hflaw⟩, hcounts, hexprs, hleave, fun hif => ?_⟩
  rw [heven.opened, entered, if_pos hif, head?_cons, Option.join_some, ← head?_map]
  change (exprs s).head? = _
  rw [hs]
  cases movedInto? module n <;> rfl

end

lemma passed_of_edit (hread : ofModule? source = some module) (hn : n ∈ module.met) (hsettled : Settled n)
    (hs : exprs s = (movedInto? module n).toList) (h : ((t.walruses (walrusMoves module)).edit n).run s = .ok (e, s')) :
    Counts module [n] [] s s' ∧ exprs s' = (owed? module n).toList := by
  induction n generalizing e s s' with
  | h n ih =>
    obtain ⟨new, s₁, -, hcounts, hexprs, hleave, hhead⟩ := exists_of_edit_walruses hread hn hsettled
      (fun c hc hc' _ _ _ => ih c hc (met_subset hn (visited_subset hc)) hc') hs h
    obtain ⟨-, hexprs', hleft⟩ := left_of_leave hleave
    constructor
    · have hweight : (if n.kind = .ifStatement then weight module n else 0) = weight module n := by
        split
        · rfl
        next hif =>
          rw [weight, movedInto?_of_kind_ne hread hn hif]
          rfl
      simp only [Counts, (hleft hhead).2, hweight, map_cons, map_nil, sum_cons, sum_nil, metSum_eq] at hcounts ⊢
      omega
    · rw [hexprs', hexprs, owed?]
      split
      next hassign =>
        rw [held, singleAssign?_of_kind_ne (by rw [hassign]; decide)]
        exact append_nil _
      next => rfl

/-! ## Where expressions come from -/

section

variable (hread : ofModule? source = some module) (hsettled : Settled module)
include hread hsettled

/-- Neighbours of which one is a statement are visited from one node. -/
lemma exists_around {line next c : Node} (hpair : (line, next) ∈ neighbours module) (hc : c ∈ module.met)
    (hkind : isInner c.kind = false) (hne : c.kind ≠ .module) (h : c = line ∨ c = next) :
    ∃ a ∈ module.met, Settled a ∧ line ∈ a.visited ∧ next ∈ a.visited := by
  rcases mem_visited_of_mem_met hc with rfl | ⟨a, ha, hca⟩
  · exact absurd (isModule_of_read hread).kind hne
  · have hsettledA := hsettled.around ha hca hkind
    have hnodes := mem_nodes_of_mem_met ha (self_mem_nodes hsettledA.isFiller)
    have hchild := (mem_nodes_of_statement hnodes hsettledA hca hkind).1
    obtain ⟨l₁, l₂, hchildren⟩ := exists_of_neighbours hread hnodes hpair (by rcases h with rfl | rfl <;> simp [hchild])
    rw [hsettledA.children_eq] at hchildren
    exact ⟨a, ha, hsettledA, mem_of_mem_filter (p := fun c => ! c.kind.isFiller) (by simp [hchildren]),
      mem_of_mem_filter (p := fun c => ! c.kind.isFiller) (by simp [hchildren])⟩

lemma exists_line_of_movedInto? (hn : n ∈ module.met) (h : movedInto? module n = some expr) :
    ∃ line assign target value, line ∈ module.met ∧ Settled line ∧ (line, n) ∈ neighbours module ∧
      singleAssign? line = some (assign, target, value) ∧ walrusFor? target value (n.get .test) = some expr := by
  have hkind : n.kind = .ifStatement := by
    by_contra hne
    rw [movedInto?_of_kind_ne hread hn hne] at h
    cases h
  have hmem := mem_nodes_of_mem_met hn (self_mem_nodes (by rw [hkind]; rfl))
  obtain ⟨line, m, hpair, hmove⟩ := exists_of_movedInto? hread hmem h
  obtain ⟨assign, target, value, hsingle, -, hfor, -⟩ := exists_of_walrusMove? hmove
  obtain ⟨a, ha, -, hline, -⟩ := exists_around hread hsettled hpair hn (by rw [hkind]; rfl) (by rw [hkind]; decide) (.inr rfl)
  have hmet := met_subset ha (visited_subset hline)
  exact ⟨line, assign, target, value, hmet, hsettled.of_mem_met hmet (by rw [(exists_of_singleAssign? hsingle).1]; rfl), hpair,
    hsingle, hfor⟩

end

lemma inner_walrus (htarget : MadeOf isInner target) (hvalue : MadeOf isInner value) (parens : Bool) :
    MadeOf isInner (walrus target value parens) := by
  refine madeOf_make isInner_of_isQuiet rfl ?_ _
  simp only [forall_mem_cons, not_mem_nil, false_imp_iff, implies_true, and_true]
  have hparen {k : Kind} (hk : isInner k = true) : ∀ c ∈ if parens then [fresh k] else [], MadeOf isInner c := by
    cases parens with
    | false => simp
    | true => simpa using madeOf_fresh isInner_of_isQuiet hk
  exact ⟨madeOf_seq isInner_of_isQuiet (hparen rfl), htarget, hvalue, madeOf_seq isInner_of_isQuiet (hparen rfl)⟩

lemma inner_of_singleAssign? (hsettled : Settled line)
    (h : singleAssign? line = some (assign, target, value)) : MadeOf isInner target ∧ MadeOf isInner value := by
  obtain ⟨hassign, -⟩ := exists_visited_of_singleAssign? hsettled h
  obtain ⟨-, -, hkind, item, htargets, rfl, -, rfl⟩ := exists_of_singleAssign? h
  have hinner {s : Slot} (hs : s ∈ Kind.assign.slots) : MadeOf isInner (assign.get s) := by
    rw [← hkind] at hs
    exact hassign.inner hs (by rw [hkind]; rfl)
  have hitem : item ∈ (assign.get .targets).items := by
    change item ∈ assign.list .targets
    simp [htargets]
  exact ⟨((hinner (by decide)).of_mem_items hitem).get isInner_of_isQuiet _, hinner (by decide)⟩

lemma eq_walrus_of_walrusFor? (h : walrusFor? target value test = some expr) :
    (test.kind = .name ∧ test.text = target.text ∧ expr = walrus target value false) ∨
      (test.kind = .comparison ∧ (test.get .left).kind = .name ∧ (test.get .left).text = target.text ∧
        expr = walrus target value true) := by
  revert h
  fun_cases walrusFor? target value test with
  | case1 hkind c hc left hif =>
    rintro ⟨⟩
    simp only [Bool.and_eq_true, beq_iff_eq] at hif
    exact .inr ⟨hkind, hif.1.1, hif.2, rfl⟩
  | case4 hkind htext =>
    rintro ⟨⟩
    exact .inl ⟨hkind, beq_iff_eq.1 htext, rfl⟩
  | _ => rintro ⟨⟩

/-! ## What becomes of statements -/

/-- A test with an assignment in place of the name that it asks about. -/
def newTest (test expr : Node) : Node := if test.kind = .name then expr else test.set .left expr

lemma eq_of_withWalrus (h : withWalrus new expr = .ok n') : n' = new.set .test (newTest (new.get .test) expr) := by
  rw [withWalrus] at h
  rw [newTest]
  split at h
  next hname =>
    rw [if_pos (beq_iff_eq.1 hname)]
    exact eq_of_sound h
  next hname =>
    rw [if_neg (by simpa using hname)]
    split at h
    next =>
      obtain ⟨test, htest, h⟩ := of_bind h
      rw [← eq_of_sound htest]
      exact eq_of_sound h
    next => cases h

lemma cleared_newTest (h : test'.cleared = test.cleared) :
    (newTest test' expr).cleared = (newTest test expr).cleared := by
  have hkind : test'.kind = test.kind := by rw [← kind_cleared, h, kind_cleared]
  rw [newTest, newTest, hkind]
  split
  · rfl
  · rw [cleared_set, h, cleared_set]

/-- Does an `if` statement take in the assignment before it? -/
def takesWalrus (module n : Node) : Bool := (movedInto? module n).isSome

/-- What assignments and conditions say afterwards: an assignment that moves is gone, and the condition has it. -/
def movedHeads (module n : Node) : List (Kind × List Node) :=
  match n.kind with
  | .assign => if (movedFrom? module n).isSome then [] else heads n
  | .ifStatement => match movedInto? module n with
    | some expr => [(.ifStatement, [(newTest (n.get .test) expr).cleared])]
    | none => heads n
  | _ => heads n

lemma exists_left_of_turns (hread : ofModule? source = some module) (hn : n ∈ module.met) (hsettled : Settled n)
    (h : t.Turns module n e) : ∃ new, RebuiltTo (t.Turns module) n new ∧ Left module n new e := by
  obtain ⟨s, s', h, hinner | ⟨-, hs⟩⟩ := h
  · exact absurd hsettled hinner.not_settled
  · obtain ⟨new, s₁, hnew, -, -, hleave, hhead⟩ := exists_of_edit_walruses hread hn hsettled
      (fun c hc hc' _ _ _ => passed_of_edit hread (met_subset hn (visited_subset hc)) hc') hs h
    exact ⟨new, hnew, ((left_of_leave hleave).2.2 hhead).1⟩

lemma movedHeads_of_isInner (h : isInner n.kind = true) : movedHeads module n = [] := by
  rw [movedHeads]
  split
  next hkind =>
    rw [hkind] at h
    cases h
  next hkind =>
    rw [hkind] at h
    cases h
  next => exact heads_of_isInner h

lemma inner_of_mem_lineRemains (hsettled : Settled line)
    (hkind : line.kind = .simpleStatementLine) (hc : c ∈ lineRemains line) : MadeOf isInner c := by
  have hinner {s : Slot} (hs : s ∈ Kind.simpleStatementLine.slots) (hseat : isSeat .simpleStatementLine s = false) :
      MadeOf isInner (line.get s) := by
    rw [← hkind] at hs hseat
    exact hsettled.inner hs hseat
  rw [lineRemains, mem_append] at hc
  rcases hc with hc | hc
  · exact (hinner (s := .leadingLines) (by decide) rfl).of_mem_items hc
  · split at hc
    · rw [mem_singleton.1 hc]
      exact (hinner (s := .trailing) (by decide) rfl).set _ (madeOf_blank isInner_of_isQuiet _)
    · cases hc

lemma kind_of_left (hkind : new.kind = n.kind) (h : Left module n new (.keep n')) : n'.kind = n.kind := by
  generalize he : Syntax.Edit.keep n' = e at h
  cases h with
  | stays | plain =>
    cases he
    rfl
  | moves => cases he
  | takes _ _ hn' =>
    cases he
    rw [eq_of_withWalrus hn', kind_set, hkind]
  | line =>
    split at he
    · cases he
    · cases he
      exact hkind
  | other =>
    cases he
    exact hkind

section

variable (hread : ofModule? source = some module) (hsettled : Settled module)
include hread hsettled

lemma listed_of_withWalrus (hn : n ∈ module.met) (hstatement : Settled n) (hkind : n.kind = .ifStatement)
    (hinto : movedInto? module n = some expr) (hnew : RebuiltTo (t.Turns module) n new)
    (hn' : withWalrus new expr = .ok n') :
    listed heads n' = movedHeads module n ++ new.visited.flatMap (listed heads) := by
  have htest := cleared_get_of_rebuiltTo cleared_of_turns_inner hstatement hnew (s := .test) (by rw [hkind]; rfl)
  have hinner := inner_get_of_rebuiltTo cleared_of_turns_inner hstatement hnew (s := .test) (by rw [hkind]; decide)
    (by rw [hkind]; rfl)
  obtain ⟨line, assign, target, value, -, hline, -, hsingle, hfor⟩ := exists_line_of_movedInto? hread hsettled hn hinto
  obtain ⟨htarget, hvalue⟩ := inner_of_singleAssign? hline hsingle
  have hexpr : MadeOf isInner expr := by
    rcases eq_walrus_of_walrusFor? hfor with ⟨-, -, rfl⟩ | ⟨-, -, -, rfl⟩ <;> exact inner_walrus htarget hvalue _
  have hpresent : (new.get .test).kind ≠ .absent := by
    rw [← kind_cleared, htest, kind_cleared]
    rcases eq_walrus_of_walrusFor? hfor with ⟨hname, -⟩ | ⟨hname, -⟩ <;> rw [hname] <;> decide
  have hnewTest : MadeOf isInner (newTest (new.get .test) expr) := by
    rw [newTest]
    split
    · exact hexpr
    · exact hinner.set _ hexpr
  obtain rfl := eq_of_withWalrus hn'
  have hkind' : (new.set .test (newTest (new.get .test) expr)).kind = .ifStatement := by
    rw [kind_set, hnew.kind, hkind]
  rw [listed_eq, flatMap_listed_set hinner hnewTest, heads, hkind', movedHeads, hkind, hinto]
  rw [get_set_of_kind_ne hpresent, cleared_newTest htest]

lemma lossy_turns : Lossy .ifStatement (takesWalrus module) module heads (fun n head => head = movedHeads module n)
      (t.Turns module) where
  kind := rfl
  filler h := by rw [heads_of_isInner (isInner_of_isFiller h), movedHeads_of_isInner (isInner_of_isFiller h)]
  keepsKind {n n'} hn h := by
    rcases hsettled.cases_met hn with hstatement | hinner
    · obtain ⟨new, hnew, hleft⟩ := exists_left_of_turns hread hn hstatement h
      exact kind_of_left hnew.kind hleft
    · obtain ⟨new, hnew, heq⟩ := rebuiltTo_of_turns_inner hinner h
      cases heq
      exact hnew.kind
  undecided {n e} hn hkind hdecided h := by
    have hstatement := hsettled.of_mem_met hn (by rw [hkind]; rfl)
    obtain ⟨new, -, hleft⟩ := exists_left_of_turns hread hn hstatement h
    cases hleft with
    | stays hassign _ | moves hassign _ | line hassign => exact absurd (hkind.symm.trans hassign) (by decide)
    | plain => rfl
    | takes _ hinto _ =>
      rw [takesWalrus, hinto] at hdecided
      cases hdecided
    | other _ hne _ => exact absurd hkind hne
  rebuilt {n e} hn hdecided h := by
    rcases hsettled.cases_met hn with hstatement | hinner
    · obtain ⟨new, hnew, hleft⟩ := exists_left_of_turns hread hn hstatement h
      have hkeep := flatMap_listed_members cleared_of_turns_inner hstatement hnew
      -- an assignment holds no statements, before and after
      have hassign (hkind : n.kind = .assign) : new.visited.flatMap (listed heads) = [] := by
        refine flatMap_listed_heads_of_inner fun c hc => ?_
        obtain ⟨s, hs, hopened⟩ := exists_slot_of_mem_visited hc
        rw [hnew.kind] at hs
        exact (inner_get_of_rebuiltTo cleared_of_turns_inner hstatement hnew hs (by rw [hkind]; rfl)).of_mem_opened hopened
      refine ⟨new, movedHeads module n, hnew, rfl, fun isBody => ?_⟩
      cases hleft with
      | stays hkind hmoved =>
        rw [members_keep_self, List.flatMap_singleton, listed_eq, hassign hkind, flatMap_listed_heads_of_inner fun c hc =>
          hstatement.inner_of_mem_visited (by rw [hkind]; rfl) hc, movedHeads, hkind, hmoved]
        rfl
      | moves hkind hmoved =>
        rw [hassign hkind, movedHeads, hkind, hmoved]
        rfl
      | plain hkind hinto =>
        have hdecided := hdecided hkind
        rw [takesWalrus, hinto] at hdecided
        cases hdecided
      | @takes expr n' hkind hinto hn' =>
        have hkind' : n'.kind = .ifStatement := by rw [eq_of_withWalrus hn', kind_set, hnew.kind, hkind]
        rw [members_keep_of_kind_ne (by rw [hkind']; decide) (by rw [hkind']; decide), List.flatMap_singleton,
          listed_of_withWalrus hread hsettled hn hstatement hkind hinto hnew hn']
      | line hkind =>
        have hheads : movedHeads module n = heads n := by rw [movedHeads, hkind]
        rw [hheads]
        split
        next hempty =>
          rw [List.isEmpty_iff] at hempty
          rw [flatMap_listed_heads_of_inner (fun c hc => inner_of_mem_visited_of_spent cleared_of_turns_inner hstatement hnew
            (.inl hkind) hempty hc), flatMap_listed_heads_of_inner, heads, hkind]
          · rfl
          · intro c hc
            exact inner_of_mem_lineRemains hstatement hkind (List.mem_of_mem_filter hc)
        next => exact hkeep isBody
      | other hassign hif hline =>
        have hheads : movedHeads module n = heads n := by
          rw [movedHeads]
          split
          next hkind => exact absurd hkind hassign
          next hkind => exact absurd hkind hif
          next => rfl
        rw [hheads]
        exact hkeep isBody
    · obtain ⟨new, hnew, hlisted⟩ := exists_listed_of_inner rebuiltTo_of_turns_inner hinner h
      exact ⟨new, heads n, hnew, by rw [heads_of_isInner hinner.kind, movedHeads_of_isInner hinner.kind], hlisted⟩

end

/-! ## The whole module -/

section

variable {out : Node} {notes : Notes} (hread : ofModule? source = some t.module) (h : t.useWalrus = .ok (out, notes))
include hread h

lemma edit_of_useWalrus : ∃ st, ((t.walruses (walrusMoves t.module)).edit t.module).run ({}, {}) = .ok (.keep out, notes, st) ∧
    notes.changes.length = t.module.met.countP (takesWalrus t.module) ∧
    Settled t.module ∧ t.Turns t.module t.module (.keep out) := by
  have hsettled := settled_of_read hread
  have hcommand := of_withScopes h
  obtain ⟨⟨module', notes', st⟩, hrun, hcommand⟩ := of_bind hcommand
  have hedit := Pass.edit_of_run hrun
  have hnone : movedInto? t.module t.module = none :=
    movedInto?_of_kind_ne hread (self_mem_met _) (by rw [(isModule_of_read hread).kind]; decide)
  have hexprs : exprs (({}, {}) : Notes × WalrusState) = (movedInto? t.module t.module).toList := by
    rw [hnone]
    rfl
  obtain ⟨-, -, -, -, -, -, heven⟩ := exists_leave_of_edit hedit
  obtain ⟨module'', hsettle, hcommand⟩ := of_bind hcommand
  rw [settleImports_of_nil heven.needed heven.superfluous] at hsettle
  cases hsettle
  cases hcommand
  refine ⟨st, hedit, ?_, hsettled, _, _, hedit, .inr ⟨hsettled, hexprs⟩⟩
  obtain ⟨hchanges, -⟩ := passed_of_edit hread (self_mem_met _) hsettled hexprs hedit
  simp only [Counts, map_nil, sum_nil, map_cons, Nat.add_zero, sum_cons] at hchanges
  rw [hchanges, ← metSum_eq_countP]
  exact Nat.zero_add _

lemma listed_of_useWalrus : listed heads out = t.module.met.flatMap fun n =>
      if isLive .ifStatement (takesWalrus t.module) t.module n then movedHeads t.module n else heads n := by
  obtain ⟨-, -, -, hsettled, hturns⟩ := edit_of_useWalrus hread h
  obtain ⟨pieces, hpieces, hlisted⟩ := (lossy_turns (t := t) hread hsettled).pieces_of_module (numbered_of_read hread)
    (isModule_of_read hread).kind (by decide) hturns
  have hmap : Forall₂ Eq (t.module.met.map fun n =>
      if isLive .ifStatement (takesWalrus t.module) t.module n then movedHeads t.module n else heads n) pieces := by
    rw [forall₂_map_left_iff]
    refine hpieces.imp fun n piece hpiece => ?_
    rw [Lossy.Piece] at hpiece
    split at hpiece
    next hn => rw [hpiece, if_pos hn]
    next hn => rw [hpiece, if_neg hn]
  rw [forall₂_eq_eq_eq] at hmap
  rw [hlisted, ← hmap, flatMap_def]

end

/-! ## Lines and conditions that change together -/

section

variable {next : Node} (hread : ofModule? source = some module)
include hread

variable (hsettled : Settled module) (hpair : (line, next) ∈ neighbours module) (hline : line ∈ module.met)
  (hsingle : singleAssign? line = some (assign, target, value)) (hkind : next.kind = .ifStatement)
include hsettled hpair hline hsingle hkind

end

end Task

end Mender.Codemod
