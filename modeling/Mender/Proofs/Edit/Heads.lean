import Mender.Proofs.Edit.Listings

/-!
# The heads of statements

Passes that work on statements leave expressions alone. In a settled module they then change no place that holds no
statements (`cleared_get_of_rebuiltTo`), so what a statement says apart from its blocks is what it said before
(`heads_of_rebuiltTo`).

* `Settled` — where statements stand in a module that was read;
* `flatMap_listed_set` — what is listed of a node in which an expression was replaced.
-/

namespace Mender.Syntax

open List

/-! ## Trees of one sort, and where statements stand

Statements and what holds statements are one sort of nodes, all that is in them is another. Which kinds a tree is made of
(`Node.MadeOf`) follows from the kinds of the parts it is put together from. In a module that was read, statements stand
in blocks and nowhere else (`Node.Settled`). -/

open Mender.Edit (isFrame isStatement isBlockPlace isRunPlace standing framed framedAt framedOf)

lemma isInner_of_isQuiet (k : Kind) (h : isQuiet k = true) : isInner k = true := by
  rw [isQuiet, Bool.and_eq_true] at h
  exact h.1

namespace Node

/-- All of a tree is of certain kinds. -/
inductive MadeOf (p : Kind → Bool) : Node → Prop
  | mk {n : Node} : p n.kind = true → (∀ c ∈ n.parts, MadeOf p c) → MadeOf p n

variable {p : Kind → Bool}

lemma forall_isMadeOf {ns : List Node} (h : areMadeOf p ns = true) : ∀ n ∈ ns, isMadeOf p n = true := by
  induction ns with
  | nil => simp
  | cons n ns ih =>
    rw [areMadeOf, Bool.and_eq_true] at h
    exact forall_mem_cons.2 ⟨h.1, ih h.2⟩

lemma madeOf_of_isMadeOf {n : Node} (h : isMadeOf p n = true) : MadeOf p n := by
  induction n using partsInduction with
  | h n ih =>
    obtain ⟨k, t, ps, m⟩ := n
    rw [isMadeOf, Bool.and_eq_true] at h
    exact .mk h.1 fun c hc => ih c hc (forall_isMadeOf h.2 c hc)

section

variable {p q : Kind → Bool} {n c : Node}

namespace MadeOf

variable (h : MadeOf p n)
include h

lemma kind : p n.kind = true := by
  cases h with
  | mk hkind _ => exact hkind

lemma kind_ne {k : Kind} (hk : p k = false) : n.kind ≠ k := fun hkind => Bool.eq_false_iff.1 hk (hkind ▸ h.kind)

lemma of_mem_parts (hc : c ∈ n.parts) : MadeOf p c := by
  cases h with
  | mk _ hparts => exact hparts c hc

lemma mono (hpq : ∀ k, p k = true → q k = true) : MadeOf q n := by
  induction h with
  | mk hkind _ ih => exact .mk (hpq _ hkind) ih

lemma of_mem_items (hc : c ∈ n.items) : MadeOf p c := h.of_mem_parts (mem_items hc)

lemma of_mem_opened (hc : c ∈ n.opened) : MadeOf p c := by
  rcases cases_of_mem_opened hc with ⟨rfl, -⟩ | ⟨-, hc⟩
  · exact h
  · exact h.of_mem_parts hc

lemma of_mem_visited (hc : c ∈ n.visited) : MadeOf p c := of_visited (fun _ h _ hc => h.of_mem_parts hc) h hc

lemma of_mem_met (hc : c ∈ n.met) : MadeOf p c := of_met (fun _ h _ hc => h.of_mem_parts hc) h hc

end MadeOf

lemma madeOf_cleared : MadeOf p n.cleared ↔ MadeOf p n := by
  induction n using partsInduction with
  | h n ih =>
    constructor
    · intro h
      refine .mk (kind_cleared n ▸ h.kind) fun c hc => (ih c hc).1 (h.of_mem_parts ?_)
      rw [parts_cleared]
      exact mem_map_of_mem hc
    · intro h
      refine .mk ((kind_cleared n).symm ▸ h.kind) fun c hc => ?_
      rw [parts_cleared] at hc
      obtain ⟨d, hd, rfl⟩ := mem_map.1 hc
      exact (ih d hd).2 (h.of_mem_parts hd)

end

/-! ## Trees that are put together -/

section

variable {p : Kind → Bool} {n c part : Node} {changes : List (Slot × Node)} {k : Kind}

lemma MadeOf.set (h : MadeOf p n) (s : Slot) (hpart : MadeOf p part) : MadeOf p (n.set s part) := by
  rw [Node.set]
  split
  · refine .mk h.kind fun c hc => ?_
    rcases mem_or_eq_of_mem_set hc with hc | rfl
    · exact h.of_mem_parts hc
    · exact hpart
  · cases n
    exact .mk h.kind fun c hc => h.of_mem_parts hc

lemma MadeOf.setAll (h : MadeOf p n) (hchanges : ∀ c ∈ changes, MadeOf p c.2) : MadeOf p (n.setAll changes) := by
  have hstart : MadeOf p n.unmarked := by
    cases n
    exact .mk h.kind fun c hc => h.of_mem_parts hc
  rw [Node.setAll]
  generalize n.unmarked = n at hstart
  induction changes generalizing n with
  | nil => exact hstart
  | cons c cs ih =>
    rw [forall_mem_cons] at hchanges
    exact ih hchanges.2 _ (hstart.set c.1 hchanges.1)

lemma MadeOf.withText (h : MadeOf p n) (s : String) : MadeOf p (n.withText s) := .mk h.kind fun _ hc => h.of_mem_parts hc

def hasQuietDefaults (k : Kind) : Bool :=
  k.shape.all fun place =>
    match place.2 with
    | .one k' | .single k' => isQuiet k'
    | _ => true

lemma hasQuietDefaults_eq_true (k : Kind) : hasQuietDefaults k = true := by
  cases k <;> rfl

-- from here on a sort has all quiet kinds
variable (hp : ∀ k, isQuiet k = true → p k = true)
include hp

lemma madeOf_absent : MadeOf p absent := .mk (hp _ rfl) (by simp [absent, parts])

lemma madeOf_auto : MadeOf p auto := .mk (hp _ rfl) (by simp [auto, parts])

lemma madeOf_blank (s : String) : MadeOf p (blank s) := .mk (hp _ rfl) (by simp [blank, leaf, parts])

lemma madeOf_word (s : String) : MadeOf p (word s) := .mk (hp _ rfl) (by simp [word, parts])

lemma madeOf_seq {ns : List Node} (h : ∀ c ∈ ns, MadeOf p c) : MadeOf p (seq ns) := .mk (hp _ rfl) h

lemma MadeOf.get (h : MadeOf p n) (s : Slot) : MadeOf p (n.get s) := by
  rcases get_cases n s with hpart | habsent
  · exact h.of_mem_parts hpart
  · exact habsent ▸ madeOf_absent hp

lemma madeOf_of_mem_freshTo (depth : Nat) (k : Kind) : ∀ c ∈ (freshTo depth k).parts, MadeOf p c := by
  induction depth generalizing k with
  | zero => exact fun c hc => absurd hc not_mem_nil
  | succ depth ih =>
    intro c hc
    obtain ⟨place, hplace, rfl⟩ := mem_map.1 hc
    have hquiet := all_eq_true.1 (hasQuietDefaults_eq_true k) place hplace
    have hkind (k' : Kind) : (freshTo depth k').kind = k' := by cases depth <;> rfl
    have hdefault (k' : Kind) (hk' : isQuiet k' = true) : MadeOf p (freshTo depth k') :=
      .mk ((hkind k').symm ▸ hp k' hk') (ih k')
    obtain ⟨s, f⟩ := place
    cases f with
    | needed | absent => exact madeOf_absent hp
    | auto => exact madeOf_auto hp
    | none | body => exact madeOf_seq hp (by simp)
    | tight => exact madeOf_blank hp ""
    | space => exact madeOf_blank hp " "
    | one k' => exact hdefault k' hquiet
    | single k' => exact madeOf_seq hp (by simpa using hdefault k' hquiet)
    | word s => exact madeOf_word hp s

lemma madeOf_fresh (hk : p k = true) : MadeOf p (fresh k) := .mk hk (madeOf_of_mem_freshTo hp 4 k)

lemma madeOf_make (hk : p k = true) (hchanges : ∀ c ∈ changes, MadeOf p c.2)
    (s : String) : MadeOf p (make k changes s) := ((madeOf_fresh hp hk).withText s).setAll hchanges

end

end Node

/-! ## Statements in their places -/

namespace Node

variable {n c p module : Node} {s : Slot} {f : Fill}

def Settled (n : Node) : Prop := ∀ c ∈ standing n, isTidy c = true

lemma mem_framedOf {places : List (Slot × Fill)} {ps : List Node} {i : Nat} (hplace : places[i]? = some (s, f))
    (hpart : ps[i]? = some p) (hc : c ∈ framedAt s f p) : c ∈ framedOf places ps := by
  induction places generalizing ps i with
  | nil => cases hplace
  | cons place places ih =>
    cases ps with
    | nil => cases hpart
    | cons q ps =>
      rw [framedOf, mem_append]
      cases i with
      | zero =>
        cases hplace
        cases hpart
        exact .inl hc
      | succ i => exact .inr (ih hplace hpart)

namespace Settled

variable (h : Settled n)
include h

lemma tidy : isInner n.kind = false ∧ n.parts.length = n.kind.shape.length ∧ (∀ c ∈ n.parts, isImport c.kind = false) ∧
    ∀ place ∈ n.kind.shape, if isSeat n.kind place.1 then isRunPlace place.2 = ((n.get place.1).kind == .seq)
      else isMadeOf (besides n.kind) (n.get place.1) = true := by
  have htidy := h n (Edit.self_mem_standing n)
  simpa [isTidy, and_assoc, Bool.ite_eq_true_distrib] using htidy

lemma kind : isInner n.kind = false := h.tidy.1

lemma length : n.parts.length = n.kind.shape.length := h.tidy.2.1

lemma isFiller : n.kind.isFiller = false := by
  have hkind := h.kind
  generalize n.kind = k at hkind
  revert hkind
  cases k <;> decide

lemma besides (hs : s ∈ n.kind.slots) (hseat : isSeat n.kind s = false) : MadeOf (besides n.kind) (n.get s) := by
  obtain ⟨place, hplace, rfl⟩ := mem_map.1 hs
  have hpart := h.tidy.2.2.2 place hplace
  rw [if_neg (by rw [hseat]; decide)] at hpart
  exact madeOf_of_isMadeOf hpart

lemma inner (hs : s ∈ n.kind.slots) (hseat : isSeat n.kind s = false) : MadeOf isInner (n.get s) := by
  refine (h.besides hs hseat).mono fun k hk => ?_
  rw [Node.besides] at hk
  split at hk
  · exact isInner_of_isQuiet k hk
  · exact hk

lemma row (hplace : (s, f) ∈ n.kind.shape) (hseat : isSeat n.kind s = true) (hrun : isRunPlace f = true) :
    (n.get s).kind = .seq := by
  have hpart := h.tidy.2.2.2 _ hplace
  rw [if_pos hseat, hrun] at hpart
  exact beq_iff_eq.1 hpart.symm

lemma framed (hc : c ∈ framed n) : Settled c :=
  fun d hd => h d (Edit.mem_standing.2 (.inr ⟨c, hc, hd⟩))

lemma seated (hseat : isSeat n.kind s = true) (hc : c ∈ (n.get s).opened) : Settled c := by
  refine h.framed ?_
  rw [isSeat, Bool.and_eq_true] at hseat
  cases hi : n.kind.slots.idxOf? s with
  | none =>
    rw [get_eq_absent hi] at hc
    cases hc
  | some i =>
    obtain ⟨hlt, hslot, -⟩ := findIdx?_eq_some_iff_getElem.1 hi
    rw [Kind.slots, length_map] at hlt
    have hplace : n.kind.shape[i]? = some (s, n.kind.shape[i].2) := by
      have hfst : n.kind.shape[i].1 = s := by simpa [Kind.slots] using hslot
      rw [getElem?_eq_getElem hlt, ← hfst]
    have hpart : n.parts[i]? = some (n.get s) := by
      rw [get_eq_getD hi, getD_eq_getElem _ _ (h.length.symm ▸ hlt), getElem?_eq_getElem]
    have hrun := h.tidy.2.2.2 _ (mem_of_getElem? hplace)
    rw [if_pos (by simp [isSeat, hseat])] at hrun
    rw [Edit.framed, if_pos hseat.1]
    refine mem_framedOf hplace hpart ?_
    rw [framedAt, hseat.2, hrun]
    rw [opened] at hc
    split at hc
    next hseq => simpa [hseq, items, beq_iff_eq.1 hseq] using hc
    next hseq => simpa [hseq] using hc

end Settled

lemma settled_of_read {source : String} (h : ofModule? source = some module) : Settled module := by
  obtain ⟨n, -, -, hsettled⟩ := exists_whole h
  exact all_eq_true.1 (Bool.and_eq_true_iff.1 hsettled).1

end Node

end Mender.Syntax

namespace Mender.Syntax.Node

variable {n c d : Node}

section

variable (h : Settled n)
include h

lemma Settled.cases_visited (hc : c ∈ n.visited) :
    Settled c ∨ (MadeOf isInner c ∧ ∃ s ∈ n.kind.slots, isSeat n.kind s = false ∧ c ∈ (n.get s).opened) := by
  obtain ⟨s, hs, hopened⟩ := exists_slot_of_mem_visited hc
  cases hseat : isSeat n.kind s with
  | true => exact .inl (h.seated hseat hopened)
  | false => exact .inr ⟨(h.inner hs hseat).of_mem_opened hopened, s, hs, hseat, hopened⟩

variable (hc : c ∈ n.met)
include hc

lemma Settled.cases_met : Settled c ∨ MadeOf isInner c := by
  induction n with
  | h n ih =>
    rcases mem_met.1 hc with rfl | ⟨d, hd, hc⟩
    · exact .inl h
    · rcases h.cases_visited hd with hsettled | ⟨hinner, -⟩
      · exact ih d hd hsettled hc
      · exact .inr (hinner.of_mem_met hc)

lemma Settled.of_mem_met (hkind : isInner c.kind = false) : Settled c :=
  (h.cases_met hc).resolve_right fun hinner => Bool.eq_false_iff.1 hkind hinner.kind

/-- A node from which a statement is visited. -/
lemma Settled.around (hd : d ∈ c.visited) (hkind : isInner d.kind = false) : Settled c :=
  (h.cases_met hc).resolve_right fun hinner => Bool.eq_false_iff.1 hkind (hinner.of_mem_visited hd).kind

end

lemma MadeOf.not_settled (h : MadeOf isInner n) : ¬ Settled n := fun hsettled => Bool.eq_false_iff.1 hsettled.kind h.kind

lemma Settled.inner_of_mem_visited (h : Settled n) (hframe : Edit.isFrame n.kind = false) (hc : c ∈ n.visited) :
    MadeOf isInner c := by
  obtain ⟨s, hs, hopened⟩ := exists_slot_of_mem_visited hc
  exact (h.inner hs (by simp [isSeat, hframe])).of_mem_opened hopened

end Mender.Syntax.Node

namespace Mender.Edit

open Syntax Node List

variable {n new c part n' : Node} {R : Node → Edit → Prop} {s : Slot} {β : Type}

/-- What assignments, `if` and `with` statements say before their blocks. -/
def heads (n : Node) : List (Kind × List Node) :=
  match n.kind with
  | .assign => [(.assign, [n.cleared])]
  | .ifStatement => [(.ifStatement, [(n.get .test).cleared])]
  | .withStatement => [(.withStatement, (n.list .items).map cleared)]
  | _ => []

lemma heads_of_isInner (h : isInner n.kind = true) : heads n = [] := by
  rw [heads]
  split <;> first | rfl | (rename_i hkind; rw [hkind] at h; cases h)

lemma listed_heads_of_inner (h : MadeOf isInner n) : listed heads n = [] :=
  listed_eq_nil _ fun _ hc => heads_of_isInner (h.of_mem_met hc).kind

lemma flatMap_listed_heads_of_inner {ns : List Node} (h : ∀ c ∈ ns, MadeOf isInner c) : ns.flatMap (listed heads) = [] :=
  flatMap_eq_nil_iff.2 fun c hc => listed_heads_of_inner (h c hc)

/-! ## Nodes that are rebuilt -/

lemma cleared_of_inner (hR : ∀ {c e}, MadeOf isInner c → R c e → ∃ new, RebuiltTo R c new ∧ e = .keep new) {e : Edit}
    (hn : MadeOf isInner n) (h : R n e) : ∃ n', e = .keep n' ∧ n'.cleared = n.cleared :=
  unchanged_of_kept (fun _ hc _ => hR (hn.of_mem_met hc)) h

section

variable (hinner : ∀ {c e}, MadeOf isInner c → R c e → ∃ c', e = .keep c' ∧ c'.cleared = c.cleared) (hn : Settled n)
include hinner hn

lemma cleared_get_of_partsTo (hkind : new.kind = n.kind) (hnew : PartsTo R (n.kind.shape.map Prod.snd) n.parts new.parts)
    (hseat : isSeat n.kind s = false) : (new.get s).cleared = (n.get s).cleared := by
  by_cases hs : s ∈ n.kind.slots
  · obtain ⟨f, hpart⟩ := hnew.partTo_get hkind s
    have hkept := keptPart_of_partTo steady_unchanged hpart fun c hc e => hinner ((hn.inner hs hseat).of_mem_opened hc)
    exact hkept.unchanged
  · rw [get_eq_absent (by rw [hkind]; simpa using hs), get_eq_absent (by simpa using hs)]

variable (hnew : RebuiltTo R n new)
include hnew

lemma cleared_get_of_rebuiltTo (hseat : isSeat n.kind s = false) : (new.get s).cleared = (n.get s).cleared :=
  cleared_get_of_partsTo hinner hn hnew.kind hnew.parts hseat

lemma inner_get_of_rebuiltTo (hs : s ∈ n.kind.slots) (hseat : isSeat n.kind s = false) : MadeOf isInner (new.get s) := by
  rw [← madeOf_cleared, cleared_get_of_rebuiltTo hinner hn hnew hseat, madeOf_cleared]
  exact hn.inner hs hseat

lemma cleared_of_rebuiltTo (hframe : isFrame n.kind = false) : new.cleared = n.cleared :=
  hnew.unchanged fun _ hc _ => hinner (hn.inner_of_mem_visited hframe hc)

lemma heads_of_rebuiltTo : heads new = heads n := by
  have hget {s : Slot} (hs : isBlockPlace s = false) : (new.get s).cleared = (n.get s).cleared :=
    cleared_get_of_rebuiltTo hinner hn hnew (by simp [isSeat, hs])
  rw [heads, heads, hnew.kind]
  split
  next hkind => rw [cleared_of_rebuiltTo hinner hn hnew (by rw [hkind]; rfl)]
  next => rw [hget rfl]
  next => rw [← list_cleared, ← list_cleared, list, list, get_cleared, get_cleared, hget rfl]
  next => rfl

lemma inner_of_mem_visited_of_spent
    (hkind : n.kind = .simpleStatementLine ∨ n.kind = .simpleStatementSuite) (hempty : new.list .body = [])
    (hc : c ∈ new.visited) : MadeOf isInner c := by
  obtain ⟨s, hs, hopened⟩ := exists_slot_of_mem_visited hc
  rw [hnew.kind] at hs
  by_cases hbody : s = .body
  · subst hbody
    have hrow : (n.get .body).kind = .seq := by
      rcases hkind with hkind | hkind <;> exact hn.row (f := .none) (by rw [hkind]; decide) (by rw [hkind]; rfl) rfl
    have hrow' : (new.get .body).kind = .seq := by
      obtain ⟨f, hpart⟩ := hnew.partTo_get .body
      generalize new.get .body = q at hpart
      cases hpart with
      | run hseq _ => exact hseq
      | filler _ hne => exact absurd hrow hne
      | node hnode _ _ =>
        rw [hrow] at hnode
        cases hnode
    rw [opened_run hrow', ← items_run hrow', ← list, hempty] at hopened
    cases hopened
  · refine (inner_get_of_rebuiltTo hinner hn hnew hs ?_).of_mem_opened hopened
    rcases hkind with hkind | hkind <;> rw [hkind] at hs ⊢ <;> revert hs hbody <;> cases s <;> decide

lemma flatMap_listed_members (isBody : Bool) :
    ((Edit.keep new).members isBody n).flatMap (listed heads) = heads n ++ new.visited.flatMap (listed heads) := by
  rw [Edit.members]
  split
  next hspent =>
    rw [Bool.and_assoc, Bool.and_eq_true, Bool.and_eq_true, isSpentLine, Bool.and_eq_true, Bool.or_eq_true, beq_iff_eq,
      beq_iff_eq, hnew.kind, List.isEmpty_iff] at hspent
    obtain ⟨-, ⟨hkind, hempty⟩, -⟩ := hspent
    have hheads : heads n = [] := by
      rcases hkind with hkind | hkind <;> simp [heads, hkind]
    rw [hheads, flatMap_listed_heads_of_inner fun c hc => inner_of_mem_visited_of_spent hinner hn hnew hkind hempty hc]
    rfl
  next => rw [List.flatMap_singleton, listed_eq, heads_of_rebuiltTo hinner hn hnew]

end

lemma exists_listed_of_inner (hR : ∀ {c e}, MadeOf isInner c → R c e → ∃ new, RebuiltTo R c new ∧ e = .keep new) {e : Edit}
    (hn : MadeOf isInner n) (h : R n e) : ∃ new, RebuiltTo R n new ∧ ∀ isBody,
      (e.members isBody n).flatMap (listed heads) = heads n ++ new.visited.flatMap (listed heads) := by
  obtain ⟨new, hnew, rfl⟩ := hR hn h
  obtain ⟨new', heq, hcleared⟩ := cleared_of_inner hR hn h
  cases heq
  have hinner : MadeOf isInner new := madeOf_cleared.1 (hcleared ▸ madeOf_cleared.2 hn)
  refine ⟨new, hnew, fun isBody => ?_⟩
  rw [heads_of_isInner hn.kind, nil_append, flatMap_listed_heads_of_inner fun c hc => hinner.of_mem_visited hc,
    flatMap_listed_heads_of_inner]
  intro c hc
  rw [Edit.members] at hc
  split at hc
  · cases hc
  · rw [mem_singleton.1 hc]
    exact hinner

lemma members_keep_of_kind_ne (hline : n'.kind ≠ .simpleStatementLine) (hsuite : n'.kind ≠ .simpleStatementSuite)
    (isBody : Bool) : (Edit.keep n').members isBody n = [n'] := by
  have hspent : n'.isSpentLine = false := by simp [isSpentLine, hline, hsuite]
  rw [Edit.members, hspent, Bool.and_false]
  rfl

lemma Lossy.pieces_of_module {k : Kind} {decided : Node → Bool} {module out : Node} {v : Node → List β}
    {New : Node → List β → Prop} (hnumbered : Numbered module) (h : Lossy k decided module v New R)
    (hkind : module.kind = .module) (hk : k ≠ .module) (hout : R module (.keep out)) :
    Pieces k decided module v New module (listed v out) := by
  have hlive : isLive k decided module module = true := isLive_root hnumbered (hkind ▸ hk.symm) (by rw [hkind]; rfl)
  have hpieces := h.exists_pieces hnumbered (self_mem_met _) hlive hout false
  have hkind' : out.kind = .module := (h.keepsKind (self_mem_met _) hout).trans hkind
  rwa [members_keep_of_kind_ne (by rw [hkind']; decide) (by rw [hkind']; decide), flatMap_singleton] at hpieces

/-! ## Nodes with other expressions in them -/

lemma flatMap_visitedOf_set (g : Node → List β) {fs : List Fill} {ps : List Node} {i : Nat}
    (hold : (ps.getD i absent).opened.flatMap g = []) (hpart : part.opened.flatMap g = []) :
    (visitedOf fs (ps.set i part)).flatMap g = (visitedOf fs ps).flatMap g := by
  induction fs generalizing ps i with
  | nil => cases ps <;> cases i <;> rfl
  | cons f fs ih =>
    cases ps with
    | nil => rfl
    | cons p ps =>
      cases i with
      | zero =>
        rw [getD_cons_zero] at hold
        rw [set_cons_zero, visitedOf, visitedOf, flatMap_append, flatMap_append, hold, hpart]
      | succ i =>
        rw [getD_cons_succ] at hold
        rw [set_cons_succ, visitedOf, visitedOf, flatMap_append, flatMap_append, ih hold]

lemma flatMap_listed_set (hold : MadeOf isInner (n.get s)) (hpart : MadeOf isInner part) :
    (n.set s part).visited.flatMap (listed heads) = n.visited.flatMap (listed heads) := by
  rw [Node.set]
  split
  next i hi =>
    rw [get_eq_getD hi] at hold
    exact flatMap_visitedOf_set _ (flatMap_listed_heads_of_inner fun c hc => hold.of_mem_opened hc)
      (flatMap_listed_heads_of_inner fun c hc => hpart.of_mem_opened hc)
  next =>
    cases n
    rfl

end Mender.Edit
