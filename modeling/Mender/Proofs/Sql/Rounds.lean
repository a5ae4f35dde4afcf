import Mender.Codemod.Sql
import Mender.Proofs.Edit.Steps
import Mender.Proofs.Sql.Extents
import Mender.Proofs.Syntax.Inside

/-!
# Mending one query after the other

A query with something to mend takes a round of three passes: its leaves and its call are replaced, empty texts are
dropped, texts are joined. What is replaced is known by the marks of the module that was read, and a pass leaves no
marks, so all rounds but the first one look for nodes that are not there any more.

* `Task.exists_rounds` — mending queries is running the passes of these rounds and noting one change for each.
-/

namespace Mender.Codemod

open Syntax Scope Edit Sql List Pass

/-- What is done for one query. -/
structure Round where
  call : Node
  query : List Leaf
  work : Rework
  /-- the pieces of each SQL literal that is cut out -/
  contents : List (List Node)

namespace Round

def source (r : Round) : Node × List Leaf := (r.call, r.query)

/-- The argument with the parameters. -/
def argument (f : Facts) (r : Round) : Node := parameterArg (r.contents.map (parameter f))

/-- All that is replaced: the leaves, and the call with its new argument. -/
def replacements (f : Facts) (r : Round) : Rework :=
  r.work ++ [(r.call.mark.getD 0, .changed [.append .args [r.argument f]])]

/-- The passes of one round. -/
def passes (f : Facts) (r : Round) : List (Pass Unit) := [replacing (r.replacements f), emptyTexts, textParts]

end Round

/-! ## What is replaced -/

def IsNewText (n : Node) : Prop := n.mark = none ∧ (n.kind = .simpleString ∨ n.kind = .formattedStringText)

def OnLeaves (query : List Leaf) (w : Rework) : Prop :=
  ∀ m r, (m, r) ∈ w → (∃ l ∈ query, l.node.mark = some m) ∧ (r = .whole .drop ∨ ∃ n, r = .whole (.keep n) ∧ IsNewText n)

namespace OnLeaves

variable {query : List Leaf} {w w' : Rework} {l : Leaf}

lemma append {m : Nat} {r : Replacement} (h : OnLeaves query w) (hl : l ∈ query) (hm : l.node.mark = some m)
    (hr : r = .whole .drop ∨ ∃ n, r = .whole (.keep n) ∧ IsNewText n) : OnLeaves query (w ++ [(m, r)]) := by
  intro m' r' hmem
  rcases mem_append.1 hmem with hmem | hmem
  · exact h m' r' hmem
  · cases mem_singleton.1 hmem
    exact ⟨⟨l, hl, hm⟩, hr⟩

lemma takeOut (h : OnLeaves query w) (hl : l ∈ query) : OnLeaves query (w.takeOut l) := by
  rw [Rework.takeOut]
  split
  case h_1 m hm =>
    refine h.append hl hm ?_
    split
    · exact .inl rfl
    · exact .inr ⟨emptyText, rfl, rfl, .inl rfl⟩
  case h_2 => exact h

lemma isNewText_cutText {n new : Node} {mark : String} {kept extra : List Char}
    (h : (cutText n mark kept extra).1 = some new) : IsNewText new := by
  rw [cutText] at h
  split at h
  case h_1 hkind =>
    cases h
    exact ⟨rfl, .inl hkind⟩
  case h_2 hkind =>
    cases h
    exact ⟨rfl, .inr hkind⟩
  case h_3 => cases h

variable (h : OnLeaves query w)
include h

lemma put {new : Option Node} (hl : l ∈ query) (hnew : ∀ n, new = some n → IsNewText n) :
    OnLeaves query (w.put l new) := by
  unfold Rework.put
  split
  case h_1 m n hm => exact h.append hl hm (.inr ⟨n, rfl, hnew n rfl⟩)
  case h_2 => exact h

lemma cutLeaf {f : Facts} {cut : Cut} {extra : Option Node} (hl : l ∈ query)
    (hok : cutLeaf f cut w l = .ok (w', extra)) : OnLeaves query w' := by
  rw [Codemod.cutLeaf] at hok
  dsimp only at hok
  split at hok
  case h_1 => cases hok
  case h_2 =>
    cases hok
    exact h.put hl fun n hn => isNewText_cutText hn

lemma fixInjection {f : Facts} {i : Injection} {first last : Option Node}
    (hstart : i.start ∈ query) (hmiddle : ∀ l ∈ i.middle, l ∈ query) (hstop : i.stop ∈ query)
    (hok : fixInjection f w i = .ok (w', first, last)) : OnLeaves query w' := by
  have htaken : OnLeaves query (i.middle.foldl Rework.takeOut w) :=
    foldlRecOn _ _ h fun w hw l hl => hw.takeOut (hmiddle l hl)
  obtain ⟨⟨w₁, _⟩, hw₁, hok⟩ := of_bind hok
  obtain ⟨⟨w₂, _⟩, hw₂, hok⟩ := of_bind hok
  cases hok
  exact (htaken.cutLeaf hstart hw₁).cutLeaf hstop hw₂

lemma fixInjections {f : Facts} {is : List Injection} {contents : List (List Node)}
    (his : ∀ i ∈ is, i ∈ injections query) (hok : fixInjections f w is = .ok (w', contents)) : OnLeaves query w' := by
  induction is generalizing w contents with
  | nil =>
    cases hok
    exact h
  | cons i is ih =>
    obtain ⟨⟨w₁, _, _⟩, hw₁, hok⟩ := of_bind hok
    obtain ⟨⟨w₂, _⟩, hw₂, hok⟩ := of_bind hok
    cases hok
    obtain ⟨hstart, hmiddle, hstop⟩ := mem_of_mem_injections (his i (.head _))
    exact ih (h.fixInjection hstart hmiddle hstop hw₁) (forall_mem_cons.1 his).2 hw₂

end OnLeaves

lemma length_fixInjections {f : Facts} {w w' : Rework} {is : List Injection} {contents : List (List Node)}
    (h : fixInjections f w is = .ok (w', contents)) : contents.length = is.length := by
  induction is generalizing w contents with
  | nil =>
    cases h
    rfl
  | cons i is ih =>
    obtain ⟨⟨w₁, _, _⟩, -, h⟩ := of_bind h
    obtain ⟨⟨w₂, _⟩, hw₂, h⟩ := of_bind h
    cases h
    rw [length_cons, length_cons, ih hw₂]

namespace Task

variable {t : Task} {call module out : Node} {query : List Leaf} {qs rest : List (Node × List Leaf)}
  {notes notes' : Notes} {rs : List Round} {r : Round}

/-! ## The rounds -/

/-- The rounds that a list of queries takes. The first call on a line that is to be left alone ends them. -/
def rounds (t : Task) : List (Node × List Leaf) → Except Fault (List Round)
  | [] => return []
  | (call, query) :: rest => do
    if ! (← t.allows call) then return []
    let (work, contents) ← fixInjections t.facts [] (injections query)
    let more ← t.rounds rest
    return if contents.isEmpty then more else ⟨call, query, work, contents⟩ :: more

/-- The change that is noted for a query. -/
def change? (t : Task) (q : Node × List Leaf) : Option Change := (t.facts.line q.1).toOption.map (Change.at · t.changeText)

/-- The passes of all rounds. -/
def passes (t : Task) (rs : List Round) : List (Pass Unit) := rs.flatMap (Round.passes t.facts)

lemma exists_rounds (h : (t.fixQueries qs module).run notes = .ok (out, notes')) :
    ∃ rs, t.rounds qs = .ok rs ∧ became (t.passes rs) module = some out ∧
      notes'.changes.map some = notes.changes.map some ++ rs.map fun r => t.change? r.source := by
  induction qs generalizing module notes with
  | nil =>
    cases h
    exact ⟨[], rfl, rfl, by simp⟩
  | cons q qs ih =>
    obtain ⟨call, query⟩ := q
    rw [fixQueries] at h
    obtain ⟨allowed, hallowed, h⟩ := of_lift_bind h
    cases allowed with
    | false =>
      cases h
      refine ⟨[], ?_, rfl, by simp⟩
      rw [rounds, hallowed]
      rfl
    | true =>
      obtain ⟨⟨work, contents⟩, hwork, h⟩ := of_lift_bind h
      cases contents with
      | nil =>
        obtain ⟨rs, hrs, hout, hchanges⟩ := ih h
        refine ⟨rs, ?_, hout, hchanges⟩
        rw [rounds, hallowed, hwork, hrs]
        rfl
      | cons content contents =>
        obtain ⟨m₁, hm₁, h⟩ := of_lift_bind h
        obtain ⟨_, notes₁, hreport, h⟩ := of_run_bind h
        obtain ⟨line, hline, hreport⟩ := of_lift_bind hreport
        cases hreport
        obtain ⟨m₂, hm₂, h⟩ := of_lift_bind h
        obtain ⟨m₃, hm₃, h⟩ := of_lift_bind h
        obtain ⟨rs, hrs, hout, hchanges⟩ := ih h
        refine ⟨⟨call, query, work, content :: contents⟩ :: rs, ?_, ?_, ?_⟩
        · rw [rounds, hallowed, hwork, hrs]
          rfl
        · have h₁ : (replacing (Round.replacements t.facts ⟨call, query, work, content :: contents⟩)).image? module =
              some m₁ := image?_of_apply hm₁
          rw [passes, flatMap_cons, became_append, Round.passes, became_cons, h₁, Option.bind_some, became_cons,
            image?_of_apply hm₂, Option.bind_some, became_cons, image?_of_apply hm₃, Option.bind_some, became_nil]
          exact hout
        · rw [hchanges, map_append, append_assoc]
          simp only [map_cons, change?, Round.source, hline]
          rfl

lemma exists_rounds_of_parameterizeQueries (hqs : queries t.facts = .ok qs) (h : t.parameterizeQueries = .ok (out, notes)) :
    ∃ rs, t.rounds qs = .ok rs ∧ became (t.passes rs) t.module = some out ∧
      notes.changes.map some = rs.map fun r => t.change? r.source := by
  rw [parameterizeQueries, withScopes] at h
  split at h
  case h_1 => cases h
  case h_2 =>
    rw [hqs] at h
    exact exists_rounds h

/-! ## The queries that have rounds -/

/-- May the call of a query be changed? -/
def allowsCall (t : Task) (q : Node × List Leaf) : Bool := (t.allows q.1).toOption.getD false

variable (t qs)

/-- The queries that may be changed and have something to mend. -/
def due : List (Node × List Leaf) := qs.filter fun q => t.allowsCall q && ! (injections q.2).isEmpty

/-- The due queries before the first call that is left alone. -/
def reached : List (Node × List Leaf) := t.due (qs.takeWhile t.allowsCall)

lemma reached_sublist : (t.reached qs).Sublist qs := filter_sublist.trans (takeWhile_sublist _)

lemma due_eq : t.due qs = t.reached qs ++ t.due (qs.dropWhile t.allowsCall) := by
  rw [reached, due, due, due, ← filter_append, takeWhile_append_dropWhile]

variable {t qs}

lemma allowsCall_of_ok {q : Node × List Leaf} {b : Bool} (h : t.allows q.1 = .ok b) : t.allowsCall q = b := by
  rw [allowsCall, h]
  rfl

lemma rounds_cons (h : t.rounds ((call, query) :: rest) = .ok rs) : (t.allowsCall (call, query) = false ∧ rs = []) ∨
    ∃ work contents more, t.allowsCall (call, query) = true ∧
      fixInjections t.facts [] (injections query) = .ok (work, contents) ∧ t.rounds rest = .ok more ∧
      rs = if contents.isEmpty then more else ⟨call, query, work, contents⟩ :: more := by
  rw [rounds] at h
  obtain ⟨allowed, hallowed, h⟩ := of_bind h
  have hcall : t.allowsCall (call, query) = allowed := allowsCall_of_ok hallowed
  cases allowed with
  | false =>
    cases h
    exact .inl ⟨hcall, rfl⟩
  | true =>
    obtain ⟨⟨work, contents⟩, hwork, h⟩ := of_bind h
    obtain ⟨more, hmore, h⟩ := of_bind h
    cases h
    exact .inr ⟨work, contents, more, hcall, hwork, hmore, rfl⟩

variable (h : t.rounds qs = .ok rs)
include h

lemma map_source_rounds : rs.map Round.source = t.reached qs := by
  induction qs generalizing rs with
  | nil =>
    cases h
    rfl
  | cons q qs ih =>
    obtain ⟨call, query⟩ := q
    rcases rounds_cons h with ⟨hcall, rfl⟩ | ⟨work, contents, more, hcall, hwork, hmore, rfl⟩
    · rw [reached, takeWhile_cons, hcall]
      rfl
    · have hempty : (injections query).isEmpty = contents.isEmpty := by
        rw [Bool.eq_iff_iff, isEmpty_iff_length_eq_zero, isEmpty_iff_length_eq_zero, length_fixInjections hwork]
      rw [reached, takeWhile_cons, hcall, if_pos rfl, due, filter_cons, hcall, hempty]
      cases contents.isEmpty with
      | true => exact ih hmore
      | false => exact congrArg _ (ih hmore)

lemma fixInjections_of_mem (hr : r ∈ rs) :
    fixInjections t.facts [] (injections r.query) = .ok (r.work, r.contents) := by
  induction qs generalizing rs with
  | nil =>
    cases h
    cases hr
  | cons q qs ih =>
    obtain ⟨call, query⟩ := q
    rcases rounds_cons h with ⟨-, rfl⟩ | ⟨work, contents, more, -, hwork, hmore, rfl⟩
    · cases hr
    · split at hr
      · exact ih hmore hr
      · rcases mem_cons.1 hr with rfl | hr
        · exact hwork
        · exact ih hmore hr

lemma onLeaves_of_mem (hr : r ∈ rs) : OnLeaves r.query r.work :=
  OnLeaves.fixInjections (fun _ _ hmem => absurd hmem not_mem_nil) (fun _ hi => hi) (fixInjections_of_mem h hr)

lemma gentle_passes {p : Pass Unit} (hp : p ∈ t.passes rs) : Gentle p := by
  obtain ⟨r, hr, hp⟩ := mem_flatMap.1 hp
  rcases mem_cons.1 hp with rfl | hp
  · refine gentle_replacing fun m ns hmem => ?_
    rcases mem_append.1 hmem with hmem | hmem
    · rcases (onLeaves_of_mem h hr m _ hmem).2 with heq | ⟨n, heq, -⟩ <;> cases heq
    · cases mem_singleton.1 hmem
  · rcases mem_cons.1 hp with rfl | hp
    · exact gentle_emptyTexts
    · cases mem_singleton.1 hp
      exact gentle_textParts

end Task

/-! ## The calls of a module -/

variable {f : Facts} {qs : List (Node × List Leaf)} {q : Node × List Leaf} {n : Node}

lemma eq_of_query? (h : query? f n = .ok (some q)) :
    q.1 = n ∧ n.kind = .call ∧ ∃ a, n.list .args = [a] ∧ leavesOf f (a.get .value) = .ok q.2 := by
  rw [query?] at h
  split at h
  case isTrue => cases h
  case isFalse hcall =>
    have hkind : n.kind = .call := by
      by_contra hne
      exact hcall (by simp [hne])
    split at h
    case h_1 a hargs =>
      obtain ⟨leaves, hleaves, h⟩ := of_bind h
      split at h
      · cases h
        exact ⟨rfl, hkind, a, hargs, hleaves⟩
      · cases h
    case h_2 => cases h

lemma sublist_of_mapM {ns : List Node} {found : List (Option (Node × List Leaf))} (h : ns.mapM (query? f) = .ok found) :
    ((found.filterMap id).map Prod.fst).Sublist ns ∧ ∀ q ∈ found.filterMap id, query? f q.1 = .ok (some q) := by
  induction ns generalizing found with
  | nil =>
    cases h
    exact ⟨.slnil, fun q hq => absurd hq not_mem_nil⟩
  | cons n ns ih =>
    rw [mapM_cons] at h
    obtain ⟨here, hhere, h⟩ := of_bind h
    obtain ⟨more, hmore, h⟩ := of_bind h
    cases h
    obtain ⟨hsub, hmem⟩ := ih hmore
    cases here with
    | none => exact ⟨hsub.cons n, hmem⟩
    | some q =>
      obtain ⟨rfl, -⟩ := eq_of_query? hhere
      refine ⟨hsub.cons_cons q.1, fun q' hq' => ?_⟩
      rcases mem_cons.1 hq' with rfl | hq'
      · exact hhere
      · exact hmem q' hq'

lemma sublist_queries (h : queries f = .ok qs) :
    (qs.map Prod.fst).Sublist f.module.nodesAfter ∧ ∀ q ∈ qs, query? f q.1 = .ok (some q) := by
  obtain ⟨found, hfound, h⟩ := of_bind h
  cases h
  exact sublist_of_mapM hfound

lemma nodup_mark_queries (hfacts : f = .of n.numbered) (h : queries f = .ok qs) : (qs.map fun q => q.1.mark).Nodup := by
  subst hfacts
  have hnodup : (n.numbered.nodesAfter.map Node.mark).Nodup :=
    ((Node.perm_nodesAfter _).map _).nodup_iff.2 (Node.nodup_map_mark_numbered n)
  have hsub := ((sublist_queries h).1.map Node.mark).nodup hnodup
  rwa [map_map] at hsub

end Mender.Codemod
