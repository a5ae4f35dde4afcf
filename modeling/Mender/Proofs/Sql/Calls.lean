import Mender.Proofs.Sql.Rounds

/-!
# Which calls get their parameters

The first round appends the tuple of parameters to its call. Afterwards no node of the module has a mark, so no later
round finds its call: the changes of all rounds are noted, but one call at most gets a tuple.

* `calls_served_iff` — when each call gets its parameters.
-/

namespace Mender.Codemod

open Syntax Edit Sql Pass List Node

/-! ## Tuples of parameters -/

/-- Is it an argument that is a tuple of so many elements? -/
structure IsTupleArg (k : Nat) (n : Node) : Prop where
  kind : n.kind = .arg
  value : (n.get .value).kind = .tuple
  length : ((n.get .value).list .elements).length = k

structure IsNewTuple (k : Nat) (n : Node) : Prop extends IsTupleArg k n where
  mark : n.mark = none
  valueMark : (n.get .value).mark = none
  run : ((n.get .value).get .elements).kind = .seq
  elements : ∀ e ∈ (n.get .value).list .elements, e.kind = .element ∧ e.mark = none

lemma isNewTuple_parameterArg (parameters : List Node) : IsNewTuple parameters.length (parameterArg parameters) where
  kind := rfl
  value := rfl
  length := length_map ..
  mark := rfl
  valueMark := rfl
  run := rfl
  elements e he := by
    obtain ⟨p, -, rfl⟩ := mem_map.1 he
    exact ⟨rfl, rfl⟩

lemma IsNewTuple.image {k : Nat} {p : Pass Unit} {n n' : Node} (h : IsNewTuple k n) (hp : Gentle p)
    (hn' : p.image? n = some n') : IsNewTuple k n' := by
  have hrebuild := rebuild_of_image? hp.goesIn (hp.keepsAt n h.mark (by rw [h.kind]; rfl)) hn'
  obtain ⟨hkind, hmark⟩ := kind_of_rebuild hrebuild
  -- the tuple is in a place that cannot be empty
  have hvalue := (rebuiltTo_of_rebuild hrebuild).partTo (s := .value) (i := 3) (f := .needed)
    (by rw [h.kind]; rfl) (by rw [h.kind]; rfl)
  have himage : p.image? (n.get .value) = some (n'.get .value) := by
    obtain ⟨e, he, hput⟩ := hvalue.of_node (by rw [h.value]; rfl)
    cases e with
    | keep v =>
      cases hput
      exact image?_eq_some.2 he
    | drop => cases hput
    | splice vs => cases hput
  have hrebuild' := rebuild_of_image? hp.goesIn (hp.keepsAt _ h.valueMark (by rw [h.value]; rfl)) himage
  obtain ⟨hkind', hmark'⟩ := kind_of_rebuild hrebuild'
  obtain ⟨hrun, hlist, hediting⟩ := list_of_rebuild (s := .elements) (i := 1) (f := .none) hp.neverSplits hrebuild'
    (by rw [h.value]; rfl) (by rw [h.value]; rfl) rfl h.run
  have hkept : ∀ e ∈ (n.get .value).list .elements, ∃ e', p.image? e = some e' ∧ e'.kind = .element ∧ e'.mark = none := by
    intro e he
    obtain ⟨hkind, hmark⟩ := h.elements e he
    have hkeeps := hp.keepsAt e hmark (by rw [hkind]; rfl)
    obtain ⟨x, hx⟩ := hediting e he
    obtain ⟨e', he'⟩ := exists_image?_of_keepsAt hp.goesIn hkeeps hx
    obtain ⟨hkind', hmark'⟩ := kind_of_rebuild (rebuild_of_image? hp.goesIn hkeeps he')
    exact ⟨e', he', hkind'.trans hkind, hmark'⟩
  refine ⟨⟨hkind.trans h.kind, hkind'.trans h.value, ?_⟩, hmark, hmark', hrun, ?_⟩
  · rw [hlist, filterMap_length_eq_length.2, h.length]
    intro e he
    obtain ⟨e', he', -⟩ := hkept e he
    exact Option.isSome_of_eq_some he'
  · rw [hlist]
    intro e' he'
    obtain ⟨e, he, heq⟩ := mem_filterMap.1 he'
    obtain ⟨e₂, he₂, hnew⟩ := hkept e he
    cases heq.symm.trans he₂
    exact hnew

lemma IsNewTuple.became {k : Nat} {ps : List (Pass Unit)} {n n' : Node} (h : IsNewTuple k n)
    (hps : ∀ p ∈ ps, Gentle p) (hn' : became ps n = some n') : IsNewTuple k n' := by
  induction ps generalizing n with
  | nil =>
    cases hn'
    exact h
  | cons p ps ih =>
    obtain ⟨n₁, hn₁, hn'⟩ := Option.bind_eq_some_iff.1 hn'
    exact ih (h.image (hps p (.head _)) hn₁) (forall_mem_cons.1 hps).2 hn'

/-! ## The first round -/

section

variable {rs : Rework} {call call' argument : Node}

lemma image?_of_append (hrs : (replacing rs).NeverSplits) (hkind : call.kind = .call) (hrun : (call.get .args).kind = .seq)
    (hchanged : replacementOf? rs call = some (.changed [.append .args [argument]]))
    (h : (replacing rs).image? call = some call') :
    call'.kind = .call ∧ call'.mark = none ∧ (call'.get .args).kind = .seq ∧
      call'.list .args = (call.list .args).filterMap (replacing rs).image? ++ [argument] := by
  rw [image?_eq_some, editing_eq (replacing_goesIn rs)] at h
  obtain ⟨new, hnew, h⟩ := of_bind h
  have hi : call.kind.slots.idxOf? .args = some 4 := by rw [hkind]; rfl
  obtain ⟨hkind', -⟩ := Node.kind_of_rebuild hnew
  obtain ⟨hrun', hlist', -⟩ := list_of_rebuild (f := .none) hrs hnew hi (by rw [hkind]; rfl) rfl hrun
  have hhas : new.has .args = true := by rw [Node.has, hkind', hkind]; rfl
  have happend : PlaceChange.apply new (.append .args [argument]) =
      .ok (new.setList .args (new.list .args ++ [argument])) := by
    rw [PlaceChange.apply, PlaceChange.apply.extend, hhas, hrun']
    rfl
  rw [replacing_leaving, hchanged] at h
  simp only [foldlM_cons, foldlM_nil, happend] at h
  obtain ⟨n, hn, h⟩ := of_bind h
  cases hn
  obtain ⟨n, hn, h⟩ := of_bind h
  cases h
  cases Node.eq_of_sound hn
  have hget : (new.setList .args (new.list .args ++ [argument])).get .args = .seq (new.list .args ++ [argument]) :=
    Node.get_set_of_kind_ne (by rw [hrun']; decide) _
  refine ⟨(Node.kind_set ..).trans (hkind'.trans hkind), Node.mark_set .., ?_, ?_⟩
  · rw [hget]
    rfl
  · rw [Node.list, hget, hlist']
    rfl

lemma list_args_of_newText {ps : List (Pass Unit)} {n n' : Node} (hps : ∀ p ∈ ps, Gentle p) (hn : IsNewText n)
    (h : became ps n = some n') : n'.list .args = [] := by
  obtain ⟨hmark, hkind⟩ := hn
  have htextual : isTextual n.kind = false := by
    rcases hkind with hkind | hkind <;> rw [hkind] <;> rfl
  obtain ⟨hkind', -⟩ := Gentle.kind_of_became hps hmark htextual h
  have hget : n'.get .args = .absent := by
    rw [Node.get, hkind']
    rcases hkind with hkind | hkind <;> rw [hkind] <;> rfl
  rw [Node.list, hget]
  rfl

end

/-! ## All rounds -/

section

variable {t : Task} {qs : List (Node × List Leaf)} {rs : List Round} {r : Round} {call call' : Node}

lemma exists_of_became_passes (hrounds : t.rounds qs = .ok (r :: rs)) (h : became (t.passes (r :: rs)) call = some call') :
    ∃ later, t.passes (r :: rs) = replacing (r.replacements t.facts) :: later ∧
      Gentle (replacing (r.replacements t.facts)) ∧ (∀ p ∈ later, Gentle p) ∧
      ∃ call₁, (replacing (r.replacements t.facts)).image? call = some call₁ ∧ became later call₁ = some call' := by
  have hgentle := fun p (hp : p ∈ t.passes (r :: rs)) => Task.gentle_passes hrounds hp
  exact ⟨_, rfl, (forall_mem_cons.1 hgentle).1, (forall_mem_cons.1 hgentle).2, Option.bind_eq_some_iff.1 h⟩

lemma list_args_of_first (hrounds : t.rounds qs = .ok (r :: rs)) (hmark : ∃ m, r.call.mark = some m)
    (hkind : r.call.kind = .call) (hrun : (r.call.get .args).kind = .seq)
    (h : became (t.passes (r :: rs)) r.call = some call') :
    ∃ argument, became (t.passes (r :: rs)).tail (r.argument t.facts) = some argument ∧
      IsTupleArg r.contents.length argument ∧
      call'.list .args = (r.call.list .args).filterMap (became (t.passes (r :: rs))) ++ [argument] := by
  obtain ⟨m, hm⟩ := hmark
  obtain ⟨later, hpasses, hfirst, htail, call₁, hcall₁, h⟩ := exists_of_became_passes hrounds h
  rw [hpasses, tail_cons]
  have hchanged : replacementOf? (r.replacements t.facts) r.call =
      some (.changed [.append .args [r.argument t.facts]]) := by
    rw [Round.replacements, hm, Option.getD_some, replacementOf?_append _ _ _ hm, if_pos rfl]
  obtain ⟨hkind₁, hmark₁, hrun₁, hlist₁⟩ := image?_of_append hfirst.neverSplits hkind hrun hchanged hcall₁
  have htextual : isTextual call₁.kind = false := by rw [hkind₁]; rfl
  have hi : call₁.kind.slots.idxOf? .args = some 4 := by rw [hkind₁]; rfl
  have hf : (call₁.kind.shape.map Prod.snd)[4]? = some .none := by rw [hkind₁]; rfl
  have hmem : r.argument t.facts ∈ call₁.list .args := by
    rw [hlist₁]
    exact mem_append_right _ (mem_singleton_self _)
  have hnew := isNewTuple_parameterArg (r.contents.map (parameter t.facts))
  obtain ⟨hlist, hmembers⟩ := Gentle.list_of_became htail hmark₁ htextual hi hf rfl hrun₁ h
  obtain ⟨argument, hargument⟩ := hmembers _ hmem hnew.mark (by rw [Round.argument, hnew.kind]; rfl)
  refine ⟨argument, hargument, ?_, ?_⟩
  · have htuple := (hnew.became htail hargument).toIsTupleArg
    rwa [length_map] at htuple
  · rw [hlist, hlist₁, filterMap_append, filterMap_filterMap, filterMap_cons, hargument]
    rfl

lemma list_args_of_other (hrounds : t.rounds qs = .ok rs) (hkind : call.kind = .call)
    (hrun : (call.get .args).kind = .seq) (hother : ∀ r, rs.head? = some r → call.mark ≠ some (r.call.mark.getD 0))
    (h : became (t.passes rs) call = some call') :
    call'.list .args = (call.list .args).filterMap (became (t.passes rs)) ∨ call'.list .args = [] := by
  cases rs with
  | nil =>
    cases h
    exact .inl filterMap_some.symm
  | cons r rs =>
    obtain ⟨later, hpasses, hfirst, htail, call₁, hcall₁, h⟩ := exists_of_became_passes hrounds h
    rw [hpasses]
    cases hreplacement : replacementOf? (r.replacements t.facts) call with
    | none =>
      have hrebuild := rebuild_of_image? hfirst.goesIn (replacing_keepsAt hreplacement) hcall₁
      obtain ⟨hkind₁, hmark₁⟩ := kind_of_rebuild hrebuild
      obtain ⟨hrun₁, hlist₁, -⟩ := list_of_rebuild (s := .args) (i := 4) (f := .none) hfirst.neverSplits hrebuild
        (by rw [hkind]; rfl) (by rw [hkind]; rfl) rfl hrun
      rw [hkind] at hkind₁
      left
      rw [(Gentle.list_of_became (s := .args) (i := 4) (f := .none) htail hmark₁ (by rw [hkind₁]; rfl)
        (by rw [hkind₁]; rfl) (by rw [hkind₁]; rfl) rfl hrun₁ h).1, hlist₁, filterMap_filterMap]
      rfl
    | some replacement =>
      obtain ⟨m, hm, hmem⟩ := mem_of_replacementOf? hreplacement
      rcases mem_append.1 hmem with hmem | hmem
      · -- the call is a leaf of the first query
        rcases (Task.onLeaves_of_mem hrounds (.head _) m _ hmem).2 with rfl | ⟨n, rfl, hn⟩
        · cases image?_of_whole hreplacement hcall₁
        · cases image?_of_whole hreplacement hcall₁
          exact .inr (list_args_of_newText htail hn h)
      · cases mem_singleton.1 hmem
        exact absurd hm (hother r rfl)

end

/-! ## The calls of a module -/

/-- Has the call of a query got the tuple of its parameters? Then the call is still there, and behind what became of
its arguments stands what became of the argument with the tuple. -/
def GetsTuple (t : Task) (rs : List Round) (out : Node) (q : Node × List Leaf) : Prop :=
  ∃ call' argument work contents later, Stands (t.passes rs) t.module out q.1 call' ∧
    fixInjections t.facts [] (injections q.2) = .ok (work, contents) ∧ later <:+ t.passes rs ∧
    became later (parameterArg (contents.map (parameter t.facts))) = some argument ∧
    IsTupleArg (injections q.2).length argument ∧
    call'.list .args = (q.1.list .args).filterMap (became (t.passes rs)) ++ [argument]

section

variable {n : Node} {t : Task} {qs : List (Node × List Leaf)} {rs : List Round} {q : Node × List Leaf}

lemma call_of_mem (hfacts : t.facts = .of n.numbered) (hqs : queries t.facts = .ok qs) (hq : q ∈ qs) :
    (∃ m, q.1.mark = some m) ∧ q.1.kind = .call ∧ (q.1.get .args).kind = .seq := by
  obtain ⟨hsub, hquery⟩ := sublist_queries hqs
  have hmem : q.1 ∈ n.numbered.nodesAfter := by
    have := hsub.subset (mem_map_of_mem hq)
    rwa [hfacts] at this
  obtain ⟨-, hkind, a, hargs, -⟩ := eq_of_query? (hquery q hq)
  refine ⟨exists_mark ((perm_nodesAfter _).subset hmem), hkind, ?_⟩
  exact Node.kind_of_mem_items (hargs ▸ mem_cons_self : a ∈ q.1.list .args)

lemma getsTuple_iff (hfacts : t.facts = .of n.numbered) (hqs : queries t.facts = .ok qs)
    (hrounds : t.rounds qs = .ok rs) (out : Node) (hq : q ∈ qs) :
    GetsTuple t rs out q ↔
      (t.reached qs).head? = some q ∧ ∃ call', Stands (t.passes rs) t.module out q.1 call' := by
  have hsources := Task.map_source_rounds hrounds
  obtain ⟨hmark, hkind, hrun⟩ := call_of_mem hfacts hqs hq
  constructor
  · rintro ⟨call', argument, -, -, -, hstands, -, -, -, -, hargs⟩
    refine ⟨?_, call', hstands⟩
    by_contra hnot
    have hother : ∀ r, rs.head? = some r → q.1.mark ≠ some (r.call.mark.getD 0) := by
      intro r hr heq
      have hmem : r.source ∈ qs := (t.reached_sublist qs).subset (hsources ▸ mem_map_of_mem (mem_of_mem_head? hr))
      obtain ⟨⟨m, hm⟩, -, -⟩ := call_of_mem hfacts hqs hmem
      have hm' : r.call.mark = some m := hm
      rw [hm', Option.getD_some, ← hm'] at heq
      have hsame : q = r.source := inj_on_of_nodup_map (nodup_mark_queries hfacts hqs) hq hmem heq
      rw [hsame, ← hsources, head?_map, hr] at hnot
      exact hnot rfl
    rcases list_args_of_other hrounds hkind hrun hother hstands.became_eq with hlist | hlist
    · simp [hlist] at hargs
    · simp [hlist] at hargs
  · rintro ⟨hhead, call', hstands⟩
    cases rs with
    | nil =>
      rw [← hsources] at hhead
      cases hhead
    | cons r rs =>
      rw [← hsources] at hhead
      cases hhead
      obtain ⟨argument, hargument, htuple, hlist⟩ := list_args_of_first hrounds hmark hkind hrun hstands.became_eq
      have hwork := Task.fixInjections_of_mem hrounds (.head _)
      rw [length_fixInjections hwork] at htuple
      exact ⟨call', argument, r.work, r.contents, (t.passes (r :: rs)).tail, hstands, hwork, tail_suffix _,
        hargument, htuple, hlist⟩

end

/-- **Only the first call is served.** A module is read from a text, and mending its queries succeeds. Then a change is
noted for each due query before the first call that is left alone, and of all calls only the first one of these gets the
tuple of its parameters. So the due calls are all served, with one change each, if and only if there is no more than one
of them, it is not behind a call that is left alone, and it is still there in the end. -/
theorem calls_served_iff {source : String} {module : Node} (hread : ofModule? source = some module) {t : Task}
    (hfacts : t.facts = .of module) {qs : List (Node × List Leaf)} (hqs : queries t.facts = .ok qs) {out : Node}
    {notes : Notes} (hrun : t.parameterizeQueries = .ok (out, notes)) :
    ∃ rs, t.rounds qs = .ok rs ∧ notes.changes.map some = (t.reached qs).map t.change? ∧ (∀ q ∈ qs, GetsTuple t rs out q ↔
        (t.reached qs).head? = some q ∧ ∃ call', Stands (t.passes rs) t.module out q.1 call') ∧
      ((∀ q ∈ t.due qs, GetsTuple t rs out q) ∧ notes.changes.map some = (t.due qs).map t.change? ↔
        (t.due qs).length ≤ 1 ∧ t.due (qs.dropWhile t.allowsCall) = [] ∧
          ∀ q ∈ t.due qs, ∃ call', Stands (t.passes rs) t.module out q.1 call') := by
  obtain ⟨n, rfl⟩ := exists_numbered hread
  obtain ⟨rs, hrounds, -, hchanges⟩ := Task.exists_rounds_of_parameterizeQueries hqs hrun
  have hgets := fun q (hq : q ∈ qs) => getsTuple_iff hfacts hqs hrounds out hq
  have hdue : ∀ q ∈ t.due qs, q ∈ qs := fun q hq => mem_of_mem_filter hq
  have hchanges' : notes.changes.map some = (t.reached qs).map t.change? := by
    rw [hchanges, ← Task.map_source_rounds hrounds, map_map]
    rfl
  refine ⟨rs, hrounds, hchanges', hgets, ?_⟩
  constructor
  · rintro ⟨hall, hlist⟩
    have hbehind : t.due (qs.dropWhile t.allowsCall) = [] := by
      have hlength := congrArg length (hchanges'.symm.trans hlist)
      rw [t.due_eq qs, length_map, length_map, length_append] at hlength
      exact length_eq_zero_iff.1 (by omega)
    refine ⟨?_, hbehind, fun q hq => ((hgets q (hdue q hq)).1 (hall q hq)).2⟩
    have hnodup : (t.due qs).Nodup := ((nodup_mark_queries hfacts hqs).of_map _).filter _
    have hhead := fun q (hq : q ∈ t.due qs) => ((hgets q (hdue q hq)).1 (hall q hq)).1
    generalize t.due qs = due at hnodup hhead
    match due with
    | [] => exact Nat.zero_le 1
    | [q] => exact Nat.le_refl 1
    | q :: q' :: rest =>
      -- two due queries would both be the first one
      have hsame := (hhead q (by simp)).symm.trans (hhead q' (by simp))
      cases hsame
      simp at hnodup
  · rintro ⟨hone, hbehind, hstands⟩
    have hreached : t.due qs = t.reached qs := by rw [t.due_eq qs, hbehind, append_nil]
    refine ⟨fun q hq => (hgets q (hdue q hq)).2 ⟨?_, hstands q hq⟩, by rw [hchanges', hreached]⟩
    rw [← hreached]
    generalize t.due qs = due at hq hone
    match due with
    | [q'] => rw [mem_singleton.1 hq, head?_cons]
    | q' :: q'' :: rest =>
      simp only [length_cons] at hone
      omega

/-- Two calls with a query each. -/
def twoCalls : String := "execute(\"select '\" + x + \"'\")\nexecute(\"select '\" + y + \"'\")\n"

def twoCallsTask : Task := { facts := .of ((ofModule? twoCalls).getD .absent) }

def twoCallsQueries : List (Node × List Leaf) := (queries twoCallsTask.facts).toOption.getD []

lemma twoCalls_run : (ofModule? twoCalls).isSome = true ∧ (queries twoCallsTask.facts).isOk = true ∧
    twoCallsTask.parameterizeQueries.isOk = true ∧ (twoCallsTask.due twoCallsQueries).length = 2 ∧
    (twoCallsTask.due (twoCallsQueries.dropWhile twoCallsTask.allowsCall)).length = 0 := by
  decide +kernel

/-- Two changes are noted for it, but not both calls get their tuples. -/
theorem twoCalls_not_served : ∃ out notes rs, twoCallsTask.parameterizeQueries = .ok (out, notes) ∧
      twoCallsTask.rounds twoCallsQueries = .ok rs ∧ (twoCallsTask.due twoCallsQueries).length = 2 ∧
      notes.changes.map some = (twoCallsTask.due twoCallsQueries).map twoCallsTask.change? ∧
      ¬ ∀ q ∈ twoCallsTask.due twoCallsQueries, GetsTuple twoCallsTask rs out q := by
  obtain ⟨hread, hqs, hrun, hlength, hbehind⟩ := twoCalls_run
  obtain ⟨module, hread⟩ := Option.isSome_iff_exists.1 hread
  obtain ⟨qs, hqs⟩ := exists_of_isOk hqs
  obtain ⟨⟨out, notes⟩, hrun⟩ := exists_of_isOk hrun
  have hfacts : twoCallsTask.facts = .of module := by rw [twoCallsTask, hread, Option.getD_some]
  have hqs' : twoCallsQueries = qs := by rw [twoCallsQueries, hqs]; rfl
  rw [← hqs'] at hqs
  obtain ⟨rs, hrounds, hchanges, -, hserved⟩ := calls_served_iff hread hfacts hqs hrun
  have hnoted : notes.changes.map some = (twoCallsTask.due twoCallsQueries).map twoCallsTask.change? := by
    rw [hchanges, twoCallsTask.due_eq, length_eq_zero_iff.1 hbehind, append_nil]
  refine ⟨out, notes, rs, hrun, hrounds, hlength, hnoted, fun hall => ?_⟩
  have hone := (hserved.1 ⟨hall, hnoted⟩).1
  omega

end Mender.Codemod
