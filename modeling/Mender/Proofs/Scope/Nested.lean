import Mender.Proofs.Syntax.Passes
import Mender.Scope.Facts

/-!
# How scopes lie in each other

Scopes are numbered from the outside in: the scope around a scope has a smaller number, and so have the scopes that
`global` and `nonlocal` hand names to. So a name is found after finitely many scopes, and what it means inside a scope
and around it can be compared.

* `Scopes.lookupTo_eq` — more fuel finds no other bindings;
* `Scopes.lookup_eq_parent_iff` — when a name means the same in a scope and around it.
-/

namespace Mender.Scope

open Syntax List Option

variable {quoted : String → Survey → Survey} {fuel : Nat}

namespace Scopes

structure Nested (s : Scopes) : Prop where
  parent : ∀ i, (s.frame i).parent ≤ i - 1
  redirects : ∀ i, 0 < i → ∀ r ∈ (s.frame i).redirects, r.2 < i

end Scopes

namespace Survey

structure Sound (v : Survey) : Prop where
  nested : v.scopes.Nested
  here : v.here < v.scopes.frames.size
  noted : ∀ m i : Nat, v.scopes.scopeOf[m]? = some (some i) → i < v.scopes.frames.size

/-- Can one come from one state of a survey to another? A sound survey stays so, forgets no scope, and ends where it
began. -/
def Leads (v v' : Survey) : Prop := v.Sound → v'.Sound ∧ v.scopes.frames.size ≤ v'.scopes.frames.size ∧ v'.here = v.here

namespace Leads

variable {v v' v'' : Survey}

lemma refl (v : Survey) : Leads v v := fun h => ⟨h, Nat.le_refl _, rfl⟩

lemma trans (h : Leads v v') (h' : Leads v' v'') : Leads v v'' := by
  intro hv
  obtain ⟨hsound, hsize, hhere⟩ := h hv
  obtain ⟨hsound', hsize', hhere'⟩ := h' hsound
  exact ⟨hsound', Nat.le_trans hsize hsize', hhere'.trans hhere⟩

lemma same (hscopes : v'.scopes = v.scopes) (hhere : v'.here = v.here) : Leads v v' := by
  intro hv
  refine ⟨⟨?_, ?_, ?_⟩, ?_, hhere⟩
  · rw [hscopes]
    exact hv.nested
  · rw [hscopes, hhere]
    exact hv.here
  · rw [hscopes]
    exact hv.noted
  · exact Nat.le_of_eq (by rw [hscopes])

variable (h : Leads v v')
include h

lemma setDotted (dotted : List (Option Node)) : Leads v { v' with dotted } := h.trans (.same rfl rfl)

lemma setTypeHint (typeHint : List Bool) : Leads v { v' with typeHint } := h.trans (.same rfl rfl)

lemma setHint (hint : List Bool) : Leads v { v' with hint } := h.trans (.same rfl rfl)

lemma setFault (fault : Option Fault) : Leads v { v' with fault } := h.trans (.same rfl rfl)

lemma setPlain (plain : Nat) : Leads v { v' with plain } := h.trans (.same rfl rfl)

end Leads

def Steps (f : Survey → Survey) : Prop := ∀ v, Leads v (f v)

namespace Steps

variable {f g : Survey → Survey} (name : String)

lemma id : Steps fun v => v := .refl

lemma comp (hg : Steps g) (hf : Steps f) : Steps fun v => g (f v) := fun v => (hf v).trans (hg (f v))

lemma foldl {α : Type} {step : Survey → α → Survey} {as : List α} (h : ∀ a ∈ as, Steps fun v => step v a) :
    Steps fun v => as.foldl step v := by
  induction as with
  | nil => exact id
  | cons a as ih => exact (ih (forall_mem_cons.1 h).2).comp (h a (.head _))

variable {v : Survey} {target scope : Nat}

lemma setScope (n : Node) {scope : Option Nat} (hscope : v.Sound → ∀ i ∈ scope, i < v.scopes.frames.size) :
    Leads v (v.setScope n scope) := by
  intro hv
  simp only [Survey.setScope]
  split
  next m _ =>
    refine ⟨⟨⟨hv.nested.parent, hv.nested.redirects⟩, hv.here, fun m' i h => ?_⟩, Nat.le_refl _, rfl⟩
    rw [Array.getElem?_setIfInBounds] at h
    split at h
    · split at h
      · cases h
        exact hscope hv i rfl
      · cases h
    · exact hv.noted m' i h
  next => exact ⟨hv, Nat.le_refl _, rfl⟩

lemma note (n : Node) : Steps (·.note n) := by
  refine fun v => setScope n fun hv i hi => ?_
  cases hi
  exact hv.here

lemma frame_modify (s : Scopes) (here i : Nat) (h : Frame → Frame) :
    ({ s with frames := s.frames.modify here h } : Scopes).frame i = s.frame i ∨
      i = here ∧ ({ s with frames := s.frames.modify here h } : Scopes).frame i = h (s.frame i) := by
  simp only [Scopes.frame, Array.getD_eq_getD_getElem?, Array.getElem?_modify]
  by_cases heq : here = i
  · subst heq
    cases hget : s.frames[here]? with
    | none => simp
    | some f => simp
  · simp [heq]

lemma modify {h : Frame → Frame} (hparent : ∀ f, (h f).parent = f.parent)
    (hredirects : v.Sound → 0 < v.here → ∀ r ∈ (h (v.scopes.frame v.here)).redirects, r.2 < v.here) :
    Leads v { v with scopes.frames := v.scopes.frames.modify v.here h } := by
  intro hv
  refine ⟨⟨⟨fun i => ?_, fun i hi => ?_⟩, by simpa using hv.here, by simpa using hv.noted⟩, by simp, rfl⟩
  · rcases frame_modify v.scopes v.here i h with h | ⟨-, h⟩
    · exact h ▸ hv.nested.parent i
    · rw [h, hparent]
      exact hv.nested.parent i
  · rcases frame_modify v.scopes v.here i h with h | ⟨rfl, h⟩
    · exact h ▸ hv.nested.redirects i hi
    · exact h ▸ hredirects hv hi

lemma count : Steps Survey.count := fun v => modify (fun _ => rfl) fun hv => hv.nested.redirects v.here

lemma redirect (htarget : 0 < v.here → target < v.here) : Leads v (v.redirect name target) := by
  refine modify (fun _ => rfl) fun hv hhere r hr => ?_
  rcases mem_cons.1 hr with rfl | hr
  · exact htarget hhere
  · exact hv.nested.redirects _ hhere r (mem_filter.1 hr).1

lemma redirectAll (htarget : 0 < v.here → target < v.here) (is : List Node) : Leads v (v.redirectAll is target) := by
  induction is generalizing v with
  | nil => exact .refl v
  | cons i is ih => exact .trans (redirect _ htarget) (ih htarget)

lemma bind (origin : Origin) : Steps (·.bind name origin) :=
  fun _ hv => ⟨⟨⟨hv.nested.parent, hv.nested.redirects⟩, hv.here, hv.noted⟩, Nat.le_refl _, rfl⟩

lemma use (node : Option Nat) : Steps (·.use name node) := fun _ => .same rfl rfl

lemma within (level : Level) (hf : Steps f) : Steps (·.within level f) := by
  intro v hv
  have hinner : Sound { v with
      scopes.frames := v.scopes.frames.push { level := level, parent := v.here }
      here := v.scopes.frames.size } := by
    have hframe (i : Nat) : ({ v.scopes with frames := v.scopes.frames.push { level := level, parent := v.here } } :
        Scopes).frame i = if i = v.scopes.frames.size then { level := level, parent := v.here } else v.scopes.frame i := by
      simp only [Scopes.frame, Array.getD_eq_getD_getElem?, Array.getElem?_push]
      split <;> simp
    refine ⟨⟨fun i => ?_, fun i hi => ?_⟩, by simp, fun m i h => ?_⟩
    · rw [hframe]
      split
      next heq => exact heq ▸ Nat.le_sub_one_of_lt hv.here
      next => exact hv.nested.parent i
    · rw [hframe]
      split
      · simp
      · exact hv.nested.redirects i hi
    · have := hv.noted m i h
      simp
      omega
  obtain ⟨hsound, hsize, -⟩ := hf _ hinner
  have hle : v.scopes.frames.size < ((v.within level f)).scopes.frames.size := by
    rw [Array.size_push] at hsize
    exact hsize
  exact ⟨⟨hsound.nested, Nat.lt_trans hv.here hle, hsound.noted⟩, Nat.le_of_lt hle, rfl⟩

lemma inScope (hf : Steps f) (hscope : v.Sound → scope < v.scopes.frames.size) : Leads v (v.inScope scope f) := by
  intro hv
  obtain ⟨hsound, hsize, -⟩ := hf { v with here := scope } ⟨hv.nested, hscope hv, hv.noted⟩
  exact ⟨⟨hsound.nested, Nat.lt_of_lt_of_le hv.here hsize, hsound.noted⟩, hsize, rfl⟩

end Steps

end Survey

/-! ## Surveys of trees -/

open Survey

/-- Is all that can be done with a part a step of a survey? -/
structure Look.Steady (l : Look) : Prop where
  go : ∀ u, Steps (l.go u)
  inner : ∀ f ∈ l.inner, ∀ u, Steps (f u)

lemma Look.steady_nothing : Look.nothing.Steady := ⟨fun _ => .id, fun _ h => by cases h⟩

lemma Look.Steady.at {l : Look} (h : l.Steady) (s : Slot) (u : Use) : Steps (l.at s u) := by
  unfold Look.at
  intro v
  split
  next go hgo =>
    obtain ⟨i, -, hi⟩ := bind_eq_some_iff.1 hgo
    exact h.inner go (mem_of_getElem? hi) u v
  next => exact .refl v

lemma steps_leave (n : Node) : Steps (leave n) := by
  unfold leave
  intro v
  split
  · exact Steps.count.comp (.note n) v
  · exact Steps.note n v

lemma steps_bindImport (n : Node) : Steps (bindImport n) := .foldl fun _ _ => .foldl fun _ _ => .bind _ _

lemma Look.steps_all {ls : List Look} (h : ∀ l ∈ ls, l.Steady) (u : Use) : Steps (Look.all ls u) :=
  .foldl fun l hl => (h l hl).go u

lemma steps_lookComprehension {loop : Look} {elements : List Look} (hloop : loop.Steady)
    (helements : ∀ e ∈ elements, e.Steady) (u : Use) : Steps (lookComprehension loop elements u) := by
  have hinside : Steps fun v =>
      Look.all elements u (loop.at .innerFor u (loop.at .ifs u (loop.at .target .store v).count)) :=
    (Look.steps_all helements u).comp
      ((hloop.at .innerFor u).comp ((hloop.at .ifs u).comp (Steps.count.comp (hloop.at .target .store))))
  exact (Steps.within .comprehension hinside).comp ((Steps.note loop.node).comp (hloop.at .iter u))

lemma steps_look {at_ : Nat → Option Node} (hquoted : ∀ text, Steps (quoted text)) (n : Node) {parts : List Look}
    (hparts : ∀ l ∈ parts, l.Steady) (u : Use) : Steps (look at_ quoted n parts u) := by
  unfold look
  intro v
  extract_lets part go annotated args given hinted name why
  have hpart (s : Slot) : (part s).Steady := by
    dsimp only [part]
    cases hl : (n.kind.slots.idxOf? s).bind (parts[·]?) with
    | none => exact Look.steady_nothing
    | some l =>
      obtain ⟨i, -, hi⟩ := bind_eq_some_iff.1 hl
      exact hparts l (mem_of_getElem? hi)
  have hgo (s : Slot) (u : Use) : Steps (go s u) := (hpart s).go u
  have horder (u : Use) : Steps (Look.all parts u) := Look.steps_all hparts u
  have hannotated {text : Option String} {v v' : Survey} (h : annotated text v = some v') : Leads v v' := by
    dsimp only [annotated] at h
    split at h
    · obtain ⟨s, -, rfl⟩ := map_eq_some_iff.1 h
      exact hquoted s v
    · cases h
  have hdefined (name node : Node) : Steps fun v => (v.define name node).note name := (Steps.note name).comp (.bind _ _)
  have hargs : ∀ f ∈ args, ∀ u, Steps (f u) := (hpart .args).inner
  have hgiven {fs : List (Use → Survey → Survey)} (hfs : ∀ f ∈ fs, ∀ u, Steps (f u)) : Steps (given fs) :=
    .foldl fun f hf => hfs f hf u
  have hhinted {fs : List (Use → Survey → Survey)} (hfs : ∀ f ∈ fs, ∀ u, Steps (f u)) : Steps (hinted fs) := by
    intro v
    exact .setHint (.trans (.setHint (.refl v) _) (hgiven hfs _)) _
  have hcall (names : List String) : Steps fun v =>
      if names.contains "typing.NewType" || names.contains "typing.TypeVar" then hinted (args.drop 1) (go .func u v)
      else if names.contains "typing.cast" then given (args.drop 1) (hinted (args.take 1) (go .func u v))
      else Look.all parts u v := by
    intro v
    beta_reduce
    split
    · exact (hhinted fun f hf => hargs f (mem_of_mem_drop hf)).comp (hgo .func u) v
    · split
      · exact (hgiven fun f hf => hargs f (mem_of_mem_drop hf)).comp
          ((hhinted fun f hf => hargs f (mem_of_mem_take hf)).comp (hgo .func u)) v
      · exact horder u v
  have hsubscript (b c : Bool) : Leads v (let v := if b then { v with hint := true :: v.hint } else v
      let v := if c then { v with plain := v.plain + 1 } else v
      let v := Look.all parts .load v
      let v := if c then { v with plain := v.plain - 1 } else v
      if b then { v with hint := v.hint.drop 1 } else v) := by
    cases b <;> cases c
    · exact horder .load v
    · exact .setPlain (.trans (.setPlain (.refl v) _) (horder .load _)) _
    · exact .setHint (.trans (.setHint (.refl v) _) (horder .load _)) _
    · exact .setHint (.setPlain (.trans (.setPlain (.setHint (.refl v) _) _) (horder .load _)) _) _
  refine .trans ?_ (steps_leave n _)
  split
  · exact steps_bindImport n v
  · exact steps_bindImport n v
  · split
    · exact .setDotted (.trans (.setDotted (.refl v) _) (hgo .value .load _)) _
    · exact hgo .value .load v
  · exact .setDotted (.trans (.setDotted (.refl v) _) (hcall _ _)) _
  · exact .setTypeHint (.trans (.setTypeHint (.refl v) _) (horder u _)) _
  · exact hsubscript _ _
  · cases h : annotated (Literal.value? n.text) v with
    | none => exact .refl v
    | some v' => exact hannotated h
  · cases h : annotated (Literal.ofNode? n) v with
    | none => exact horder u v
    | some v' => exact hannotated h
  · cases u with
    | store => exact Steps.bind _ _ v
    | load => exact Steps.use _ _ v
  · exact (hgo .value u).comp (hgo .targets .store) v
  · exact (hgo .value u).comp ((hgo .typeHint u).comp (hgo .target .store)) v
  · exact (hgo .value u).comp (hgo .target .store) v
  · exact (hgo .value u).comp (hgo .target .store) v
  · exact hgo .name .store v
  · exact hgo .target .load v
  · exact (hgo .returns .load).comp ((hgo .decorators .load).comp
      ((Steps.within .function ((hgo .body .load).comp (hgo .params .load))).comp (hdefined (n.get .name) n))) v
  · exact Steps.within .function ((hgo .body .load).comp (hgo .params .load)) v
  · refine .trans (hdefined name name v) (Steps.inScope ?_ fun hv => ?_)
    · exact (hgo .typeHint .load).comp (hgo .default .load)
    · exact Nat.lt_of_le_of_lt (hv.nested.parent _) (Nat.lt_of_le_of_lt (Nat.sub_le _ _) hv.here)
  · exact hgo .value u v
  · have hbody : Steps (·.setScope (n.get .body) none) := fun v => Steps.setScope _ fun _ i hi => by cases hi
    exact (Steps.within .classBody (hbody.comp (hgo .body .load))).comp
      ((hgo .keywords .load).comp ((hgo .bases .load).comp ((hgo .decorators .load).comp (hdefined (n.get .name) n)))) v
  · split
    · exact .refl v
    next hhere =>
      refine Steps.redirectAll (fun hpos => ?_) _
      rw [Scopes.moduleScope, beq_iff_eq] at hhere
      rw [Scopes.moduleScope]
      omega
  · split
    · exact .setFault (.refl v) _
    · intro hv
      exact Steps.redirectAll (fun hpos => Nat.lt_of_le_of_lt (hv.nested.parent _) (Nat.sub_lt hpos Nat.one_pos)) _ hv
  · exact (hgo .orelse u).comp ((hgo .body u).comp ((hgo .iter u).comp (Steps.count.comp (hgo .target .store)))) v
  iterate 3
    exact steps_lookComprehension (hpart .forIn) (by simpa using hpart .elt) u v
  · exact steps_lookComprehension (hpart .forIn) (by simpa using ⟨hpart .key, hpart .value⟩) u v
  · exact (hgo .innerFor u).comp ((hgo .ifs u).comp ((hgo .iter u).comp (hgo .target .store))) v
  · exact horder u v

section

variable (at_ : Nat → Option Node)

mutual

theorem steady_survey (hquoted : ∀ text, Steps (quoted text)) : ∀ n, (survey at_ quoted n).Steady
  | .mk k t ps m => by
    have hparts := steady_surveys hquoted ps
    refine ⟨fun u => ?_, fun f hf u => ?_⟩
    · rw [survey]
      dsimp only
      split
      · exact Look.steps_all hparts u
      · split
        · exact .id
        · exact steps_look hquoted _ hparts u
    · obtain ⟨l, hl, rfl⟩ := mem_map.1 hf
      exact (hparts l hl).go u

theorem steady_surveys (hquoted : ∀ text, Steps (quoted text)) : ∀ ps, ∀ l ∈ surveys at_ quoted ps, l.Steady
  | [] => fun l hl => by
    cases hl
  | p :: ps => fun l hl => by
    rcases mem_cons.1 hl with rfl | hl
    · exact steady_survey hquoted p
    · exact steady_surveys hquoted ps l hl

end

lemma steps_surveyText (fuel : Nat) (text : String) : Steps (surveyText at_ fuel text) := by
  induction fuel generalizing text with
  | zero => exact .id
  | succ fuel ih =>
    intro v
    rw [surveyText]
    split
    · exact (steady_survey at_ ih _).go .load v
    · exact .refl v

end

lemma sound_start (size : Nat) : Sound { scopes := {
    frames := #[{ level := .builtin, parent := 0 }, { level := .module, parent := 0 }]
    bindings := #[]
    scopeOf := Array.replicate size none } } := by
  refine ⟨⟨fun i => ?_, fun i _ r hr => ?_⟩, Nat.one_lt_two, fun m i h => ?_⟩
  · rcases i with _ | _ | i <;> exact Nat.zero_le _
  · rcases i with _ | _ | i <;> cases hr
  · rw [Array.getElem?_replicate] at h
    split at h <;> cases h

/-- **The scopes of a module lie in each other**, and every scope that a node is said to be in is one of them. -/
theorem nested_ofModule {module : Node} {s : Scopes} (h : Scopes.ofModule module = .ok s) :
    s.Nested ∧ ∀ m i : Nat, s.scopeOf[m]? = some (some i) → i < s.frames.size := by
  have hsound (at_ : Nat → Option Node) (fuel : Nat) := ((steady_survey at_ (steps_surveyText at_ fuel) module).go .load _
    (sound_start module.nodes.toArray.size)).1
  rw [Scopes.ofModule] at h
  split at h
  · cases h
  · cases h
    exact ⟨⟨(hsound _ _).nested.parent, (hsound _ _).nested.redirects⟩, (hsound _ _).noted⟩

/-! ## What names mean -/

namespace Scopes

variable {s : Scopes} {b : Binding} {scope target scope' fuel' : Nat} {name : String} {inside : Bool}

/-- What a name means from further inside a scope. -/
def lookupInside (s : Scopes) (scope : Nat) (name : String) : List Binding :=
  s.lookupTo (2 * s.frames.size + 2) scope name true

/-- The scope that a name is handed to, by `global` or `nonlocal`. -/
def handed? (s : Scopes) (scope : Nat) (name : String) : Option Nat :=
  ((s.frame scope).redirects.find? (·.1 == name)).map (·.2)

lemma handed?_lt (h : s.Nested) (hscope : 0 < scope) (ht : s.handed? scope name = some target) : target < scope := by
  obtain ⟨r, hr, rfl⟩ := map_eq_some_iff.1 ht
  exact h.redirects scope hscope r (mem_of_find?_eq_some hr)

lemma lookupTo_succ (fuel : Nat) (hscope : 0 < scope) (inside : Bool) : s.lookupTo (fuel + 1) scope name inside =
      if (s.frame scope).level = .classBody ∧ inside = true then s.lookupTo fuel (s.frame scope).parent name true
      else match s.handed? scope name with
        | some target => s.lookupTo fuel target name true
        | none => if s.bound scope name = [] then s.lookupTo fuel (s.frame scope).parent name true
          else s.bound scope name := by
  rw [lookupTo, if_neg (by simpa [builtinScope] using Nat.ne_of_gt hscope)]
  simp only [Bool.and_eq_true, beq_iff_eq]
  split
  · rfl
  · rw [handed?]
    cases (s.frame scope).redirects.find? (·.1 == name) with
    | some r => rfl
    | none =>
      simp only [map_none]
      split
      next h => rw [if_pos h]
      next h => rw [if_neg h]

lemma lookupTo_eq (h : s.Nested) (hfuel : scope < fuel) (hfuel' : scope < fuel') (inside : Bool) :
    s.lookupTo fuel scope name inside = s.lookupTo fuel' scope name inside := by
  induction scope using Nat.strongRecOn generalizing fuel fuel' inside with
  | ind scope ih =>
    obtain ⟨fuel, rfl⟩ := Nat.exists_eq_succ_of_ne_zero (Nat.ne_zero_of_lt hfuel)
    obtain ⟨fuel', rfl⟩ := Nat.exists_eq_succ_of_ne_zero (Nat.ne_zero_of_lt hfuel')
    rcases Nat.eq_zero_or_pos scope with rfl | hpos
    · rfl
    · have hparent := h.parent scope
      have hup (target : Nat) (htarget : target < scope) :
          s.lookupTo fuel target name true = s.lookupTo fuel' target name true :=
        ih target htarget (by omega) (by omega) true
      rw [lookupTo_succ fuel hpos, lookupTo_succ fuel' hpos, hup (s.frame scope).parent (by omega)]
      split
      · rfl
      · split
        next target ht => exact hup target (handed?_lt h hpos ht)
        next => rfl

lemma of_mem_bound (h : b ∈ s.bound scope name) : b.scope = scope ∧ b.name = name := by
  rw [bound, Array.mem_toList_iff, Array.mem_filter] at h
  simpa using h.2

lemma name_of_mem_lookupTo (h : b ∈ s.lookupTo fuel scope name inside) : b.name = name := by
  fun_induction lookupTo s fuel scope name inside with
  | case1 | case3 => cases h
  | case2 => rw [mem_singleton.1 h]
  | case4 _ _ _ _ _ _ _ ih | case5 _ _ _ _ _ _ _ _ _ _ ih | case6 _ _ _ _ _ _ _ _ _ ih => exact ih h
  | case7 => exact (of_mem_bound h).2

/-- What an access may mean goes by the name of the access. -/
lemma name_of_mem_referents {a : Access} (h : b ∈ s.referents a) : b.name = a.name := by
  rw [referents] at h
  split at h
  · exact name_of_mem_lookupTo h
  · exact name_of_mem_lookupTo (mem_filter.1 h).1

lemma scope_le_of_mem_lookupTo (h : s.Nested) (hb : b ∈ s.lookupTo fuel scope name inside) : b.scope ≤ scope := by
  fun_induction lookupTo s fuel scope name inside with
  | case1 | case3 => cases hb
  | case2 =>
    rw [mem_singleton.1 hb]
    exact Nat.zero_le _
  | case4 _ scope _ _ _ _ _ ih | case6 _ scope _ _ _ _ _ _ _ ih =>
    exact Nat.le_trans (ih hb) (Nat.le_trans (h.parent scope) (Nat.sub_le ..))
  | case5 _ scope _ _ hscope _ _ _ _ hfind ih =>
    have hpos : 0 < scope := Nat.pos_of_ne_zero (by simpa [builtinScope] using hscope)
    exact Nat.le_trans (ih hb) (Nat.le_of_lt (h.redirects scope hpos _ (mem_of_find?_eq_some hfind)))
  | case7 => exact Nat.le_of_eq (of_mem_bound hb).1

lemma bound_ne_lookupTo (h : s.Nested) (hlt : scope' < scope)
    (hbound : s.bound scope name ≠ []) : s.bound scope name ≠ s.lookupTo fuel scope' name inside := by
  intro heq
  obtain ⟨b, hb⟩ := exists_mem_of_ne_nil _ hbound
  have hle := scope_le_of_mem_lookupTo h (heq ▸ hb)
  rw [(of_mem_bound hb).1] at hle
  omega

/-- A name means the same in a scope and seen from inside it, unless the scope is a class body that binds it. -/
lemma lookupInside_eq_lookup_iff (h : s.Nested) (hhanded : s.handed? scope name = none) :
    s.lookupInside scope name = s.lookup scope name ↔
      (scope ≠ builtinScope → (s.frame scope).level = .classBody → s.bound scope name = []) := by
  rcases Nat.eq_zero_or_pos scope with rfl | hpos
  · exact ⟨fun _ h => absurd rfl h, fun _ => rfl⟩
  · have hparent := h.parent scope
    rw [lookupInside, lookup, lookupTo_succ _ hpos, lookupTo_succ _ hpos, hhanded]
    by_cases hlevel : (s.frame scope).level = .classBody
    · rw [if_pos ⟨hlevel, rfl⟩, if_neg (by simp)]
      dsimp only
      split
      next hnone => simp [hnone]
      next hsome =>
        refine iff_of_false (fun heq => bound_ne_lookupTo h (by omega) hsome heq.symm) fun hall => hsome ?_
        exact hall (Nat.ne_of_gt hpos) hlevel
    · simp [hlevel]

/-- A name that a scope hands to another one means what it means inside there. -/
lemma lookupTo_handed (h : s.Nested) (hscope : 0 < scope) (hsize : scope < s.frames.size)
    (ht : s.handed? scope name = some target) (hlevel : ¬ ((s.frame scope).level = .classBody ∧ inside = true)) :
    s.lookupTo (2 * s.frames.size + 2) scope name inside = s.lookupInside target name := by
  have hlt := handed?_lt h hscope ht
  rw [lookupTo_succ _ hscope, if_neg hlevel, ht]
  exact lookupTo_eq h (by omega) (by omega) true

/-- A name that a class body hands to another scope may mean something else inside the class body. -/
lemma lookupInside_eq_lookup_handed_iff (h : s.Nested) (hsize : scope < s.frames.size)
    (ht : s.handed? scope name = some target) : s.lookupInside scope name = s.lookup scope name ↔
      (scope ≠ builtinScope → (s.frame scope).level = .classBody →
        s.lookupInside (s.frame scope).parent name = s.lookupInside target name) := by
  rcases Nat.eq_zero_or_pos scope with rfl | hpos
  · exact ⟨fun _ h => absurd rfl h, fun _ => rfl⟩
  · have hparent := h.parent scope
    rw [lookup, lookupTo_handed h hpos hsize ht (by simp)]
    by_cases hlevel : (s.frame scope).level = .classBody
    · have hinside : s.lookupInside scope name = s.lookupInside (s.frame scope).parent name := by
        rw [lookupInside, lookupTo_succ _ hpos, if_pos ⟨hlevel, rfl⟩]
        exact lookupTo_eq h (by omega) (by omega) true
      simp [hinside, hlevel, Nat.ne_of_gt hpos, builtinScope]
    · have hinside : s.lookupInside scope name = s.lookupInside target name :=
        lookupTo_handed h hpos hsize ht (by simp [hlevel])
      simp [hinside, hlevel]

/-- **When a name means the same in a scope and around it**, if the scope does not hand it to another one: just if the
scope does not bind it, and the scope around is no class body that binds it, or that hands it to a scope where it means
something else than around the class. Seen from further inside, a class body does not count. -/
theorem lookup_eq_parent_iff (h : s.Nested) (hscope : 0 < scope) (hsize : scope < s.frames.size)
    (hhanded : s.handed? scope name = none) :
    (s.handed? (s.frame scope).parent name = none → (s.lookup scope name = s.lookup (s.frame scope).parent name ↔
      s.bound scope name = [] ∧
        ((s.frame scope).parent ≠ builtinScope → (s.frame (s.frame scope).parent).level = .classBody →
          s.bound (s.frame scope).parent name = []))) ∧
    (∀ target, s.handed? (s.frame scope).parent name = some target →
      (s.lookup scope name = s.lookup (s.frame scope).parent name ↔ s.bound scope name = [] ∧
        ((s.frame scope).parent ≠ builtinScope → (s.frame (s.frame scope).parent).level = .classBody →
          s.lookupInside (s.frame (s.frame scope).parent).parent name = s.lookupInside target name))) ∧
    ((s.frame scope).level ≠ .classBody →
      (s.lookupInside scope name = s.lookupInside (s.frame scope).parent name ↔ s.bound scope name = [])) := by
  have hparent := h.parent scope
  have hlookup (inside : Bool) (hlevel : ¬ ((s.frame scope).level = .classBody ∧ inside = true)) :
      s.lookupTo (2 * s.frames.size + 2) scope name inside =
        if s.bound scope name = [] then s.lookupInside (s.frame scope).parent name else s.bound scope name := by
    rw [lookupTo_succ _ hscope, if_neg hlevel, hhanded]
    have hfuel : (s.frame scope).parent < 2 * s.frames.size + 2 := by omega
    rw [lookupInside, lookupTo_eq h (by omega) hfuel]
  have haround {around : Prop}
      (hiff : s.lookupInside (s.frame scope).parent name = s.lookup (s.frame scope).parent name ↔ around) :
      s.lookup scope name = s.lookup (s.frame scope).parent name ↔ s.bound scope name = [] ∧ around := by
    rw [lookup, hlookup false (by simp)]
    split
    next hnone =>
      rw [hiff]
      simp [hnone]
    next hsome => exact iff_of_false (bound_ne_lookupTo h (by omega) hsome) fun hboth => hsome hboth.1
  refine ⟨fun houter => haround (lookupInside_eq_lookup_iff h houter), fun target houter => ?_, fun hlevel => ?_⟩
  · exact haround (lookupInside_eq_lookup_handed_iff h (by omega) houter)
  · rw [lookupInside, hlookup true (by simpa using hlevel)]
    split
    next hnone => simp [hnone]
    next hsome => exact iff_of_false (bound_ne_lookupTo h (by omega) hsome) hsome

end Scopes

end Mender.Scope
