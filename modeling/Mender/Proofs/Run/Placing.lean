import Mender.Proofs.Project.Stores
import Mender.Proofs.Run.Phases

/-!
# Where packages are placed

A call of `placeDependencies` offers the packages of a codemod to one store after the other until one answers
with a change or a fault. A store passes the offer on in two cases that the call cannot tell apart: it has no
place for packages, or it lists all of them. So a package can be added to a store although another one lists it.

* `onePlace_iff` — when each package is added to one store.
-/

namespace Mender.Run

open Project List Option

variable {setting : Setting} {s : Session} {id : String} {ss ss' sl sk : List Store} {store e' e store' : Store}
  {calls : List (Session × String)} {c c' : Session × String} {i k l j : Nat} {d d' : Dependency}

/-! ## One call -/

def answered (s : Session) (before : List Store) (o : Outcome) (rest : List Store) : Session :=
  { s with files := o.files, stores := some (before ++ o.store :: rest), log := s.log ++ o.log }

lemma placeIn_cons (ds : List Dependency) (before : List Store) (rest : List Store) :
    (placeIn setting id ds before (store :: rest)).on s = let o := write s.files setting.dir store ds setting.isTrial
      let s' := answered s before o rest
      match o.result with
      | .error f => (.error f, s')
      | .ok (some c) => (.ok (some store.file), { s' with record := s'.record.addResults id [c] })
      | .ok none => (placeIn setting id ds (before ++ [o.store]) rest).on s' := by
  rw [placeIn, on_bind_of_ok (on_get s)]
  dsimp only
  cases (write s.files setting.dir store ds setting.isTrial).result with
  | error f => rfl
  | ok c => cases c <;> rfl

/-- The stores after an offer, given what each of them answers: those behind the first that does not pass the
offer on are not asked. -/
def offered (answer : Store → Outcome) : List Store → List Store
  | [] => []
  | store :: rest =>
    match (answer store).result with
    | .ok none => (answer store).store :: offered answer rest
    | _ => (answer store).store :: rest

lemma stores_placeIn (setting : Setting) (id : String) {ds : List Dependency} (before rest : List Store)
    (h : s.stores = some (before ++ rest)) :
    ((placeIn setting id ds before rest).on s).2.stores =
      some (before ++ offered (fun e => write s.files setting.dir e ds setting.isTrial) rest) := by
  induction rest generalizing before s with
  | nil => exact h
  | cons store rest ih =>
    rw [placeIn_cons, offered]
    dsimp only
    split <;> rename_i hresult
    · rw [hresult]
      rfl
    · rw [hresult]
      rfl
    · rw [hresult]
      have hfiles : (answered s before (write s.files setting.dir store ds setting.isTrial) rest).files =
          s.files := files_of_none hresult
      rw [ih _ (by simp [answered]), hfiles]
      simp

/-- What a store answers when it is asked to take the packages of a codemod. -/
def answer (setting : Setting) (s : Session) (id : String) (store : Store) : Outcome :=
  write s.files setting.dir store (s.record.dependencies.get id) setting.isTrial

lemma offered_of_nothing {answer : Store → Outcome} (h : ∀ e, (answer e).result = .ok none ∧ (answer e).store = e) :
    offered answer ss = ss := by
  induction ss with
  | nil => rfl
  | cons e ss ih => rw [offered, (h e).1, (h e).2, ih]

lemma write_nil (fs : Files) (dir : String) (e : Store) (isTrial : Bool) :
    (write fs dir e [] isTrial).result = .ok none ∧ (write fs dir e [] isTrial).store = e := by
  by_cases hkind : e.kind = .config
  · rw [write_of_config hkind]
    exact ⟨rfl, rfl⟩
  · rw [write_of_nothing hkind rfl]
    exact ⟨rfl, rfl⟩

lemma readStores_of_some (h : s.stores = some ss) : (readStores setting).on s = (.ok ss, s) := by
  rw [readStores, on_bind_of_ok (on_get s), h]
  rfl

lemma session_placeDependencies (h : s.stores = some ss) (hds : s.record.dependencies.get id ≠ []) : ∃ log,
      ((placeDependencies setting id).on s).2 =
        { ((placeIn setting id (s.record.dependencies.get id) [] ss).on s).2 with log } := by
  rw [placeDependencies, on_bind_of_ok (on_get s)]
  rw [if_neg (by simpa using hds), on_bind_of_ok (readStores_of_some h)]
  cases ss with
  | nil => exact ⟨_, rfl⟩
  | cons e ss =>
    rw [if_neg (by simp), on_bind]
    refine ⟨((placeIn setting id (s.record.dependencies.get id) [] (e :: ss)).on s).2.log, ?_⟩
    split
    · rename_i hon
      rw [hon]
      rfl
    · rename_i hon
      rw [hon]

lemma session_of_nothing (hds : s.record.dependencies.get id = []) : ((placeDependencies setting id).on s).2 = s := by
  rw [placeDependencies, on_bind_of_ok (on_get s)]
  rw [if_pos (by simp [hds])]
  rfl

/-- **What a call does to the stores.** They are asked in their order until one does not pass the offer on. -/
theorem stores_placeDependencies (h : s.stores = some ss) :
    ((placeDependencies setting id).on s).2.stores = some (offered (answer setting s id) ss) := by
  by_cases hds : s.record.dependencies.get id = []
  · have hnothing : ∀ e, (answer setting s id e).result = .ok none ∧ (answer setting s id e).store = e := by
      intro e
      rw [answer, hds]
      exact write_nil ..
    rw [session_of_nothing hds, offered_of_nothing hnothing, h]
  · obtain ⟨log, hon⟩ := session_placeDependencies h hds
    rw [hon]
    exact stores_placeIn setting id [] ss h

section

variable (setting s id)

/-- The store at a place takes the packages of a codemod: it is the first that does not pass them on. -/
structure Takes (i : Nat) (store : Store) : Prop where
  stands : ∃ ss, s.stores = some ss ∧ ss[i]? = some store ∧
    ∀ j < i, ∀ e, ss[j]? = some e → (answer setting s id e).result = .ok none
  answers : (answer setting s id store).result ≠ .ok none

/-- Does a call tell of a change, or write a file? -/
def Works (store : Store) : Prop :=
  (answer setting s id store).result.isOk = true ∨ (answer setting s id store).files ≠ s.files

/-- A call adds a package at a place: the store there takes the packages of the call, and this one is new to
it. -/
def Adds (i : Nat) (d : Dependency) : Prop :=
  ∃ store, Takes setting s id i store ∧ Works setting s id store ∧ d ∈ (store.addNew (s.record.dependencies.get id)).2

end

lemma Takes.place_eq (h : Takes setting s id i store) (h' : Takes setting s id j store') : i = j := by
  obtain ⟨ss, hss, hstore, hfirst⟩ := h.stands
  obtain ⟨ss', hss', hstore', hfirst'⟩ := h'.stands
  obtain rfl := some.inj (hss.symm.trans hss')
  rcases Nat.lt_trichotomy i j with hij | hij | hij
  · exact absurd (hfirst' i hij store hstore) h.answers
  · exact hij
  · exact absurd (hfirst j hij store' hstore') h'.answers

lemma record_placeIn (setting : Setting) (id : String) (ds : List Dependency) (before rest : List Store) (s : Session) :
    ((placeIn setting id ds before rest).on s).2.record = s.record ∨
      ∃ (i : Nat) (store : Store) (c : ChangeSet), rest[i]? = some store ∧
        (∀ j < i, ∀ e, rest[j]? = some e → (write s.files setting.dir e ds setting.isTrial).result = .ok none) ∧
        (write s.files setting.dir store ds setting.isTrial).result = .ok (some c) ∧
        ((placeIn setting id ds before rest).on s).2.record = s.record.addResults id [c] := by
  induction rest generalizing before s with
  | nil => exact .inl rfl
  | cons store rest ih =>
    rw [placeIn_cons]
    dsimp only
    split <;> rename_i hresult
    · exact .inl rfl
    · exact .inr ⟨0, store, _, rfl, fun j hj => absurd hj (Nat.not_lt_zero j), hresult, rfl⟩
    · have hfiles := files_of_none hresult
      rcases ih (before ++ [(write s.files setting.dir store ds setting.isTrial).store])
        (answered s before (write s.files setting.dir store ds setting.isTrial) rest) with hrecord | hrecord
      · exact .inl hrecord
      · obtain ⟨i, e, c, he, hfirst, hc, hrecord⟩ := hrecord
        rw [answered, hfiles] at hfirst hc
        refine .inr ⟨i + 1, e, c, he, fun j hj f hf => ?_, hc, hrecord⟩
        cases j with
        | zero => exact some.inj hf ▸ hresult
        | succ j => exact hfirst j (Nat.lt_of_succ_lt_succ hj) f hf

/-- A call puts nothing on record, or the one change that the store which takes its packages has answered with:
that change tells of the packages new to the store. -/
def Reports (setting : Setting) (s : Session) (id : String) : Prop :=
  ((placeDependencies setting id).on s).2.record = s.record ∨
    ∃ i store c, Takes setting s id i store ∧ (answer setting s id store).result = .ok (some c) ∧ actionsOf c.changes =
        (store.addNew (s.record.dependencies.get id)).2.map (fun d => .added d.requirement.text) ∧
      ((placeDependencies setting id).on s).2.record = s.record.addResults id [c]

lemma record_placeDependencies (h : s.stores = some ss) : Reports setting s id := by
  by_cases hds : s.record.dependencies.get id = []
  · exact .inl (congrArg Session.record (session_of_nothing hds))
  · obtain ⟨log, hon⟩ := session_placeDependencies h hds
    rw [Reports, hon]
    rcases record_placeIn setting id (s.record.dependencies.get id) [] ss s with hrecord | hrecord
    · exact .inl hrecord
    · obtain ⟨i, store, c, hstore, hfirst, hc, hrecord⟩ := hrecord
      have hanswer : (answer setting s id store).result = .ok (some c) := hc
      have htakes : Takes setting s id i store :=
        ⟨⟨ss, h, hstore, hfirst⟩, fun hnone => by rw [hnone] at hanswer; cases hanswer⟩
      exact .inr ⟨i, store, c, htakes, hanswer, actionsOf_write hc, hrecord⟩

/-! ## Stores over time -/

lemma forall₂_offered (answer : Store → Outcome) (ss : List Store) :
    Forall₂ (fun e e' => e' = e ∨ e' = (answer e).store) ss (offered answer ss) := by
  fun_induction offered answer ss with
  | case1 => exact .nil
  | case2 _ _ _ ih => exact .cons (.inr rfl) ih
  | case3 => exact .cons (.inr rfl) (forall₂_same.2 fun _ _ => .inl rfl)

lemma exists_getElem?_offered (answer : Store → Outcome) (h : ss[i]? = some e) :
    ∃ e', (offered answer ss)[i]? = some e' ∧ (e' = e ∨ e' = (answer e).store) := by
  obtain ⟨hlength, hget⟩ := forall₂_iff_get.1 (forall₂_offered answer ss)
  obtain ⟨hi, rfl⟩ := List.getElem?_eq_some_iff.1 h
  exact ⟨_, getElem?_eq_getElem (hlength ▸ hi), hget i hi _⟩

lemma getElem?_offered_of_first {answer : Store → Outcome} (h : ss[i]? = some store)
    (hfirst : ∀ j < i, ∀ e, ss[j]? = some e → (answer e).result = .ok none) :
    (offered answer ss)[i]? = some (answer store).store := by
  induction ss generalizing i with
  | nil => cases h
  | cons e ss ih =>
    cases i with
    | zero =>
      obtain rfl : e = store := some.inj h
      rw [offered]
      split <;> rfl
    | succ i =>
      rw [offered, hfirst 0 (Nat.succ_pos i) e rfl]
      exact ih h fun j hj f hf => hfirst (j + 1) (Nat.succ_lt_succ hj) f hf

/-- The calls of a run, from the stores that the first one finds to those that the last one leaves: each finds
the stores as the one before it has left them. Whatever else the run does in between is left open. -/
inductive Calls (setting : Setting) : List Store → List (Session × String) → List Store → Prop where
  | none (ss : List Store) : Calls setting ss [] ss
  | call {ss ss' ss'' : List Store} {s : Session} {id : String} {calls : List (Session × String)} :
      s.stores = some ss → ((placeDependencies setting id).on s).2.stores = some ss' →
      Calls setting ss' calls ss'' → Calls setting ss ((s, id) :: calls) ss''

section

variable (h : Calls setting ss calls ss')
include h

lemma Calls.exists_stores (hc : c ∈ calls) : ∃ sc, c.1.stores = some sc := by
  induction h with
  | none ss => cases hc
  | call hs _ _ ih =>
    rcases mem_cons.1 hc with rfl | hc
    · exact ⟨_, hs⟩
    · exact ih hc

lemma Calls.lists_of_lists {r : Requirement}
    (he : ss[i]? = some e) (hr : e.lists r = true) (hk : calls[k]? = some c) (hsk : c.1.stores = some sk)
    (he' : sk[i]? = some e') : e'.lists r = true := by
  induction h generalizing k e with
  | none ss => cases hk
  | call hs hnext _ ih =>
    cases k with
    | zero =>
      obtain rfl := some.inj hk
      obtain rfl := some.inj (hs.symm.trans hsk)
      obtain rfl := some.inj (he.symm.trans he')
      exact hr
    | succ k =>
      rw [stores_placeDependencies hs, some.injEq] at hnext
      subst hnext
      obtain ⟨e₁, he₁, rfl | rfl⟩ := exists_getElem?_offered (answer setting _ _) he
      · exact ih he₁ hr hk
      · exact ih he₁ (lists_write_of_lists hr) hk

lemma Calls.lists_of_takes (hkl : k < l) (hk : calls[k]? = some c) (htakes : Takes setting c.1 c.2 i store)
    (hd : d ∈ c.1.record.dependencies.get c.2) (hl : calls[l]? = some c') (hsl : c'.1.stores = some sl)
    (he' : sl[i]? = some e') : e'.lists d.requirement = true := by
  induction h generalizing k l with
  | none ss => cases hk
  | call hs hnext hcalls ih =>
    obtain ⟨l, rfl⟩ : ∃ m, l = m + 1 := ⟨l - 1, by omega⟩
    cases k with
    | succ k => exact ih (Nat.lt_of_succ_lt_succ hkl) hk hl
    | zero =>
      obtain rfl := some.inj hk
      obtain ⟨ss', hss', hstore, hfirst⟩ := htakes.stands
      obtain rfl := some.inj (hs.symm.trans hss')
      rw [stores_placeDependencies hs, some.injEq] at hnext
      subst hnext
      exact hcalls.lists_of_lists (getElem?_offered_of_first hstore hfirst) (lists_write hd htakes.answers) hl
        hsl he'

end

/-! ## The calls of a run -/

lemma ignoresTalk_stores : IgnoresTalk Session.stores := ⟨fun _ _ => rfl, fun _ _ => rfl⟩

lemma session_recordFiles (id : String) (rs : List (Except Fault FileResult)) (s : Session) :
    ∃ record, ((recordFiles id rs).on s).2 = { s with record } := by
  have hkeeps : Keeps (fun s : Session => { s with record := {} }) (recordFiles id rs) :=
    keeps_recordFiles (fun _ _ => rfl) rs
  exact ⟨_, congrArg (fun t : Session => { t with record := ((recordFiles id rs).on s).2.record }) (hkeeps s)⟩

lemma session_finishCodemod (setting : Setting) (c : Registered) (rs : List (Except Fault FileResult)) (s : Session) :
    ∃ record, ((finishCodemod setting c rs).on s).2 = { s with record } ∨ ∃ log, ((finishCodemod setting c rs).on s).2 =
        { ((placeDependencies setting c.id).on { s with record }).2 with log } := by
  obtain ⟨record, hrecord⟩ := session_recordFiles c.id rs s
  refine ⟨record, ?_⟩
  rw [← hrecord]
  unfold finishCodemod
  rw [on_bind]
  split <;> rename_i s₁ hon <;> rw [hon]
  · refine .inr ?_
    rw [on_bind]
    split <;> rename_i hplaced <;> rw [hplaced] <;> exact ⟨_, rfl⟩
  · exact .inl rfl

lemma stores_finishCodemod (c : Registered) {rs : List (Except Fault FileResult)} :
    ((finishCodemod setting c rs).on s).2.stores = s.stores ∨ ∃ s₁, s₁.stores = s.stores ∧
        ((finishCodemod setting c rs).on s).2.stores = ((placeDependencies setting c.id).on s₁).2.stores := by
  obtain ⟨record, hsame | ⟨log, hplaced⟩⟩ := session_finishCodemod setting c rs s
  · exact .inl (by rw [hsame])
  · exact .inr ⟨{ s with record }, rfl, by rw [hplaced]⟩

lemma stores_applyCodemod (setting : Setting) (settings : CommandLine.Settings) (files : List String) (known : Findings)
    (c : Registered) (s : Session) :
    ((applyCodemod setting settings files known c).on s).2.stores = s.stores ∨
      ∃ s₁, s₁.stores = s.stores ∧ ((applyCodemod setting settings files known c).on s).2.stores =
        ((placeDependencies setting c.id).on s₁).2.stores := by
  have hstarted := keeps_startCodemod setting settings c ignoresTalk_stores known s
  unfold applyCodemod
  rw [on_bind]
  split <;> rename_i s₁ hon <;> rw [hon] at hstarted
  · rename_i findings
    cases findings with
    | none => exact .inl hstarted
    | some findings =>
      obtain ⟨log, hswept⟩ := on_applyToFiles setting settings c findings 0 files s₁
      rw [on_bind_of_ok hswept, ← hstarted]
      exact stores_finishCodemod c
  · exact .inl hstarted

lemma exists_calls (settings : CommandLine.Settings) (files : List String) (known : Findings) (cs : List Registered)
    (h : s.stores = some ss) : ∃ calls ss', Calls setting ss calls ss' ∧ (calls.map (·.2)).Sublist (cs.map Registered.id) ∧
        ((cs.forM (applyCodemod setting settings files known)).on s).2.stores = some ss' := by
  induction cs generalizing s ss with
  | nil => exact ⟨[], ss, .none ss, .refl _, h⟩
  | cons c cs ih =>
    have hgoes : (c :: cs).forM (applyCodemod setting settings files known) =
        applyCodemod setting settings files known c >>= fun _ => cs.forM (applyCodemod setting settings files known) :=
      rfl
    have hone := stores_applyCodemod setting settings files known c s
    rw [hgoes, on_bind]
    cases hon : (applyCodemod setting settings files known c).on s with
    | mk r s₁ =>
      rw [hon] at hone
      -- the stores after this codemod, and its call if it has made one
      have hcall : ∃ calls ss₁, s₁.stores = some ss₁ ∧ (calls.map (·.2)).Sublist [c.id] ∧
          ∀ rest ss', Calls setting ss₁ rest ss' → Calls setting ss (calls ++ rest) ss' := by
        rcases hone with hsame | ⟨s₀, hs₀, hplaced⟩
        · exact ⟨[], ss, hsame.trans h, nil_sublist _, fun rest ss' hrest => hrest⟩
        · have hs₀ := hs₀.trans h
          refine ⟨[(s₀, c.id)], _, hplaced.trans (stores_placeDependencies hs₀), .refl _, fun rest ss' hrest => ?_⟩
          exact .call hs₀ (stores_placeDependencies hs₀) hrest
      obtain ⟨calls, ss₁, hss₁, hids, hcalls⟩ := hcall
      cases r with
      | error f =>
        refine ⟨calls, ss₁, ?_, hids.trans (singleton_sublist.2 (.head _)), hss₁⟩
        simpa using hcalls [] ss₁ (.none ss₁)
      | ok u =>
        obtain ⟨rest, ss', hrest, hsub, hfinal⟩ := ih hss₁
        refine ⟨calls ++ rest, ss', hcalls rest ss' hrest, ?_, hfinal⟩
        rw [map_append]
        exact hids.append hsub

/-! ## One place for each package -/

section

variable (setting ss calls)

/-- Does a call add a package to a store? -/
def AddsAt (k i : Nat) (d : Dependency) : Prop :=
  ∃ c, calls[k]? = some c ∧ Adds setting c.1 c.2 i d

/-- Before the call with a number, some file of the project asks for what a package is: its store did so from
the beginning, or a call has added it. -/
def HeldBefore (k : Nat) (d : Dependency) : Prop :=
  (∃ e ∈ ss, e.lists d.requirement = true) ∨
    ∃ l < k, ∃ i d', AddsAt setting calls l i d' ∧ d'.requirement.agrees d.requirement = true

/-- Is each package added to one store only, and to none if some store lists it? -/
def OnePlace : Prop :=
  (∀ k l i j d d', AddsAt setting calls k i d → AddsAt setting calls l j d' →
      d.requirement.agrees d'.requirement = true → i = j) ∧
    ∀ k i d, AddsAt setting calls k i d → ∀ e ∈ ss, e.lists d.requirement = false

end

lemma not_agrees_of_addsAt (h : Calls setting ss calls ss') (hkl : k < l)
    (hk : AddsAt setting calls k i d) (hl : AddsAt setting calls l i d') :
    d.requirement.agrees d'.requirement = false := by
  obtain ⟨c, hc, store, htakes, -, hd⟩ := hk
  obtain ⟨c', hc', store', htakes', -, hd'⟩ := hl
  obtain ⟨sl, hsl, hstore', -⟩ := htakes'.stands
  have hlists := h.lists_of_takes hkl hc htakes (Store.mem_of_mem_addNew hd).1 hc' hsl hstore'
  refine Bool.eq_false_iff.2 fun hag => ?_
  have hnot := (Store.mem_of_mem_addNew hd').2
  rw [Store.lists_of_agrees hlists hag] at hnot
  cases hnot

lemma lists_of_onePlace (h : Calls setting ss calls ss') (hone : OnePlace setting ss calls) (hc : calls[k]? = some c)
    (htakes : Takes setting c.1 c.2 i store) (hworks : Works setting c.1 c.2 store)
    (hd : d ∈ c.1.record.dependencies.get c.2) (hheld : HeldBefore setting ss calls k d) :
    store.lists d.requirement = true := by
  refine Decidable.byContradiction fun hnot => ?_
  obtain ⟨e, he, hag⟩ := Store.exists_mem_addNew hd (Bool.eq_false_iff.2 hnot)
  have hadds : AddsAt setting calls k i e := ⟨c, hc, store, htakes, hworks, he⟩
  rcases hheld with ⟨f, hf, hlists⟩ | ⟨l, hl, j, d', hadds', hag'⟩
  · have hfalse := hone.2 k i e hadds f hf
    rw [Store.lists_of_agrees hlists (Requirement.agrees_symm hag)] at hfalse
    cases hfalse
  · have hde := Requirement.agrees_trans hag' (Requirement.agrees_symm hag)
    obtain rfl := hone.1 l k j i d' e hadds' hadds hde
    have hfalse := not_agrees_of_addsAt h hl hadds' hadds
    rw [hde] at hfalse
    cases hfalse

lemma onePlace_of_lists
    (h : ∀ k c i store, calls[k]? = some c → Takes setting c.1 c.2 i store → Works setting c.1 c.2 store →
      ∀ d ∈ c.1.record.dependencies.get c.2, HeldBefore setting ss calls k d → store.lists d.requirement = true) :
    OnePlace setting ss calls := by
  have hnew : ∀ k i d, AddsAt setting calls k i d → ¬ HeldBefore setting ss calls k d := by
    rintro k i d ⟨c, hc, store, htakes, hworks, hd⟩ hheld
    obtain ⟨hmem, hnot⟩ := Store.mem_of_mem_addNew hd
    rw [h k c i store hc htakes hworks d hmem hheld] at hnot
    cases hnot
  constructor
  · intro k l i j d d' hk hl hag
    rcases Nat.lt_trichotomy k l with hkl | rfl | hlk
    · exact absurd (.inr ⟨k, hkl, i, d, hk, hag⟩) (hnew l j d' hl)
    · -- one call adds at one place only
      obtain ⟨c, hc, store, htakes, -⟩ := hk
      obtain ⟨c', hc', store', htakes', -⟩ := hl
      obtain rfl := some.inj (hc.symm.trans hc')
      exact htakes.place_eq htakes'
    · exact absurd (.inr ⟨l, hlk, j, d', hl, Requirement.agrees_symm hag⟩) (hnew k i d hk)
  · intro k i d hk e he
    exact Bool.eq_false_iff.2 fun hlists => hnew k i d hk (.inl ⟨e, he, hlists⟩)

/-- **When packages have one place.** The stores of a run change through its calls only. Over any sequence of
calls no store is given the same package twice, and what a call reports is what it adds. But each package has one
place in the project only if each call that writes does so in a store that lists whatever any file of the project
asks for among the packages of the call. -/
theorem onePlace_iff (setting : Setting) (ss : List Store) :
    (∀ settings files known (cs : List Registered) (s : Session), s.stores = some ss →
      ∃ calls ss', Calls setting ss calls ss' ∧ (calls.map (·.2)).Sublist (cs.map Registered.id) ∧
      ((cs.forM (applyCodemod setting settings files known)).on s).2.stores = some ss') ∧
    ∀ calls ss', Calls setting ss calls ss' →
      (∀ k l i d d', k < l → AddsAt setting calls k i d → AddsAt setting calls l i d' →
        d.requirement.agrees d'.requirement = false) ∧
      (∀ c ∈ calls, Reports setting c.1 c.2) ∧
      (OnePlace setting ss calls ↔
        ∀ k c i store, calls[k]? = some c → Takes setting c.1 c.2 i store → Works setting c.1 c.2 store →
          ∀ d ∈ c.1.record.dependencies.get c.2, HeldBefore setting ss calls k d →
            store.lists d.requirement = true) := by
  refine ⟨fun settings files known cs s h => exists_calls settings files known cs h, fun calls ss' h => ?_⟩
  refine ⟨fun k l i d d' hkl hk hl => not_agrees_of_addsAt h hkl hk hl, fun c hc => ?_, ?_, onePlace_of_lists⟩
  · obtain ⟨sc, hsc⟩ := h.exists_stores hc
    exact record_placeDependencies hsc
  · intro hone k c i store hc htakes hworks d hd hheld
    exact lists_of_onePlace h hone hc htakes hworks hd hheld

def listedThere : Store := ⟨.listing, "a/requirements.txt", [Dependency.defusedXml.requirement], []⟩

def notListedHere : Store := ⟨.listing, "b/requirements.txt", [{ name := "six" }], []⟩

/-- Two stores, the first of which lists the package already. -/
def twoLists : Session where
  files := Files.putText (Files.putText {} "a/requirements.txt" "defusedxml~=0.7.1\n") "b/requirements.txt" "six\n"
  stores := some [listedThere, notListedHere]
  record := { dependencies := [("codemod", [Dependency.defusedXml])] }

lemma twoLists_answer : (answer { dir := "." } twoLists "codemod" notListedHere).result.toOption.join.isSome = true := by
  decide +kernel

lemma twoLists_takes : Takes { dir := "." } twoLists "codemod" 1 notListedHere := by
  refine ⟨⟨_, rfl, rfl, fun j hj e he => ?_⟩, fun hnone => ?_⟩
  · obtain rfl : j = 0 := by omega
    obtain rfl : listedThere = e := some.inj he
    rw [answer, write_of_nothing (by decide) (by decide +kernel)]
  · have hsome := twoLists_answer
    rw [hnone] at hsome
    cases hsome

/-- The package is added to the second list although the first one names it. -/
theorem twoLists_not_onePlace : (∃ ss, Calls { dir := "." } [listedThere, notListedHere] [(twoLists, "codemod")] ss) ∧
      ¬ OnePlace { dir := "." } [listedThere, notListedHere] [(twoLists, "codemod")] := by
  have hcalls : Calls { dir := "." } [listedThere, notListedHere] [(twoLists, "codemod")]
      (offered (answer { dir := "." } twoLists "codemod") [listedThere, notListedHere]) :=
    .call rfl (stores_placeDependencies rfl) (.none _)
  refine ⟨⟨_, hcalls⟩, fun hone => ?_⟩
  have hworks : Works { dir := "." } twoLists "codemod" notListedHere := .inl (by decide +kernel)
  have hlists := ((onePlace_iff _ _).2 _ _ hcalls).2.2.1 hone 0 _ 1 _ rfl twoLists_takes hworks Dependency.defusedXml
    (mem_singleton_self _) (.inl ⟨listedThere, mem_cons_self .., by decide +kernel⟩)
  exact absurd hlists (by decide +kernel)

end Mender.Run
