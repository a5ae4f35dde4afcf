import Mender.Proofs.Run.Placing
import Mender.Proofs.Run.Workers

/-!
# Schedules

Codemods are applied one after the other, each by several workers at once (`PoolRun`). The log tells in which order
the workers have taken their steps; nothing else does. Files, stores and record are those of the loop that goes
through the files one by one (`schedule_independent`).
-/

namespace Mender.Run

open CommandLine Project Codemod Relation List Mender.Path

variable {α : Type} {setting : Setting} {settings : Settings} {files ps : List String} {known findings : Findings}
  {c : Registered} {cs : List Registered} {s s' t s₁ : Session} {r : Except Fault Unit} {id p dir file : String}
  {ds : List Dependency} {fs gs : Files} {e : Store}

/-! ## Nobody reads the log -/

structure SameButLog (s t : Session) : Prop where
  files : s.files = t.files
  stores : s.stores = t.stores
  record : s.record = t.record
  scans : s.scans = t.scans

abbrev Unlogged (a : Act α) : Prop := Related SameButLog SameButLog a a

namespace Unlogged

lemma tell (es : List Log.Entry) : Unlogged (tell es) := fun _ _ h => ⟨rfl, h.files, h.stores, h.record, h.scans⟩

lemma modify {f : Session → Session} (h : ∀ s t, SameButLog s t → SameButLog (f s) (f t)) :
    Unlogged (modify f : Act Unit) := fun s t hst => ⟨rfl, h s t hst⟩

lemma bind {β : Type} {a : Act α} {f : α → Act β} (ha : Unlogged a) (hf : ∀ x, Unlogged (f x)) :
    Unlogged (a >>= f) := Related.bind ha hf fun _ _ h => h

lemma get_bind {f : Session → Act α} (h : ∀ s t, SameButLog s t → f s = f t) (hf : ∀ s, Unlogged (f s)) :
    Unlogged (get >>= f) := by
  intro s t hst
  rw [on_bind_of_ok (on_get s), h s t hst]
  exact hf t s t hst

lemma scan (rules : Nat) (targets : List String) : Unlogged (scan setting rules targets) := by
  unfold Run.scan
  split
  · exact .throw _
  · refine get_bind (fun s t h => by rw [h.scans]) fun s => ?_
    refine .bind (.modify fun s t h => ⟨h.files, h.stores, h.record, congrArg (· ++ _) h.scans⟩) fun _ => ?_
    split
    · exact .lift _
    · exact .bind (.tell _) fun _ => .throw _

lemma startCodemod : Unlogged (startCodemod setting settings known c) := by
  unfold Run.startCodemod
  refine .bind (.tell _) fun _ => ?_
  split
  · exact .bind (.tell _) fun _ => .pure _
  · refine .bind ?_ fun _ => .bind ?_ fun _ => .pure _
    · unfold findOwn
      split
      · dsimp only
        split
        · exact .throw _
        · exact scan _ _
      · exact .pure _
    · unfold hireWorkers
      split
      · exact .throw _
      · exact .tell _

lemma recordFiles (rs : List (Except Fault FileResult)) : Unlogged (recordFiles id rs) := by
  induction rs with
  | nil => exact .pure _
  | cons r rs ih =>
    cases r with
    | error f => exact .throw f
    | ok r => exact .bind (.modify fun s t h => ⟨h.files, h.stores, congrArg (·.addFile id r) h.record, h.scans⟩) fun _ => ih

lemma readStores : Unlogged (readStores setting) := by
  unfold Run.readStores
  refine get_bind (fun s t h => ?_) fun s => ?_
  · rw [h.stores]
  · split
    · exact .pure _
    · refine get_bind (fun s t h => by rw [h.files]) fun s => .bind (.tell _) fun _ => ?_
      exact .bind (.modify fun s t h => ⟨h.files, rfl, h.record, h.scans⟩) fun _ => .pure _

lemma placeIn (ds : List Dependency) (before rest : List Store) : Unlogged (placeIn setting id ds before rest) := by
  induction rest generalizing before with
  | nil => exact .pure _
  | cons e rest ih =>
    unfold Run.placeIn
    refine get_bind (fun s t h => by rw [h.files]) fun s => ?_
    refine .bind (.modify fun s t h => ⟨rfl, rfl, h.record, h.scans⟩) fun _ => ?_
    split
    · exact .throw _
    · exact .bind (.modify fun s t h => ⟨h.files, h.stores, by rw [h.record], h.scans⟩) fun _ => .pure _
    · exact ih _

lemma placeDependencies : Unlogged (placeDependencies setting id) := by
  unfold Run.placeDependencies
  refine get_bind (fun s t h => by rw [h.record]) fun s => ?_
  dsimp only
  split
  · exact .pure _
  · refine .bind readStores fun ss => ?_
    split
    · exact .bind (.tell _) fun _ => .pure _
    · exact .bind (placeIn _ _ _) fun _ => .pure _

lemma finishCodemod (rs : List (Except Fault FileResult)) : Unlogged (finishCodemod setting c rs) := by
  unfold Run.finishCodemod
  refine .bind (recordFiles rs) fun _ => .bind placeDependencies fun _ => .bind (.tell _) fun _ => ?_
  exact get_bind (fun s t h => by rw [h.record]) fun s => .tell _

end Unlogged

/-! ## Runs with workers -/

section

variable (setting settings files known)

/-- A codemod is applied by workers. It may end before they begin. -/
inductive Pooled (c : Registered) (s : Session) : Except Fault Unit → Session → Prop where
  | halted {f : Fault} {s₁ : Session} : (startCodemod setting settings known c).on s = (.error f, s₁) →
      Pooled c s (.error f) s₁
  | skipped {s₁ : Session} : (startCodemod setting settings known c).on s = (.ok none, s₁) →
      Pooled c s (.ok ()) s₁
  | applied {findings : Findings} {s₁ s₂ : Session} {pool : Pool} {log : List Log.Entry} {r : Except Fault Unit} :
      (startCodemod setting settings known c).on s = (.ok (some findings), s₁) →
      ReflTransGen (Move c.codemod setting.dir findings (wishesOf setting settings) settings.workers.toNat)
        (Pool.start s₁.files files) pool →
      pool.IsFinished →
      (finishCodemod setting c (pool.results.map .ok)).on { s₁ with files := pool.files, log } = (r, s₂) →
      Pooled c s r s₂

/-- Codemods are applied one after the other, each by workers. A fault ends the run. -/
inductive PoolRun : List Registered → Session → Except Fault Unit → Session → Prop where
  | nil {s : Session} : PoolRun [] s (.ok ()) s
  | stop {c : Registered} {cs : List Registered} {s s₁ : Session} {f : Fault} :
      Pooled setting settings files known c s (.error f) s₁ →
      PoolRun (c :: cs) s (.error f) s₁
  | next {c : Registered} {cs : List Registered} {s s₁ s₂ : Session} {r : Except Fault Unit} :
      Pooled setting settings files known c s (.ok ()) s₁ → PoolRun cs s₁ r s₂ →
      PoolRun (c :: cs) s r s₂

/-- Apply codemods one after the other. -/
def loop (cs : List Registered) : Act Unit := cs.forM (applyCodemod setting settings files known)

end

lemma loop_cons : loop setting settings files known (c :: cs) =
    applyCodemod setting settings files known c >>= fun _ => loop setting settings files known cs := rfl

lemma applyCodemod_of_pooled (hsees : SeesOnlyPaths c.codemod) (hfiles : (files.map resolved).Nodup)
    (hst : SameButLog s t) (h : Pooled setting settings files known c s r s') :
    ∃ t', (applyCodemod setting settings files known c).on t = (r, t') ∧ SameButLog s' t' := by
  cases h with
  | halted hstart =>
    obtain ⟨t₁, ht₁, hsame⟩ := Unlogged.startCodemod.exists_on hst hstart
    exact ⟨t₁, on_bind_of_error ht₁ _, hsame⟩
  | skipped hstart =>
    obtain ⟨t₁, ht₁, hsame⟩ := Unlogged.startCodemod.exists_on hst hstart
    exact ⟨t₁, on_bind_of_ok ht₁ _, hsame⟩
  | @applied findings s₁ _ pool log _ hstart hmoves hdone hfinish =>
    obtain ⟨t₁, ht₁, hsame⟩ := Unlogged.startCodemod.exists_on hst hstart
    obtain ⟨log', hswept⟩ := on_applyToFiles setting settings c findings 0 files t₁
    have hresult := sweep_of_finished hsees hfiles hmoves hdone
    rw [hsame.files] at hresult
    rw [swept, hresult] at hswept
    have hready : SameButLog { s₁ with files := pool.files, log }
        { t₁ with files := pool.files, log := log' } := ⟨rfl, hsame.stores, hsame.record, hsame.scans⟩
    obtain ⟨t₂, ht₂, hsame₂⟩ := (Unlogged.finishCodemod _).exists_on hready hfinish
    refine ⟨t₂, ?_, hsame₂⟩
    rw [applyCodemod, on_bind_of_ok ht₁]
    rw [on_bind_of_ok hswept, ht₂]

lemma loop_of_poolRun (hsees : ∀ c ∈ cs, SeesOnlyPaths c.codemod) (hfiles : (files.map resolved).Nodup)
    (hst : SameButLog s t) (h : PoolRun setting settings files known cs s r s') :
    ∃ t', (loop setting settings files known cs).on t = (r, t') ∧ SameButLog s' t' := by
  induction h generalizing t with
  | nil => exact ⟨t, rfl, hst⟩
  | @stop c cs s s₁ f hone =>
    obtain ⟨t₁, ht₁, hsame⟩ := applyCodemod_of_pooled (hsees c (.head _)) hfiles hst hone
    exact ⟨t₁, on_bind_of_error ht₁ _, hsame⟩
  | @next c cs s s₁ s₂ r hone _ ih =>
    obtain ⟨t₁, ht₁, hsame⟩ := applyCodemod_of_pooled (hsees c (.head _)) hfiles hst hone
    obtain ⟨t₂, ht₂, hsame₂⟩ := ih (forall_mem_cons.1 hsees).2 hsame
    refine ⟨t₂, ?_, hsame₂⟩
    rw [loop_cons, on_bind_of_ok ht₁, ht₂]

/-! ## What each codemod contributes -/

/-- Are the stores of a session known, and are their files named as their kinds say? -/
def Surveyed (s : Session) : Prop := ∃ ss, s.stores = some ss ∧ ∀ e ∈ ss, e.IsNamed

lemma mem_offered {answer : Store → Outcome} {ss : List Store} (h : e ∈ offered answer ss) :
    ∃ e' ∈ ss, e = e' ∨ e = (answer e').store := by
  obtain ⟨hlength, hget⟩ := forall₂_iff_get.1 (forall₂_offered answer ss)
  obtain ⟨i, hi, rfl⟩ := getElem_of_mem h
  exact ⟨_, getElem_mem (hlength ▸ hi), hget i _ hi⟩

lemma surveyed_applyCodemod (h : Surveyed s)
    (hon : (applyCodemod setting settings files known c).on s = (r, s')) : Surveyed s' := by
  obtain ⟨ss, hss, hnamed⟩ := h
  have hstores := stores_applyCodemod setting settings files known c s
  rw [hon] at hstores
  rcases hstores with hstores | ⟨s₁, hs₁, hstores⟩
  · exact ⟨ss, hstores.trans hss, hnamed⟩
  · rw [stores_placeDependencies (hs₁.trans hss)] at hstores
    refine ⟨_, hstores, fun e he => ?_⟩
    obtain ⟨e', he', rfl | rfl⟩ := mem_offered he
    · exact hnamed e he'
    · exact (hnamed e' he').write ..

/-! ## Files that cannot be read -/

lemma planScript_of_unread {content : Option Content}
    (h : ∀ text, readText content = .ok text → Syntax.Node.ofModule? text = none) :
    ∃ f, planScript content dir file ds = .stop (some f) := by
  cases htext : readText content with
  | error f => exact ⟨f, by rw [planScript, extendScript, htext]; rfl⟩
  | ok text => exact ⟨.unreadable, by simp [planScript, extendScript, htext, h text htext, bind, Except.bind]⟩

/-- A file of code that cannot be read. -/
def IsUnread (fs : Files) (p : String) : Prop := suffix p = ".py" ∧ readModule? fs (plain p) = none

lemma IsUnread.congr (h : IsUnread fs p) (hsame : gs.get? p = fs.get? p) : IsUnread gs p :=
  ⟨h.1, (readModule?_plain hsame).trans h.2⟩

lemma get?_write_of_unread {isTrial : Bool} (he : e.IsNamed) (hp : IsUnread fs p) :
    (write fs dir e ds isTrial).files.get? p = fs.get? p := by
  rw [write_eq.2, Store.intent]
  split
  · rfl
  by_cases hfile : resolved e.file = resolved p
  · have hscript := he.eq_script hp.1 hfile
    have hcontent : fs.get? e.file = fs.get? (plain p) := Files.get?_congr (hfile.trans (resolved_plain p).symm)
    obtain ⟨f, hf⟩ : ∃ f, planScript (fs.get? e.file) dir e.file (e.addNew ds).2 = .stop (some f) :=
      planScript_of_unread fun text htext => by simpa [readModule?, readText_eq_ok_iff.1 (hcontent ▸ htext)] using hp.2
    rw [Store.plan, hscript]
    dsimp only
    rw [hf]
    rfl
  · cases e.plan (fs.get? e.file) dir (e.addNew ds).2 with
    | stop f => rfl
    | go change text =>
      rw [Plan.carryOut]
      split
      · rfl
      · exact Files.get?_put_of_ne (fun h => hfile h.symm) _

lemma get?_placeIn_of_unread {before rest : List Store} (hrest : ∀ e ∈ rest, e.IsNamed) (hp : IsUnread s.files p) :
    ((placeIn setting id ds before rest).on s).2.files.get? p = s.files.get? p := by
  induction rest generalizing before s with
  | nil => rfl
  | cons e rest ih =>
    have hwrite : (write s.files setting.dir e ds setting.isTrial).files.get? p = s.files.get? p :=
      get?_write_of_unread (hrest e (.head _)) hp
    rw [placeIn_cons]
    dsimp only
    split <;> rename_i hresult
    · exact hwrite
    · exact hwrite
    · have hsame := files_of_none hresult
      have hfiles : (answered s before (write s.files setting.dir e ds setting.isTrial) rest).files = s.files := hsame
      rw [ih (forall_mem_cons.1 hrest).2 (by rwa [hfiles]), hfiles]

lemma get?_placeDependencies_of_unread (hs : Surveyed s) (hp : IsUnread s.files p) :
    ((placeDependencies setting id).on s).2.files.get? p = s.files.get? p := by
  obtain ⟨ss, hss, hnamed⟩ := hs
  by_cases hds : s.record.dependencies.get id = []
  · rw [session_of_nothing hds]
  · obtain ⟨log, hon⟩ : ∃ log, ((placeDependencies setting id).on s).2 = _ := session_placeDependencies hss hds
    rw [hon]
    exact get?_placeIn_of_unread hnamed hp

lemma get?_finishCodemod_of_unread {rs : List (Except Fault FileResult)} (hs : Surveyed s) (hp : IsUnread s.files p) :
    ((finishCodemod setting c rs).on s).2.files.get? p = s.files.get? p := by
  obtain ⟨record, hsame | ⟨log, hplaced⟩⟩ := session_finishCodemod setting c rs s
  · rw [hsame]
  · rw [hplaced]
    have hs' : Surveyed { s with record } := hs
    exact get?_placeDependencies_of_unread hs' hp

lemma get?_applyCodemod_of_unread (hs : Surveyed s) (hp : IsUnread s.files p)
    (hon : (applyCodemod setting settings files known c).on s = (r, s')) : s'.files.get? p = s.files.get? p := by
  obtain rfl : ((applyCodemod setting settings files known c).on s).2 = s' := congrArg Prod.snd hon
  have htalk : IgnoresTalk fun s : Session => (s.files, s.stores) := ⟨fun _ _ => rfl, fun _ _ => rfl⟩
  have hkept := keeps_startCodemod setting settings c htalk known s
  rw [applyCodemod, on_bind]
  split <;> rename_i s₁ hon <;> rw [hon] at hkept <;> obtain ⟨hfiles, hstores⟩ := Prod.mk.inj hkept
  · rename_i findings
    cases findings with
    | none => exact congrArg (·.get? p) hfiles
    | some findings =>
      obtain ⟨log, hswept⟩ := on_applyToFiles setting settings c findings 0 files s₁
      have hsame : (swept setting settings c findings s.files files).2.get? p = s.files.get? p :=
        get?_sweep_of_unread hp.2
      rw [show s₁.files = s.files from hfiles] at hswept
      rw [on_bind_of_ok hswept]
      have hs₁ : Surveyed { s₁ with files := (swept setting settings c findings s.files files).2, log } := by
        obtain ⟨ss, hss, hnamed⟩ := hs
        exact ⟨ss, hstores.trans hss, hnamed⟩
      exact (get?_finishCodemod_of_unread hs₁ (hp.congr hsame)).trans hsame
  · exact congrArg (·.get? p) hfiles

/-! ## Contributions -/

lemma forall₂_of_mendAll {w : Wishes} {c : Codemod} {rs : List FileResult}
    (h : mendAll c fs dir findings w ps = rs.map .ok) :
    Forall₂ (fun p r => ∃ text, c.mend fs dir p findings w = .ok (r, text)) ps rs := by
  rw [mendAll, ← forall₂_eq_eq_eq, forall₂_map_left_iff, forall₂_map_right_iff] at h
  refine h.imp fun p r hr => ?_
  obtain ⟨rt, hmend, rfl⟩ := of_map hr
  exact ⟨rt.2, hmend⟩

lemma told_applyCodemod (hs : Surveyed s) (hsees : SeesOnlyPaths c.codemod) (hfiles : (files.map resolved).Nodup)
    (hstart : (startCodemod setting settings known c).on s = (.ok (some findings), s₁))
    (hon : (applyCodemod setting settings files known c).on s = (.ok (), s')) :
    ∃ (rs : List FileResult) (placed : List ChangeSet), placed.length ≤ 1 ∧ Forall₂ (fun p r => ∃ text,
        c.codemod.mend s.files setting.dir p findings (wishesOf setting settings) = .ok (r, text)) files rs ∧
      told s'.record c.id = ((told s.record c.id).1 ++ rs.flatMap (·.changeSets) ++ placed,
        (told s.record c.id).2 ++ rs.flatMap (·.failures)) := by
  have htalk : IgnoresTalk fun s : Session => (s.files, s.stores, s.record) := ⟨fun _ _ => rfl, fun _ _ => rfl⟩
  have hkept := (keeps_startCodemod setting settings c htalk known).view_eq hstart
  obtain ⟨hfiles₁, hstores₁, hrecord₁⟩ : s₁.files = s.files ∧ s₁.stores = s.stores ∧ s₁.record = s.record := by
    simpa using hkept
  obtain ⟨log, hswept⟩ := on_applyToFiles setting settings c findings 0 files s₁
  rw [applyCodemod, on_bind_of_ok hstart] at hon
  rw [on_bind_of_ok hswept] at hon
  obtain ⟨_, s₂, hrecorded, hplacing⟩ := exists_of_on_bind hon
  obtain ⟨placement, s₃, hplaced, hlogging⟩ := exists_of_on_bind hplacing
  obtain ⟨rs, hrs, hs₂⟩ := of_recordFiles hrecorded
  have hrecord : s'.record = s₃.record := by
    have htalk : IgnoresTalk Session.record := ⟨fun _ _ => rfl, fun _ _ => rfl⟩
    have hlogged : Keeps Session.record (do tell (placementLog placement); tell ((← get).record.changesLog c.id)) :=
      .bind (keeps_tell htalk) fun _ => .bind .get fun _ => keeps_tell htalk
    exact hlogged.view_eq hlogging
  have hmade : mendAll c.codemod s.files setting.dir findings (wishesOf setting settings) files = rs.map .ok := by
    rw [← hrs, hfiles₁, swept, sweep_eq (fun gs h => hsees gs s.files h.paths) hfiles
      (Import.Section.SameSight.refl (fun _ => False) s.files) (fun _ _ => rfl) ⟨samePaths_sweep, fun _ h => h.elim⟩]
  have htold : told s₂.record c.id = ((told s.record c.id).1 ++ rs.flatMap (·.changeSets),
      (told s.record c.id).2 ++ rs.flatMap (·.failures)) := by
    rw [hs₂, ← hrecord₁]
    exact told_addFiles ..
  obtain ⟨ss, hss, -⟩ := hs
  have hss₂ : s₂.stores = some ss := by
    rw [hs₂]
    exact hstores₁.trans hss
  have hreport : Reports setting s₂ c.id := record_placeDependencies hss₂
  rw [Reports, hplaced] at hreport
  rcases hreport with hsame | ⟨i, store, change, -, -, -, hchange⟩
  · refine ⟨rs, [], Nat.zero_le _, forall₂_of_mendAll hmade, ?_⟩
    rw [hrecord, hsame, htold, append_nil]
  · refine ⟨rs, [change], Nat.le_refl _, forall₂_of_mendAll hmade, ?_⟩
    rw [hrecord, hchange, told_addResults, htold]

/-! ## Whole runs -/

variable {pre post : List Registered}

lemma surveyed_loop (h : Surveyed s) (hon : (loop setting settings files known cs).on s = (.ok (), s')) : Surveyed s' := by
  induction cs generalizing s with
  | nil =>
    cases hon
    exact h
  | cons c cs ih =>
    obtain ⟨_, s₁, hone, hrest⟩ := exists_of_on_bind hon
    exact ih (surveyed_applyCodemod h hone) hrest

lemma told_loop (h : id ∉ cs.map Registered.id)
    (hon : (loop setting settings files known cs).on s = (.ok (), s')) : told s'.record id = told s.record id := by
  have hne {c : Registered} (hc : c ∈ cs) : id ≠ c.id := fun heq => h (heq ▸ mem_map_of_mem hc)
  have hkeeps : Keeps (fun s => told s.record id) (loop setting settings files known cs) :=
    .forM fun c hc => (overlooks_told (hne hc)).keeps_applyCodemod
  exact hkeeps.view_eq hon

lemma get?_loop_of_unread (hs : Surveyed s) (hp : IsUnread s.files p)
    (hon : (loop setting settings files known cs).on s = (.ok (), s')) : s'.files.get? p = s.files.get? p := by
  induction cs generalizing s with
  | nil =>
    cases hon
    rfl
  | cons c cs ih =>
    obtain ⟨_, s₁, hone, hrest⟩ := exists_of_on_bind hon
    have hsame := get?_applyCodemod_of_unread hs hp hone
    rw [ih (surveyed_applyCodemod hs hone) (hp.congr hsame) hrest, hsame]

/-- What a codemod has contributed to a run that is over, seen from the session that it began in. -/
structure Served (setting : Setting) (settings : Settings) (files : List String) (known : Findings) (c : Registered)
    (s₁ s' : Session) : Prop where
  skipped : ∀ s₂, (startCodemod setting settings known c).on s₁ = (.ok none, s₂) → told s'.record c.id = ([], [])
  /-- any other contributes what it has made of each file, in the order of the files, and one change at most for
  its packages; a file that cannot be read is one failure -/
  applied : ∀ findings s₂, (startCodemod setting settings known c).on s₁ = (.ok (some findings), s₂) →
    ∃ (rs : List FileResult) (placed : List ChangeSet), placed.length ≤ 1 ∧
      Forall₂ (fun p r =>
        (∃ text, c.codemod.mend s₁.files setting.dir p findings (wishesOf setting settings) = .ok (r, text)) ∧
        (readModule? s₁.files (plain p) = none → r = { path := plain p, failures := [plain p] }))
        files rs ∧
      told s'.record c.id = (rs.flatMap (·.changeSets) ++ placed, rs.flatMap (·.failures))
  unread : ∀ p, suffix p = ".py" → readModule? s₁.files (plain p) = none → s'.files.get? p = s₁.files.get? p

lemma served_of_loop (hids : ((pre ++ c :: post).map Registered.id).Nodup)
    (hsees : SeesOnlyPaths c.codemod) (hfiles : (files.map resolved).Nodup) (hs : Surveyed s)
    (hrecord : s.record = {}) (hon : (loop setting settings files known (pre ++ c :: post)).on s = (.ok (), s')) :
    Served setting settings files known c ((loop setting settings files known pre).on s).2 s' := by
  have hparts : loop setting settings files known (pre ++ c :: post) =
      loop setting settings files known pre >>= fun _ => loop setting settings files known (c :: post) := forM_append
  rw [hparts] at hon
  obtain ⟨_, s₁, hpre, hrest⟩ := exists_of_on_bind hon
  obtain ⟨_, s₂, hone, hpost⟩ := exists_of_on_bind hrest
  have hs₁ := surveyed_loop hs hpre
  rw [map_append, map_cons, nodup_middle, nodup_cons, mem_append, not_or] at hids
  have hbefore : told s₁.record c.id = ([], []) := by
    rw [told_loop hids.1.1 hpre, hrecord]
    rfl
  have hafter : told s'.record c.id = told s₂.record c.id := told_loop hids.1.2 hpost
  rw [hpre]
  refine ⟨fun s₃ hstart => ?_, fun findings s₃ hstart => ?_, fun p hp hunread => ?_⟩
  · have hskipped : (applyCodemod setting settings files known c).on s₁ = (.ok (), s₃) := on_bind_of_ok hstart _
    obtain rfl : s₂ = s₃ := congrArg Prod.snd (hone.symm.trans hskipped)
    have hkept := keeps_startCodemod setting settings c (ignoresTalk_record (told · c.id)) known
    rw [hafter, hkept.view_eq hstart, hbefore]
  · obtain ⟨rs, placed, hplaced, hmade, htold⟩ := told_applyCodemod hs₁ hsees hfiles hstart hone
    refine ⟨rs, placed, hplaced, hmade.imp ?_, by rw [hafter, htold, hbefore, nil_append, nil_append]⟩
    rintro p r ⟨text, hmend⟩
    refine ⟨⟨text, hmend⟩, fun hunread => ?_⟩
    rw [mend, hunread] at hmend
    exact (eq_of_mendModule_none hmend).1
  · have hunread : IsUnread s₁.files p := ⟨hp, hunread⟩
    have hsame := get?_applyCodemod_of_unread hs₁ hunread hone
    rw [get?_loop_of_unread (surveyed_applyCodemod hs₁ hone) (hunread.congr hsame) hpost, hsame]

/-- **Schedules make no difference.** However the workers take turns, a run with them ends as the loop does, with the
same files and the same record. If it comes to its end, each codemod has contributed what it makes of each file once
and in the order of the files, and files of code that cannot be read are as they were. -/
theorem schedule_independent (hids : (cs.map Registered.id).Nodup) (hfiles : (files.map resolved).Nodup)
    (hsees : ∀ c ∈ cs, SeesOnlyPaths c.codemod) (hs : Surveyed s) (hrecord : s.record = {})
    (hrun : PoolRun setting settings files known cs s r s') :
    (r = ((loop setting settings files known cs).on s).1 ∧ s'.files = ((loop setting settings files known cs).on s).2.files ∧
      s'.record = ((loop setting settings files known cs).on s).2.record) ∧
    (r = .ok () → ∀ pre c post, cs = pre ++ c :: post →
      Served setting settings files known c ((loop setting settings files known pre).on s).2 s') := by
  obtain ⟨t, hloop, hsame⟩ := loop_of_poolRun hsees hfiles ⟨rfl, rfl, rfl, rfl⟩ hrun
  refine ⟨by rw [hloop]; exact ⟨rfl, hsame.files, hsame.record⟩, ?_⟩
  rintro rfl pre c post rfl
  have hc := hsees c (mem_append_right _ (.head _))
  have hserved := served_of_loop hids hc hfiles hs hrecord hloop
  refine ⟨hsame.record ▸ hserved.skipped, hsame.record ▸ hserved.applied, hsame.files ▸ hserved.unread⟩

/-- However the workers may take turns, there is a way for them to come to an end, and so for a run. -/
lemma exists_poolRun (hfiles : (files.map resolved).Nodup) (hsees : SeesOnlyPaths c.codemod)
    (hworkers : 0 < settings.workers.toNat)
    (hstart : (startCodemod setting settings known c).on s = (.ok (some findings), s₁))
    (hok : ∀ p ∈ files, (c.codemod.mend s₁.files setting.dir p findings (wishesOf setting settings)).isOk = true) :
    ∃ r s', PoolRun setting settings files known [c] s r s' := by
  obtain ⟨pool, hmoves, hdone⟩ := exists_finished hsees hok hfiles hworkers inv_start
  cases hon : (finishCodemod setting c (pool.results.map .ok)).on { s₁ with files := pool.files, log := s₁.log } with
  | mk r s₂ =>
    cases r with
    | error f => exact ⟨.error f, s₂, .stop (.applied hstart hmoves hdone hon)⟩
    | ok u => exact ⟨.ok (), s₂, .next (.applied hstart hmoves hdone hon) .nil⟩

/-- A project with a file that can be mended and one that cannot be read. -/
def brokenProject : Files := Files.putText (Files.putText {} "a.py" "any([x for x in y])\n") "b.py" "x = (\n"

def generatorsOnly : Registered := ⟨"pixee", Catalogue.useGenerators⟩

theorem brokenProject_scheduled : ∃ r s', PoolRun { dir := "." } { workers := 2 } ["a.py", "b.py"] {} [generatorsOnly]
        { files := brokenProject, stores := some [] } r s' ∧ r = .ok () ∧
      s'.files.get? "a.py" = some (.text "any(x for x in y)\n") ∧
      s'.files.get? "b.py" = some (.text "x = (\n") ∧ s'.record.failedFiles = ["b.py"] := by
  have hfiles : (["a.py", "b.py"].map resolved).Nodup := by decide +kernel
  have hsees : SeesOnlyPaths Catalogue.useGenerators := seesOnlyPaths_of_mem (by simp [Catalogue.all]) (by decide)
  obtain ⟨r, s', hrun⟩ : ∃ r s', PoolRun { dir := "." } { workers := 2 } ["a.py", "b.py"] {} [generatorsOnly]
      { files := brokenProject, stores := some [] } r s' :=
    exists_poolRun hfiles hsees (by decide) rfl (by decide +kernel)
  have hids : ([generatorsOnly].map Registered.id).Nodup := nodup_singleton _
  have hsees' : ∀ c ∈ [generatorsOnly], SeesOnlyPaths c.codemod := by
    intro c hc
    rw [mem_singleton.1 hc]
    exact hsees
  have hsame := (schedule_independent hids hfiles hsees' ⟨[], rfl, fun _ h => absurd h not_mem_nil⟩ rfl hrun).1
  refine ⟨r, s', hrun, ?_⟩
  rw [hsame.1, hsame.2.1, hsame.2.2]
  decide +kernel

end Mender.Run
