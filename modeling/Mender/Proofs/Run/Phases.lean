import Mathlib.Tactic.Lemma
import Mender.Proofs.Lists
import Mender.Run.Whole

/-!
# The phases of a run

A codemod is begun (`startCodemod`), applied to all files (`applyToFiles`) and ended (`finishCodemod`). Apart from
the log, the first phase changes only what the scanner was asked, and the second only the files: it is a `sweep`
over them (`on_applyToFiles`). How a run begins before all that is told by `of_startRun`.
-/

namespace Mender.Run

/-! ## Steps of a run

An `Act` either gives a value or fails, and leaves a session behind in both cases. Two things are said about
acts again and again (`Keeps` and `Related`), and both follow along a chain of acts. -/

variable {α β γ : Type} {a : Act α} {f : α → Act β} {s s' s'' : Session}

/-! ## What acts do -/

/-- A chain goes on where its first act has left the session, unless that has failed. -/
theorem on_bind (a : Act α) (f : α → Act β) (s : Session) : (a >>= f).on s = match a.on s with
      | (.ok x, s') => (f x).on s'
      | (.error e, s') => (.error e, s') := by
  simp only [Act.on, ExceptT.run_bind, StateT.run_bind]
  cases h : (ExceptT.run a).run s with
  | mk r s' => cases r <;> rfl

lemma on_bind_of_ok {x : α} (h : a.on s = (.ok x, s')) (f : α → Act β) : (a >>= f).on s = (f x).on s' := by
  rw [on_bind, h]

lemma on_bind_of_error {e : Fault} (h : a.on s = (.error e, s')) (f : α → Act β) : (a >>= f).on s = (.error e, s') := by
  rw [on_bind, h]

lemma exists_of_on_bind {y : β} (h : (a >>= f).on s = (.ok y, s'')) :
    ∃ x s', a.on s = (.ok x, s') ∧ (f x).on s' = (.ok y, s'') := by
  rw [on_bind] at h
  cases ha : a.on s with
  | mk r s' =>
    rw [ha] at h
    cases r with
    | error e => cases congrArg Prod.fst h
    | ok x => exact ⟨x, s', rfl, h⟩

lemma on_get (s : Session) : (get : Act Session).on s = (.ok s, s) := rfl

lemma on_tell (es : List Log.Entry) (s : Session) : (tell es).on s = (.ok (), { s with log := s.log ++ es }) := rfl

/-! ## What acts leave alone -/

def Keeps (view : Session → γ) (a : Act α) : Prop := ∀ s, view (a.on s).2 = view s

namespace Keeps

variable {view : Session → γ}

lemma view_eq {r : Except Fault α} (h : Keeps view a) (hon : a.on s = (r, s')) : view s' = view s := by
  have hs := h s
  rwa [hon] at hs

lemma pure (x : α) : Keeps view (pure x : Act α) := fun _ => rfl

lemma get : Keeps view (get : Act Session) := fun _ => rfl

lemma throw (e : Fault) : Keeps view (throw e : Act α) := fun _ => rfl

lemma lift (x : Except Fault α) : Keeps view (liftM x : Act α) := fun _ => rfl

lemma bind (ha : Keeps view a) (hf : ∀ x, Keeps view (f x)) : Keeps view (a >>= f) := by
  intro s
  have has := ha s
  rw [on_bind]
  cases h : a.on s with
  | mk r s' =>
    rw [h] at has
    cases r with
    | error e => exact has
    | ok x => exact (hf x s').trans has

lemma forM {xs : List α} {f : α → Act Unit} (h : ∀ x ∈ xs, Keeps view (f x)) : Keeps view (xs.forM f) := by
  induction xs with
  | nil => exact pure ()
  | cons x xs ih => exact bind (h x (List.mem_cons_self ..)) fun _ => ih (List.forall_mem_cons.1 h).2

end Keeps

/-! ## Acts that agree -/

/-- Do two acts, begun in sessions that are alike in one way, give the same and leave sessions that are alike
in another way? -/
def Related (R R' : Session → Session → Prop) (a b : Act α) : Prop :=
  ∀ s t, R s t → (a.on s).1 = (b.on t).1 ∧ R' (a.on s).2 (b.on t).2

namespace Related

variable {R R' R'' : Session → Session → Prop} {b : Act α}

lemma pure (x : α) : Related R R (pure x : Act α) (pure x) := fun _ _ h => ⟨rfl, h⟩

lemma throw (e : Fault) : Related R R (throw e : Act α) (throw e) := fun _ _ h => ⟨rfl, h⟩

lemma lift (x : Except Fault α) : Related R R (liftM x : Act α) (liftM x) := fun _ _ h => ⟨rfl, h⟩

lemma exists_on {t : Session} {r : Except Fault α} (h : Related R R' a b) (hst : R s t)
    (hon : a.on s = (r, s')) : ∃ t', b.on t = (r, t') ∧ R' s' t' := by
  obtain ⟨hvalue, hR'⟩ := h s t hst
  rw [hon] at hvalue hR'
  exact ⟨(b.on t).2, Prod.ext hvalue.symm rfl, hR'⟩

lemma bind {g : α → Act β} (h : Related R R' a b) (hfg : ∀ x, Related R' R'' (f x) (g x))
    (hR : ∀ s t, R' s t → R'' s t) : Related R R'' (a >>= f) (b >>= g) := by
  intro s t hst
  obtain ⟨hvalue, hR'⟩ := h s t hst
  rw [on_bind, on_bind]
  cases ha : a.on s with
  | mk r s' =>
    cases hb : b.on t with
    | mk r' t' =>
      rw [ha, hb] at hvalue hR'
      obtain rfl : r = r' := hvalue
      cases r with
      | error e => exact ⟨rfl, hR _ _ hR'⟩
      | ok x => exact hfg x s' t' hR'

end Related

end Mender.Run

namespace Mender.Run

open CommandLine

variable {γ : Type} {view : Session → γ} (setting : Setting) (settings : Settings) (c : Registered)
variable (findings : Findings) {cs : List Registered} {files : List String} {known : Findings} {s : Session}

/-! ## Applying a codemod to all files -/

/-- Apply something to one file after the other; nothing that goes wrong with one keeps it from the others. -/
def sweep (apply : Files → String → Except Fault (FileResult × Files)) :
    Files → List String → List (Except Fault FileResult) × Files
  | fs, [] => ([], fs)
  | fs, p :: ps =>
    match apply fs p with
    | .error f => (.error f :: (sweep apply fs ps).1, (sweep apply fs ps).2)
    | .ok (r, gs) => (.ok r :: (sweep apply gs ps).1, (sweep apply gs ps).2)

lemma on_mendFile (path : String) (s : Session) : ∃ log, (mendFile setting settings c findings path).on s =
      match c.codemod.apply s.files setting.dir path findings (wishesOf setting settings) with
      | .error f => (.ok (.error f), { s with log })
      | .ok (r, fs) => (.ok (.ok r), { s with files := fs, log }) := by
  rw [mendFile, on_bind_of_ok (on_get s)]
  cases c.codemod.apply s.files setting.dir path findings (wishesOf setting settings) with
  | error f => exact ⟨_, rfl⟩
  | ok r => exact ⟨_, rfl⟩

lemma on_applyToFile (index : Nat) (path : String) (s : Session) :
    ∃ log, (applyToFile setting settings c findings index path).on s =
      (mendFile setting settings c findings path).on { s with log } := by
  rw [applyToFile, say, on_bind_of_ok (on_tell _ s)]
  split
  · exact ⟨_, rfl⟩
  · exact ⟨_, rfl⟩

def swept (fs : Files) (paths : List String) : List (Except Fault FileResult) × Files :=
  sweep (fun fs p => c.codemod.apply fs setting.dir p findings (wishesOf setting settings)) fs paths

lemma on_applyToFiles (index : Nat) (paths : List String) (s : Session) :
    ∃ log, (applyToFiles setting settings c findings index paths).on s =
      (.ok (swept setting settings c findings s.files paths).1,
        { s with files := (swept setting settings c findings s.files paths).2, log }) := by
  induction paths generalizing index s with
  | nil => exact ⟨s.log, rfl⟩
  | cons path paths ih =>
    obtain ⟨log, hsaid⟩ := on_applyToFile setting settings c findings index path s
    obtain ⟨log, hfile⟩ := on_mendFile setting settings c findings path { s with log }
    rw [← hsaid] at hfile
    rw [applyToFiles, swept, sweep]
    cases happly : c.codemod.apply s.files setting.dir path findings (wishesOf setting settings) with
    | error f =>
      rw [happly] at hfile
      obtain ⟨log', hrest⟩ := ih (index + 1) { s with log }
      rw [on_bind_of_ok hfile, on_bind_of_ok hrest]
      exact ⟨log', rfl⟩
    | ok r =>
      rw [happly] at hfile
      obtain ⟨log', hrest⟩ := ih (index + 1) { s with files := r.2, log }
      rw [on_bind_of_ok hfile, on_bind_of_ok hrest]
      exact ⟨log', rfl⟩

/-! ## What the other phases leave alone -/

/-- A view that shows neither the log nor what the scanner was asked. -/
structure IgnoresTalk (view : Session → γ) : Prop where
  log : ∀ s log, view { s with log } = view s
  scans : ∀ s scans, view { s with scans } = view s

lemma keeps_recordFiles {id : String} (h : ∀ s r, view { s with record := s.record.addFile id r } = view s)
    (rs : List (Except Fault FileResult)) : Keeps view (recordFiles id rs) := by
  induction rs with
  | nil => exact .pure _
  | cons r rs ih =>
    cases r with
    | error f => exact .throw f
    | ok r => exact .bind (fun s => h s r) fun _ => ih

section

variable (h : IgnoresTalk view)
include h

lemma keeps_tell {es : List Log.Entry} : Keeps view (tell es) := fun s => h.log s _

lemma keeps_say {level : Log.Level} {text : String} : Keeps view (say level text) := keeps_tell h

lemma keeps_scan (rules : Nat) (targets : List String) : Keeps view (scan setting rules targets) := by
  unfold scan
  split
  · exact .throw _
  · refine .bind .get fun s => .bind (fun s => h.scans s _) fun _ => ?_
    split
    · exact .lift _
    · exact .bind (keeps_tell h) fun _ => .throw _

lemma keeps_findAll (cs : List Registered) : Keeps view (findAll setting cs) := by
  unfold findAll
  dsimp only
  split
  · exact .pure _
  · exact keeps_scan setting h _ _

lemma keeps_findOwn (known : Findings) : Keeps view (findOwn setting known c) := by
  unfold findOwn
  split
  · dsimp only
    split
    · exact .throw _
    · exact keeps_scan setting h _ _
  · exact .pure _

lemma keeps_hireWorkers : Keeps view (hireWorkers settings) := by
  unfold hireWorkers
  split
  · exact .throw _
  · exact keeps_say h

lemma keeps_startCodemod (known : Findings) : Keeps view (startCodemod setting settings known c) := by
  refine .bind (keeps_say h) fun _ => ?_
  split
  · exact .bind (keeps_say h) fun _ => .pure _
  · exact .bind (keeps_findOwn setting c h known) fun _ => .bind (keeps_hireWorkers settings h) fun _ => .pure _

variable (hstores : ∀ s stores, view { s with stores } = view s)
include hstores

lemma keeps_readStores : Keeps view (readStores setting) := by
  refine .bind .get fun s => ?_
  split
  · exact .pure _
  · exact .bind .get fun s => .bind (keeps_tell h) fun _ => .bind (fun s => hstores s _) fun _ => .pure _

lemma keeps_placeDependencies {id : String} (hplace : ∀ ds ss, Keeps view (placeIn setting id ds [] ss)) :
    Keeps view (placeDependencies setting id) := by
  refine .bind .get fun s => ?_
  dsimp only
  split
  · exact .pure _
  · refine .bind (keeps_readStores setting h hstores) fun ss => ?_
    split
    · exact .bind (keeps_say h) fun _ => .pure _
    · exact .bind (hplace _ _) fun _ => .pure _

lemma keeps_applyCodemod (hfile : ∀ s r, view { s with record := s.record.addFile c.id r } = view s)
    (hswept : ∀ findings, Keeps view (applyToFiles setting settings c findings 0 files))
    (hplace : ∀ ds ss, Keeps view (placeIn setting c.id ds [] ss)) :
    Keeps view (applyCodemod setting settings files known c) := by
  refine .bind (keeps_startCodemod setting settings c h known) fun findings => ?_
  cases findings with
  | none => exact .pure _
  | some findings =>
    refine .bind (hswept findings) fun rs => .bind (keeps_recordFiles hfile rs) fun _ => ?_
    refine .bind (keeps_placeDependencies setting h hstores hplace) fun _ => ?_
    exact .bind (keeps_tell h) fun _ => .bind .get fun _ => keeps_tell h

end

lemma keeps_applyCodemods (h : IgnoresTalk view)
    (hcs : ∀ c ∈ cs, Keeps view (applyCodemod setting settings files known c)) :
    Keeps view (applyCodemods setting settings files known cs) := by
  refine .bind (keeps_tell h) fun _ => ?_
  split
  · exact keeps_say h
  · split
    · exact keeps_say h
    · exact .forM hcs

/-! ## How a run begins -/

lemma readStores_of_none (h : s.stores = none) : (readStores setting).on s =
    (.ok (Project.stores s.files setting.dir), { s with
      stores := some (Project.stores s.files setting.dir)
      log := s.log ++ Project.skipped s.files setting.dir }) := by
  rw [readStores, on_bind_of_ok (on_get s), h]
  rfl

lemma of_startRun {registry : Registry} {setting : Setting} {settings : Settings} {fs : Files}
    
    (h : (startRun registry setting settings).on { files := fs } = (.ok (cs, files, known), s)) :
    registry.select (settings.included.getD []) (settings.excluded.getD []) = .ok cs ∧
      files = CodeFiles.codeFiles fs setting.dir (some settings.pathExcludes) (some settings.pathIncludes) ∧
      s.files = fs ∧ s.stores = some (Project.stores fs setting.dir) ∧ s.record = {} := by
  let view : Session → Files × Option (List Project.Store) × Record := fun s => (s.files, s.stores, s.record)
  have htalk : IgnoresTalk view := ⟨fun _ _ => rfl, fun _ _ => rfl⟩
  rw [startRun, on_bind_of_ok (on_tell ..), on_bind_of_ok (readStores_of_none setting rfl)] at h
  obtain ⟨cs', s', hselect, h⟩ := exists_of_on_bind h
  obtain rfl := congrArg Prod.snd hselect
  rw [on_bind_of_ok (on_tell ..), on_bind_of_ok (on_tell ..), on_bind_of_ok (on_tell ..), on_bind_of_ok (on_get _),
    on_bind_of_ok (on_tell ..)] at h
  obtain ⟨known', s', hfind, h⟩ := exists_of_on_bind h
  have hview := (keeps_findAll setting htalk cs').view_eq hfind
  cases h
  simp only [view, Prod.mk.injEq] at hview
  exact ⟨congrArg Prod.fst hselect, rfl, hview⟩

/-! ## How a run ends -/

/-- The report is written without fail, and nothing more is put on record. -/
theorem on_writeReport (settings : Settings) (words : List String) (elapsed : Nat) (results : List Json)
    (s : Session) : ∃ s', (writeReport settings words elapsed results).on s = (.ok (), s') ∧ s'.record = s.record := by
  unfold writeReport
  split
  · exact ⟨s, rfl, rfl⟩
  · exact ⟨s, rfl, rfl⟩
  · rw [on_bind_of_ok (on_get s)]
    split
    · exact ⟨_, rfl, rfl⟩
    · exact ⟨_, rfl, rfl⟩

end Mender.Run

/-! ## Records

What is put on record for one codemod stays apart from what is put there for the others, and keeps the order in
which it came (`told_addFiles`). What a view of records does not show of a codemod, it does not show after the codemod was
applied either (`Overlooks.keeps_applyCodemod`). -/

namespace Mender.Run

open CommandLine List

variable {α γ : Type} {id key key' : String} (r : Record)

namespace Shelf

lemma get_change_self (s : Shelf α) (f : List α → List α) : (s.change key f).get key = f (s.get key) := by
  rw [get, change, find?_change s key key f (f []), if_pos rfl, get]
  cases (s.find? (·.1 == key)).map (·.2) <;> rfl

lemma get_change_of_ne (h : key' ≠ key) (s : Shelf α) (f : List α → List α) : (s.change key f).get key' = s.get key' := by
  rw [get, change, find?_change s key key' f (f []), if_neg h, get]

end Shelf

def Record.addFiles (id : String) (rs : List FileResult) : Record := rs.foldl (·.addFile id) r

/-- What is told about a codemod: its changes and its failures. -/
def told (id : String) : List ChangeSet × List String := (r.results.get id, r.failures.get id)

lemma told_addFiles (rs : List FileResult) : told (r.addFiles id rs) id =
    ((told r id).1 ++ rs.flatMap (·.changeSets), (told r id).2 ++ rs.flatMap (·.failures)) := by
  induction rs generalizing r with
  | nil => simp [Record.addFiles]
  | cons f rs ih =>
    rw [Record.addFiles, foldl_cons, ← Record.addFiles, ih]
    simp [told, Record.addFile, Record.addDependencies, Record.addFailures, Record.addResults, Shelf.get_change_self]

lemma told_addResults (cs : List ChangeSet) : told (r.addResults id cs) id = ((told r id).1 ++ cs, (told r id).2) := by
  simp [told, Record.addResults, Shelf.get_change_self]

lemma of_recordFiles {rs : List (Except Fault FileResult)} {s s' : Session}
    (h : (recordFiles id rs).on s = (.ok (), s')) :
    ∃ fs, rs = fs.map .ok ∧ s' = { s with record := s.record.addFiles id fs } := by
  induction rs generalizing s with
  | nil =>
    cases h
    exact ⟨[], rfl, rfl⟩
  | cons r rs ih =>
    cases r with
    | error f => cases congrArg Prod.fst h
    | ok r =>
      obtain ⟨fs, rfl, rfl⟩ := ih h
      exact ⟨r :: fs, rfl, rfl⟩

/-! ## What codemods leave alone -/

lemma ignoresTalk_record (view : Record → γ) : IgnoresTalk fun s : Session => view s.record :=
  ⟨fun _ _ => rfl, fun _ _ => rfl⟩

/-- A view of records that does not show what is put on record for a codemod. -/
structure Overlooks (id : String) (view : Record → γ) : Prop where
  addFile : ∀ r f, view (r.addFile id f) = view r
  addResults : ∀ r cs, view (r.addResults id cs) = view r

lemma overlooks_told (h : key ≠ id) : Overlooks id (told · key) where
  addFile r f := by
    simp [told, Record.addFile, Record.addDependencies, Record.addFailures, Record.addResults, Shelf.get_change_of_ne h]
  addResults r cs := by simp [told, Record.addResults, Shelf.get_change_of_ne h]

namespace Overlooks

variable {view : Record → γ} {setting : Setting} {settings : Settings} {files : List String} {known : Findings}
  {c : Registered} {cs : List Registered}

lemma keeps_placeIn (h : Overlooks id view) (ds : List Dependency) (before rest : List Project.Store) :
    Keeps (fun s => view s.record) (placeIn setting id ds before rest) := by
  induction rest generalizing before with
  | nil => exact .pure _
  | cons e rest ih =>
    refine .bind .get fun s => .bind (fun _ => rfl) fun _ => ?_
    split
    · exact .throw _
    · exact .bind (fun s => h.addResults s.record _) fun _ => .pure _
    · exact ih _

lemma keeps_applyCodemod (h : Overlooks c.id view) :
    Keeps (fun s => view s.record) (applyCodemod setting settings files known c) := by
  refine Run.keeps_applyCodemod setting settings c (ignoresTalk_record view) (fun _ _ => rfl)
    (fun s r => h.addFile s.record r) (fun findings s => ?_) fun ds ss => h.keeps_placeIn ds [] ss
  obtain ⟨log, hon⟩ := on_applyToFiles setting settings c findings 0 files s
  rw [hon]

lemma keeps_applyCodemods (h : ∀ c ∈ cs, Overlooks c.id view) :
    Keeps (fun s => view s.record) (applyCodemods setting settings files known cs) :=
  Run.keeps_applyCodemods setting settings (ignoresTalk_record view) fun c hc => (h c hc).keeps_applyCodemod

end Overlooks

end Mender.Run
