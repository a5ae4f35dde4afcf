import Mender.Proofs.Registry
import Mender.Proofs.Run.Placing
import Mender.Proofs.Run.Sweeps

/-!
# Trials

A trial does all that a run does, but it writes no file except the report (`get?_perform_trial`). What it puts on
record is what the run would put on record, if only one codemod is applied and if nothing that this codemod writes
is read again: the scripts that list requirements, and the files that declare a package open when imports are put
in order (`trial_foretells_run`).
-/

namespace Mender.Run

open CommandLine Project Import.Section List Mender.Path Files

variable {c : Registered} {files : List String} {known findings : Findings} {registry : Registry} {setting : Setting}
  {settings : Settings} {fs gs : Files} {dir p n : String} {s t s₁ : Session}
variable (id : String)

/-! ## A trial writes nothing but the report -/

lemma ignoresTalk_files : IgnoresTalk Session.files := ⟨fun _ _ => rfl, fun _ _ => rfl⟩

lemma files_write_trial (e : Store) (ds : List Dependency) : (write fs dir e ds true).files = fs :=
  write_eq.2.trans (Plan.carryOut_trial _)

lemma keeps_files_startRun (registry : Registry) (setting : Setting) (settings : Settings) :
    Keeps Session.files (startRun registry setting settings) := by
  unfold startRun
  refine .bind (keeps_tell ignoresTalk_files) fun _ => ?_
  refine .bind (keeps_readStores setting ignoresTalk_files fun _ _ => rfl) fun _ => ?_
  refine .bind (.lift _) fun cs => .bind (keeps_tell ignoresTalk_files) fun _ => ?_
  refine .bind (keeps_tell ignoresTalk_files) fun _ => .bind (keeps_tell ignoresTalk_files) fun _ => ?_
  refine .bind .get fun s => .bind (keeps_tell ignoresTalk_files) fun _ => ?_
  exact .bind (keeps_findAll setting ignoresTalk_files cs) fun _ => .pure _

lemma get?_writeReport (h : ∀ out, settings.output = some out → resolved p ≠ resolved out)
    (words : List String) (elapsed : Nat) (results : List Json) :
    Keeps (fun s => s.files.get? p) (writeReport settings words elapsed results) := by
  intro s
  unfold writeReport
  split
  · rfl
  · rfl
  · rename_i out _ hout
    rw [on_bind_of_ok (on_get s)]
    dsimp only
    split
    · rename_i fs hwrite
      obtain rfl : s.files.putText out _ = fs := (Option.ite_none_left_eq_some.1 hwrite).2 |> Option.some.inj
      exact get?_put_of_ne (h out hout) _
    · rfl

section Files

variable (h : setting.isTrial = true)
include h

lemma keeps_files_placeIn (id : String) (ds : List Dependency) (before rest : List Store) :
    Keeps Session.files (placeIn setting id ds before rest) := by
  intro s
  induction rest generalizing before s with
  | nil => rfl
  | cons e rest ih =>
    have hfiles : (answered s before (write s.files setting.dir e ds setting.isTrial) rest).files = s.files := by
      rw [h]
      exact files_write_trial e ds
    rw [placeIn_cons]
    dsimp only
    split
    · exact hfiles
    · exact hfiles
    · rw [ih, hfiles]

lemma keeps_files_applyToFiles (c : Registered) (findings : Findings) (index : Nat) (files : List String) :
    Keeps Session.files (applyToFiles setting settings c findings index files) := by
  intro s
  obtain ⟨log, hon⟩ := on_applyToFiles setting settings c findings index files s
  have htrial : (wishesOf setting settings).isTrial = true := h
  rw [hon, swept, sweep_trial htrial]

lemma keeps_files_applyCodemods (files : List String) (known : Findings) (cs : List Registered) :
    Keeps Session.files (applyCodemods setting settings files known cs) :=
  keeps_applyCodemods setting settings ignoresTalk_files fun c _ =>
    keeps_applyCodemod setting settings c ignoresTalk_files (fun _ _ => rfl) (fun _ _ => rfl)
      (fun findings => keeps_files_applyToFiles h c findings 0 files) fun ds ss => keeps_files_placeIn h c.id ds [] ss

lemma get?_perform_trial (registry : Registry) (words : List String) (elapsed : Nat)
    (hp : ∀ out, settings.output = some out → resolved p ≠ resolved out) :
    Keeps (fun s => s.files.get? p) (perform registry setting settings words elapsed) := by
  have hkeeps {α : Type} {a : Act α} (ha : Keeps Session.files a) : Keeps (fun s => s.files.get? p) a :=
    fun s => congrArg (fun fs : Files => fs.get? p) (ha s)
  unfold perform
  refine .bind (hkeeps (keeps_files_startRun registry setting settings)) fun ⟨cs, files, known⟩ => ?_
  refine .bind (hkeeps (keeps_files_applyCodemods h files known cs)) fun _ => .bind .get fun s => ?_
  refine .bind (get?_writeReport hp _ _ _) fun _ => .bind .get fun s => ?_
  exact hkeeps (keeps_tell ignoresTalk_files)

end Files

/-! ## What a trial puts on record -/

/-- Are two sessions alike but for the files and the log? -/
structure Twins (s t : Session) : Prop where
  stores : s.stores = t.stores
  record : s.record = t.record
  scans : s.scans = t.scans

/-- Are two sessions alike but for files that no store is about? -/
structure Ready (s t : Session) : Prop extends Twins s t where
  contents : ∃ ss, s.stores = some ss ∧ ∀ e ∈ ss, s.files.get? e.file = t.files.get? e.file

def Both (s s' t' : Session) : Prop := s = s' ∧ s = t'

lemma Both.twins {s' t' : Session} (h : Both s s' t') : Twins s' t' := by
  obtain ⟨rfl, rfl⟩ := h
  exact ⟨rfl, rfl, rfl⟩

lemma write_congr {e : Store} (h : fs.get? e.file = gs.get? e.file) (dir : String) (ds : List Dependency) (a b : Bool) :
    (write fs dir e ds a).result = (write gs dir e ds b).result ∧
      (write fs dir e ds a).store = (write gs dir e ds b).store := by
  rw [write_eq.1, write_eq.1, h, store_write, store_write]
  exact ⟨rfl, rfl⟩

lemma related_tell (es : List Log.Entry) : Related Twins Twins (tell es) (tell es) :=
  fun _ _ h => ⟨rfl, h.stores, h.record, h.scans⟩

lemma related_placeIn (ds : List Dependency) (a b : Bool) (before rest : List Store)
    (h : Twins s t) (hrest : ∀ e ∈ rest, s.files.get? e.file = t.files.get? e.file) :
    ((placeIn { setting with isTrial := a } id ds before rest).on s).1 =
        ((placeIn { setting with isTrial := b } id ds before rest).on t).1 ∧
      Twins ((placeIn { setting with isTrial := a } id ds before rest).on s).2
        ((placeIn { setting with isTrial := b } id ds before rest).on t).2 := by
  induction rest generalizing before s t with
  | nil => exact ⟨rfl, h⟩
  | cons e rest ih =>
    obtain ⟨hresult, hstore⟩ := write_congr (hrest e (.head _)) setting.dir ds a b
    rw [placeIn_cons, placeIn_cons]
    dsimp only
    cases hb : (write t.files setting.dir e ds b).result with
    | error f =>
      rw [hresult, hb]
      exact ⟨rfl, by simp only [answered, hstore], h.record, h.scans⟩
    | ok change =>
      rw [hresult, hb]
      cases change with
      | some c => exact ⟨rfl, by simp only [answered, hstore], by simp only [answered, h.record], h.scans⟩
      | none =>
        rw [hstore]
        refine ih _ ⟨by simp only [answered, hstore], h.record, h.scans⟩ fun e' he' => ?_
        -- a store that passes the packages on has left the files alone
        simp only [answered, files_of_none (hresult.trans hb), files_of_none hb]
        exact hrest e' (.tail _ he')

lemma related_placeDependencies (a b : Bool) : Related Ready Twins (placeDependencies { setting with isTrial := a } id)
      (placeDependencies { setting with isTrial := b } id) := by
  intro s t h
  obtain ⟨ss, hss, hcontents⟩ := h.contents
  rw [placeDependencies, placeDependencies, on_bind_of_ok (on_get s), on_bind_of_ok (on_get t), ← h.record]
  dsimp only
  split
  · exact ⟨rfl, h.toTwins⟩
  · rw [on_bind_of_ok (readStores_of_some hss), on_bind_of_ok (readStores_of_some (h.stores ▸ hss))]
    split
    · exact ⟨rfl, h.stores, h.record, h.scans⟩
    · have hplaced : Related (fun s' t' => s' = s ∧ t' = t) Twins
          (placeIn { setting with isTrial := a } id (s.record.dependencies.get id) [] ss)
          (placeIn { setting with isTrial := b } id (s.record.dependencies.get id) [] ss) := by
        rintro s' t' ⟨rfl, rfl⟩
        exact related_placeIn id _ a b [] ss h.toTwins hcontents
      exact hplaced.bind (fun _ => .pure _) (fun _ _ h => h) s t ⟨rfl, rfl⟩

lemma related_recordFiles (rs : List (Except Fault FileResult)) :
    Related Ready Ready (recordFiles id rs) (recordFiles id rs) := by
  induction rs with
  | nil => exact .pure _
  | cons r rs ih =>
    cases r with
    | error f => exact .throw f
    | ok r =>
      have hadded : Related Ready Ready (modify fun s => { s with record := s.record.addFile id r } : Act Unit)
          (modify fun s => { s with record := s.record.addFile id r }) :=
        fun s t h => ⟨rfl, ⟨h.stores, congrArg (·.addFile id r) h.record, h.scans⟩, h.contents⟩
      exact hadded.bind (fun _ => ih) fun _ _ h => h

lemma related_finishCodemod (setting : Setting) (c : Registered) (rs : List (Except Fault FileResult)) (a b : Bool) :
    Related Ready Twins (finishCodemod { setting with isTrial := a } c rs)
      (finishCodemod { setting with isTrial := b } c rs) := by
  unfold finishCodemod
  refine (related_recordFiles c.id rs).bind (fun _ => ?_) fun _ _ h => h.toTwins
  refine (related_placeDependencies c.id a b).bind (fun _ => ?_) fun _ _ h => h
  refine (related_tell _).bind (fun _ => ?_) fun _ _ h => h
  intro s t h
  rw [on_bind_of_ok (on_get s), on_bind_of_ok (on_get t), h.record]
  exact related_tell _ s t h

lemma related_applyCodemod (setting : Setting) (settings : Settings) {ss : List Store}
    (hc : c.codemod ∈ Catalogue.all) (hnodup : (files.map resolved).Nodup) (hss : s.stores = some ss)
    (hswept : ∀ findings s₁, (startCodemod setting settings known c).on s = (.ok (some findings), s₁) →
      let fs := (swept { setting with isTrial := false } settings c findings s.files files).2
      SameSight c.codemod.LooksAt fs s.files ∧ ∀ e ∈ ss, fs.get? e.file = s.files.get? e.file) :
    Related (Both s) Twins (applyCodemod { setting with isTrial := true } settings files known c)
      (applyCodemod { setting with isTrial := false } settings files known c) := by
  rintro _ _ ⟨rfl, rfl⟩
  have hstart (b : Bool) : startCodemod { setting with isTrial := b } settings known c =
      startCodemod setting settings known c := rfl
  have hfiles := keeps_startCodemod setting settings c ignoresTalk_files known s
  have hstores := keeps_startCodemod setting settings c ignoresTalk_stores known s
  rw [applyCodemod, applyCodemod, hstart true, hstart false, on_bind, on_bind]
  cases hon : (startCodemod setting settings known c).on s with
  | mk r s₁ =>
    rw [hon] at hfiles hstores
    cases r with
    | error f => exact ⟨rfl, rfl, rfl, rfl⟩
    | ok findings =>
      cases findings with
      | none => exact ⟨rfl, rfl, rfl, rfl⟩
      | some findings =>
        obtain ⟨hsight, hcontents⟩ := hswept findings s₁ hon
        obtain ⟨log, htrial⟩ := on_applyToFiles { setting with isTrial := true } settings c findings 0 files s₁
        obtain ⟨log', hreal⟩ := on_applyToFiles { setting with isTrial := false } settings c findings 0 files s₁
        rw [show s₁.files = s.files from hfiles] at htrial hreal
        have hresults : (swept { setting with isTrial := true } settings c findings s.files files).1 =
            (swept { setting with isTrial := false } settings c findings s.files files).1 :=
          results_sweep_trial (wishesOf setting settings) (fun _ h => blind_of_sameSight hc h) hnodup hsight
        have hunwritten : (swept { setting with isTrial := true } settings c findings s.files files).2 = s.files := by
          rw [swept, sweep_trial rfl]
        dsimp only
        rw [on_bind_of_ok htrial, on_bind_of_ok hreal, hresults]
        refine related_finishCodemod setting c _ true false _ _
          ⟨⟨rfl, rfl, rfl⟩, ss, hstores.trans hss, fun e he => ?_⟩
        exact (congrArg (·.get? e.file) hunwritten).trans (hcontents e he).symm

/-! ## Trials and runs -/

variable (registry setting settings fs)

/-- A run that mends files, but writes no packages and no report. -/
def mendOnly : Act Unit := do
  let (cs, files, known) ← startRun registry setting settings
  tell [Log.section_ "scanning"]
  cs.forM fun c => do
    match ← startCodemod setting settings known c with
    | none => return
    | some findings =>
      let _ ← applyToFiles setting settings c findings 0 files
      return

/-- The files as the codemods of a run leave them, before any package is placed. -/
def mended : Files := ((mendOnly registry setting settings).on { files := fs }).2.files

lemma keys_mended : (mended registry setting settings fs).entries.map (·.1) = fs.entries.map (·.1) := by
  have htalk : IgnoresTalk fun s : Session => s.files.entries.map (·.1) := ⟨fun _ _ => rfl, fun _ _ => rfl⟩
  have hstart : Keeps (fun s => s.files.entries.map (·.1)) (startRun registry setting settings) :=
    fun s => congrArg (·.entries.map (·.1)) (keeps_files_startRun registry setting settings s)
  have hswept (c : Registered) (findings : Findings) (files : List String) :
      Keeps (fun s => s.files.entries.map (·.1)) (applyToFiles setting settings c findings 0 files) := by
    intro s
    obtain ⟨log, hon⟩ := on_applyToFiles setting settings c findings 0 files s
    rw [hon]
    exact samePaths_sweep.keys
  have hkeeps : Keeps (fun s => s.files.entries.map (·.1)) (mendOnly registry setting settings) := by
    refine hstart.bind fun ⟨cs, files, known⟩ => .bind (keeps_tell htalk) fun _ => .forM fun c _ => ?_
    refine .bind (keeps_startCodemod setting settings c htalk known) fun findings => ?_
    cases findings with
    | none => exact .pure _
    | some findings => exact .bind (hswept c findings files) fun _ => .pure _
  exact hkeeps { files := fs }

variable {registry setting settings fs}

lemma get?_mended_of_name (h : ∀ q ∈ fs.entries.map (·.1), name q ≠ n) (hn : n ≠ "..")
    (hp : name p = n) : (mended registry setting settings fs).get? p = fs.get? p := by
  rw [get?_of_name h hn hp]
  rw [← keys_mended registry setting settings fs] at h
  exact get?_of_name h hn hp

lemma mended_eq (hstart : (startRun registry setting settings).on { files := fs } = (.ok ([c], files, known), s))
    (hc : (startCodemod setting settings known c).on { s with log := s.log ++ [Log.section_ "scanning"] } =
      (.ok (some findings), s₁)) :
    mended registry setting settings fs = (swept setting settings c findings s₁.files files).2 := by
  obtain ⟨log, hswept⟩ := on_applyToFiles setting settings c findings 0 files s₁
  have hone (f : Registered → Act Unit) : [c].forM f = f c >>= fun _ => pure () := rfl
  rw [mended, mendOnly, on_bind_of_ok hstart]
  dsimp only
  rw [on_bind_of_ok (on_tell ..)]
  rw [hone, on_bind, on_bind_of_ok hc]
  dsimp only
  rw [on_bind_of_ok hswept]
  rfl

lemma undisturbed_of_swept {excludes includes : Option (List String)}
    (hscripts : ∀ p, name p = "setup.py" → (swept setting settings c findings fs
      (CodeFiles.codeFiles fs setting.dir excludes includes)).2.get? p = fs.get? p)
    (hpackages : ∀ p, c.codemod.LooksAt p → ((swept setting settings c findings fs
      (CodeFiles.codeFiles fs setting.dir excludes includes)).2.get? p).map saysOpen = (fs.get? p).map saysOpen) :
    let fs' := (swept setting settings c findings fs (CodeFiles.codeFiles fs setting.dir excludes includes)).2
    SameSight c.codemod.LooksAt fs' fs ∧ ∀ e ∈ stores fs setting.dir, fs'.get? e.file = fs.get? e.file := by
  intro fs'
  refine ⟨⟨samePaths_sweep, hpackages⟩, fun e he => ?_⟩
  by_cases hkind : e.kind = .script
  · have hname : name e.file = e.kind.fileName := isNamed_of_mem_stores he
    rw [hkind] at hname
    exact hscripts e.file hname
  · refine get?_sweep_of_notMem fun hmem => ?_
    obtain ⟨q, hq, hresolved⟩ := mem_map.1 hmem
    exact hkind ((isNamed_of_mem_stores he).eq_script (suffix_of_mem_codeFiles hq) hresolved.symm)

lemma on_perform (setting : Setting) {cs : List Registered}
    (hstart : (startRun registry setting settings).on { files := fs } = (.ok (cs, files, known), s))
    (words : List String) (elapsed : Nat) :
    ((perform registry setting settings words elapsed).on { files := fs }).1 =
        ((applyCodemods setting settings files known cs).on s).1 ∧
      ((perform registry setting settings words elapsed).on { files := fs }).2.record =
        ((applyCodemods setting settings files known cs).on s).2.record := by
  rw [perform, on_bind_of_ok hstart]
  dsimp only
  cases hon : (applyCodemods setting settings files known cs).on s with
  | mk r s₁ =>
    cases r with
    | error f =>
      rw [on_bind_of_error hon]
      exact ⟨rfl, rfl⟩
    | ok u =>
      rw [on_bind_of_ok hon, on_bind_of_ok (on_get s₁)]
      obtain ⟨s₂, hwrite, hrecord⟩ := on_writeReport settings words elapsed (s₁.record.compile cs) s₁
      rw [on_bind_of_ok hwrite]
      exact ⟨rfl, hrecord⟩

lemma related_applyCodemods (h : Related (Both { s with log := s.log ++ [Log.section_ "scanning"] }) Twins
      (applyCodemod { setting with isTrial := true } settings files known c)
      (applyCodemod { setting with isTrial := false } settings files known c)) :
    Related (Both s) Twins (applyCodemods { setting with isTrial := true } settings files known [c])
      (applyCodemods { setting with isTrial := false } settings files known [c]) := by
  have htold : Related (Both s) (Both { s with log := s.log ++ [Log.section_ "scanning"] })
      (tell [Log.section_ "scanning"]) (tell [Log.section_ "scanning"]) := by
    rintro _ _ ⟨rfl, rfl⟩
    exact ⟨rfl, rfl, rfl⟩
  unfold applyCodemods
  refine htold.bind (fun _ => ?_) fun _ _ h => h.twins
  split
  · exact fun _ _ h => related_tell _ _ _ h.twins
  · exact h.bind (fun _ => .pure _) fun _ _ h => h

lemma related_of_startRun (hfs : fs.Sound)
    (hon : (startRun Catalogue.registry setting settings).on { files := fs } = (.ok ([c], files, known), s))
    (hscripts : ∀ p, name p = "setup.py" →
      (mended Catalogue.registry { setting with isTrial := false } settings fs).get? p = fs.get? p)
    (hpackages : ∀ p, c.codemod.LooksAt p →
      ((mended Catalogue.registry { setting with isTrial := false } settings fs).get? p).map saysOpen =
        (fs.get? p).map saysOpen) :
    Related (Both s) Twins (applyCodemods { setting with isTrial := true } settings files known [c])
      (applyCodemods { setting with isTrial := false } settings files known [c]) := by
  obtain ⟨hselect, rfl, hfiles, hstores, -⟩ := of_startRun hon
  have hmem := Catalogue.mem_all_of_select hselect (mem_singleton_self c)
  refine related_applyCodemods (related_applyCodemod setting settings hmem (nodup_codeFiles hfs) hstores ?_)
  intro findings s₁ hc
  have hfiles₁ : s₁.files = fs := by
    have hkept := keeps_startCodemod setting settings c ignoresTalk_files known
    exact (hkept.view_eq hc).trans hfiles
  have hmended : mended Catalogue.registry { setting with isTrial := false } settings fs = _ := mended_eq hon hc
  rw [hmended, hfiles₁] at hscripts hpackages
  dsimp only
  rw [hfiles]
  exact undisturbed_of_swept hscripts hpackages

/-- **A trial foretells the run.** With one codemod, a trial gives what the run gives and puts the same on record,
if the codemod rewrites no script that lists requirements and does not change what it sees of other files. With any
number of codemods, a trial writes nothing but the report. -/
theorem trial_foretells_run (fs : Files) (setting : Setting) (settings : Settings) :
    (∀ (c : Registered) (words words' : List String) (elapsed elapsed' : Nat), fs.Sound →
      Catalogue.registry.select (settings.included.getD []) (settings.excluded.getD []) = .ok [c] →
      let after := mended Catalogue.registry { setting with isTrial := false } settings fs
      (∀ p, name p = "setup.py" → after.get? p = fs.get? p) →
      (∀ p, c.codemod.LooksAt p → (after.get? p).map saysOpen = (fs.get? p).map saysOpen) →
      let trial := (perform Catalogue.registry { setting with isTrial := true } settings words elapsed).on { files := fs }
      let real := (perform Catalogue.registry { setting with isTrial := false } settings words' elapsed').on { files := fs }
      trial.1 = real.1 ∧ trial.2.record = real.2.record) ∧
    ∀ (registry : Registry) (words : List String) (elapsed : Nat) (p : String),
      (∀ out, settings.output = some out → resolved p ≠ resolved out) →
      ((perform registry { setting with isTrial := true } settings words elapsed).on { files := fs }).2.files.get? p =
        fs.get? p := by
  refine ⟨?_, fun registry words elapsed p hp => get?_perform_trial rfl registry words elapsed hp { files := fs }⟩
  intro c words words' elapsed elapsed' hfs hselect after hscripts hpackages trial real
  have hstart (b : Bool) : startRun Catalogue.registry { setting with isTrial := b } settings =
      startRun Catalogue.registry setting settings := rfl
  cases hon : (startRun Catalogue.registry setting settings).on { files := fs } with
  | mk r s =>
    cases r with
    | error f =>
      have hfails (b : Bool) (words : List String) (elapsed : Nat) :
          (perform Catalogue.registry { setting with isTrial := b } settings words elapsed).on { files := fs } =
            (.error f, s) := by
        rw [perform, hstart b]
        exact on_bind_of_error hon _
      have htrial : trial = (.error f, s) := hfails true words elapsed
      have hreal : real = (.error f, s) := hfails false words' elapsed'
      rw [htrial, hreal]
      exact ⟨rfl, rfl⟩
    | ok begun =>
      obtain ⟨cs, files, known⟩ := begun
      obtain ⟨hcs, -⟩ := of_startRun hon
      obtain rfl : [c] = cs := Except.ok.inj (hselect.symm.trans hcs)
      obtain ⟨hresult, htwins⟩ := related_of_startRun hfs hon hscripts hpackages s s ⟨rfl, rfl⟩
      obtain ⟨htrial, htrialRecord⟩ := on_perform { setting with isTrial := true } hon words elapsed
      obtain ⟨hreal, hrealRecord⟩ := on_perform { setting with isTrial := false } hon words' elapsed'
      exact ⟨htrial.trans (hresult.trans hreal.symm), htrialRecord.trans (htwins.record.trans hrealRecord.symm)⟩

def xmlProject : Files :=
  putText (putText {} "proj/a.py" "import xml.sax as s\ns.parse(1)\n") "proj/requirements.txt" "six\n"

def xmlOnly : Settings := { included := some ["use-defusedxml"], pathExcludes := [] }

lemma select_xmlOnly : Catalogue.registry.select (xmlOnly.included.getD []) (xmlOnly.excluded.getD []) =
    .ok [⟨"pixee", Catalogue.defuseXml⟩] := by
  rfl

/-- A trial tells of both files that the run changes. -/
theorem xmlProject_foretold : xmlProject.Sound ∧
      ((perform Catalogue.registry { dir := "proj", isTrial := true } xmlOnly [] 0).on
        { files := xmlProject }).2.record.changedFiles = ["a.py", "requirements.txt"] ∧
      ((perform Catalogue.registry { dir := "proj" } xmlOnly [] 0).on
        { files := xmlProject }).2.record.changedFiles = ["a.py", "requirements.txt"] := by
  have hfs : xmlProject.Sound := (sound_empty.put _ _).put _ _
  have htold : ((perform Catalogue.registry { dir := "proj", isTrial := true } xmlOnly [] 0).on
      { files := xmlProject }).2.record.changedFiles = ["a.py", "requirements.txt"] := by
    decide +kernel
  refine ⟨hfs, htold, ?_⟩
  have hscripts : ∀ p, name p = "setup.py" →
      (mended Catalogue.registry { dir := "proj" } xmlOnly xmlProject).get? p = xmlProject.get? p :=
    fun p hp => get?_mended_of_name (by decide +kernel) (by decide) hp
  have hsame := (trial_foretells_run xmlProject { dir := "proj" } xmlOnly).1 _ [] [] 0 0 hfs select_xmlOnly hscripts
    fun p hp => absurd hp.1 (by decide)
  have hrecord := hsame.2
  dsimp only at hrecord
  rw [← hrecord]
  exact htold

/-- A package whose first module declares a namespace. -/
def openPackage : Files :=
  putText (putText {} "proj/apkg/__init__.py"
    "import os  # __import__('pkg_resources').declare_namespace(__name__)\nimport abc\n")
    "proj/z.py" "import zzz\nimport apkg.sub\n"

def orderOnly : Settings := { included := some ["order-imports"], pathExcludes := [] }

lemma select_orderOnly : Catalogue.registry.select (orderOnly.included.getD []) (orderOnly.excluded.getD []) =
    .ok [⟨"pixee", Catalogue.orderImports⟩] := by
  rfl

def shownDiffs (entry : Json) : List String :=
  match entry.get? "changeset" with
  | some (.arr changes) => changes.filterMap fun change => match change.get? "diff" with
    | some (.str diff) => some diff
    | _ => none
  | _ => []

/-- Ordering imports drops the comment, and the files that come later are ordered as if the package were closed.
A trial does not tell of that. -/
theorem openPackage_not_foretold : openPackage.Sound ∧
      Catalogue.registry.select (orderOnly.included.getD []) (orderOnly.excluded.getD []) =
        .ok [⟨"pixee", Catalogue.orderImports⟩] ∧
      (∀ p, name p = "setup.py" →
        (mended Catalogue.registry { dir := "proj" } orderOnly openPackage).get? p = openPackage.get? p) ∧
      ((perform Catalogue.registry { dir := "proj", isTrial := true } orderOnly [] 0).on
          { files := openPackage }).2.record.compile [⟨"pixee", Catalogue.orderImports⟩] ≠
        ((perform Catalogue.registry { dir := "proj" } orderOnly [] 0).on
          { files := openPackage }).2.record.compile [⟨"pixee", Catalogue.orderImports⟩] := by
  refine ⟨(sound_empty.put _ _).put _ _, select_orderOnly, fun p hp => ?_, fun hsame => ?_⟩
  · exact get?_mended_of_name (by decide +kernel) (by decide) hp
  · have hdiffs := congrArg (map shownDiffs) hsame
    revert hdiffs
    decide +kernel

end Mender.Run
