import Mender.Proofs.Codemod.Noted
import Mender.Proofs.Edit.Arguments

/-!
# Calls that are mended inside calls

Codemods that mend what was found go through a module from the inside out. Several of them take the arguments of a call
from the call as it was found, so what was mended inside these arguments is lost.

* `exists_follows` — each codemod follows its remedy;
* `fixed_in_place_iff` — when all calls that were found are mended.
-/

namespace Mender

open Syntax Edit List Option Node Catalogue

variable {n old new n' d a a' x : Node} {way : List (Slot × Nat)} {R : Node → Syntax.Edit → Prop} {ws : List NewArg}

namespace Codemod

/-! ## What is prescribed -/

/-- What a codemod prescribes for a call. -/
structure Remedy where
  /-- the keyword arguments that the new call should have -/
  wishes : Node → List NewArg
  /-- the new call, made from the call as it was found -/
  prescribe : Node → Except Fault Node
  /-- the places of the new call that are filled from the call as it was found -/
  lost : Slot → Bool

namespace Remedy

/-- Arguments are set by keyword. -/
def keywords (wishes : Node → List NewArg) : Remedy where
  wishes := wishes
  prescribe call := do return call.setList .args (← replaceArgs (call.list .args) (wishes call))
  lost s := s == .args

/-- The call is handed to a function that guards it. -/
def guarded : Remedy where
  wishes _ := []
  prescribe call := retarget call "safe_command" (some "run") (some (arg (call.get .func) :: call.list .args))
  lost _ := true

/-- Is the call what is prescribed for another one, marks apart? The function counts only where it is prescribed. -/
def Prescribes (remedy : Remedy) (call call' : Node) : Prop :=
  call'.kind = .call ∧ ∃ p, remedy.prescribe call = .ok p ∧ (call'.list .args).map cleared = (p.list .args).map cleared ∧
    (remedy.lost .func = true → (call'.get .func).cleared = (p.get .func).cleared)

/-- A call is mended by what is prescribed, in the places that are filled from the call as it was found; the others are
as they were rebuilt. -/
structure Mending (remedy : Remedy) (old new n' : Node) : Prop where
  kind : n'.kind = .call
  places : ∃ p, remedy.prescribe old = .ok p ∧ ∀ s, n'.get s = if remedy.lost s then p.get s else new.get s

end Remedy

structure Follows (c : Codemod) (remedy : Remedy) (mend : Task → Node → Node → Work Node) : Prop where
  quiet : ∀ t old new, (mend t old new).Quiet
  settled : c ≠ useRestrictedParser → c ≠ guardProcesses → ∀ t old new,
    (mend t old new).Keeps fun s => s.needed = [] ∧ s.superfluous = []
  work : ∀ t r, c.work t = .ok r → t.command (t.atFindings (mend t)) = .ok r
  lost : remedy.lost .args = true
  mending : ∀ t {old new n' s s'}, old.kind = .call ∨ old.kind = .assign → new.kind = old.kind →
    new.parts.length = old.parts.length → (mend t old new).run s = .ok (n', s') →
    old.kind = .call ∧ remedy.Mending old new n'

lemma mending_withKeywords {wishes : Node → List NewArg} (hkind : old.kind = .call ∨ old.kind = .assign)
    (hnew : new.kind = old.kind) (hlength : new.parts.length = old.parts.length)
    (h : withKeywords (wishes old) old new = .ok n') :
    old.kind = .call ∧ (Remedy.keywords wishes).Mending old new n' := by
  rw [withKeywords] at h
  rcases hkind with hkind | hkind
  · have hhas : old.has .args = true := by rw [has, hkind]; rfl
    rw [hhas] at h
    obtain ⟨args, hargs, h⟩ := of_bind h
    have hhas' : new.has .args = true := by rw [has, hnew, hkind]; rfl
    rw [setArgs, if_pos hhas'] at h
    obtain rfl := eq_of_sound h
    refine ⟨hkind, by rw [setList, kind_set, hnew, hkind], old.setList .args args, ?_, fun s => ?_⟩
    · change (do return old.setList .args (← replaceArgs (old.list .args) (wishes old)) : Except Fault Node) = _
      rw [hargs]
      rfl
    · by_cases hs : s = .args
      · subst hs
        exact (get_set ..).trans (by rw [hnew, hlength, ← get_set]; rfl)
      · rw [show (Remedy.keywords wishes).lost s = false from beq_false_of_ne hs]
        exact get_set_of_ne hs _
  · have hhas : old.has .args = false := by rw [has, hkind]; rfl
    rw [hhas] at h
    cases h

lemma retarget_eq {call : Node} (hkind : call.kind = .call) {target func : String} (hfunc : func.isEmpty = false)
    (as : List Node) : retarget call target (some func) (some (a :: as)) = (do
      let attr ← expression func
      let target ← expression target
      (make .call [(.func, make .member [(.value, target), (.attr, attr)]),
        (.args, seq (a :: as))]).sound) := by
  have hfilter : (some func).filter (! ·.isEmpty) = some func := by
    rw [Option.filter, hfunc]
    rfl
  unfold retarget
  rw [hkind, if_neg (by decide), hfilter]

lemma mending_guarded (hkind : old.kind = .call) (hnew : new.kind = .call)
    (h : retarget new "safe_command" (some "run") (some (arg (old.get .func) :: old.list .args)) = .ok n') :
    Remedy.guarded.Mending old new n' := by
  -- the new call is made from nothing but the function and the arguments that were found
  have heq : Remedy.guarded.prescribe old = .ok n' := by
    rw [← h, retarget_eq hnew (by decide), Remedy.guarded]
    dsimp only
    rw [retarget_eq hkind (by decide)]
  refine ⟨?_, n', heq, fun s => (if_pos rfl).symm⟩
  rw [retarget_eq hnew (by decide)] at h
  obtain ⟨attr, -, h⟩ := of_bind h
  obtain ⟨target, -, h⟩ := of_bind h
  rw [eq_of_sound h, kind_make]

/-- The codemods that mend calls, with what they prescribe. -/
def remedies : List (Codemod × Remedy) :=
  [(verifyCertificates, .keywords fun _ => [⟨"verify", "True", false⟩]),
    (enableAutoescape, .keywords fun _ => [⟨"autoescape", "True", true⟩]),
    (useRestrictedParser, .keywords fun _ => [⟨"parser", "lxml.etree.XMLParser(resolve_entities=False)", true⟩]),
    (restrictParsers, .keywords fun _ =>
      [⟨"resolve_entities", "False", true⟩, ⟨"no_network", "True", false⟩, ⟨"dtd_validation", "False", false⟩]),
    (secureCookies, .keywords fun call =>
      [⟨"secure", "True", true⟩, ⟨"httponly", "True", true⟩] ++
        if (call.list .args).any Task.isStrictSameSite then [] else [⟨"samesite", "'Lax'", true⟩]),
    (useSafeType, .keywords fun _ => [⟨"typ", "\"safe\"", false⟩]),
    (guardProcesses, .guarded)]

lemma exists_of_run_lift {α σ : Type} {x : Except Fault α} {s s' : σ} {a : α}
    (h : (liftM x : Step σ α).run s = .ok (a, s')) : x = .ok a := by
  cases x with
  | error e => cases h
  | ok b =>
    cases h
    rfl

variable {remedy : Remedy} {c : Codemod}

lemma exists_follows (hc : (c, remedy) ∈ remedies) : ∃ mend, Follows c remedy mend := by
  simp only [remedies, mem_cons, not_mem_nil, or_false, Prod.mk.injEq] at hc
  rcases hc with ⟨rfl, rfl⟩ | ⟨rfl, rfl⟩ | ⟨rfl, rfl⟩ | ⟨rfl, rfl⟩ | ⟨rfl, rfl⟩ | ⟨rfl, rfl⟩ | ⟨rfl, rfl⟩
  on_goal 7 =>
    refine ⟨_, fun t old new => ?_, fun _ h => absurd rfl h, fun t r h => h, rfl,
      fun t old new n' s s' hkind hnew hlength h => ?_⟩
    · exact .bind (.require _ _) fun _ => .bind (.dependOn _) fun _ => .check fun _ => .lift _
    · obtain ⟨⟨⟩, s₁, -, h⟩ := of_run_bind h
      obtain ⟨⟨⟩, s₂, -, h⟩ := of_run_bind h
      split at h
      · obtain ⟨_, _, h, -⟩ := of_run_bind h
        cases h
      next hhas =>
        have hkind : old.kind = .call := by
          rcases hkind with hkind | hkind
          · exact hkind
          · rw [has, hkind] at hhas
            exact absurd rfl hhas
        exact ⟨hkind, mending_guarded hkind (hnew.trans hkind) (exists_of_run_lift h)⟩
  on_goal 5 =>
    refine ⟨_, fun t old new => ?_, fun _ _ t old new => ?_, fun t r h => h, rfl,
      fun t old new n' s s' hkind hnew hlength h => ?_⟩
    · exact .check fun _ => .lift _
    · dsimp only
      split
      · exact .bind (.throw _) fun _ => .lift _
      · exact .lift _
    · dsimp only at h
      split at h
      · obtain ⟨_, _, h, -⟩ := of_run_bind h
        cases h
      · exact mending_withKeywords hkind hnew hlength (exists_of_run_lift h)
  on_goal 3 =>
    refine ⟨_, fun t old new => ?_, fun h => absurd rfl h, fun t r h => h, rfl,
      fun t old new n' s s' hkind hnew hlength h => ?_⟩
    · exact .bind (.release _ _) fun _ => .bind (.require _ _) fun _ => .lift _
    · obtain ⟨⟨⟩, s₁, -, h⟩ := of_run_bind h
      obtain ⟨⟨⟩, s₂, -, h⟩ := of_run_bind h
      exact mending_withKeywords hkind hnew hlength (exists_of_run_lift h)
  all_goals
    refine ⟨_, fun t old new => ?_, fun _ _ t old new => ?_, fun t r h => h, rfl,
      fun t old new n' s s' hkind hnew hlength h => ?_⟩
    · exact .lift _
    · exact .lift _
    · exact mending_withKeywords hkind hnew hlength (exists_of_run_lift h)

/-! ## What becomes of the places -/

namespace Task

/-- Does a way lead through no place that is filled from a call as it was found? -/
def Free (t : Task) (remedy : Remedy) : Node → List (Slot × Nat) → Prop
  | _, [] => True
  | n, (s, i) :: way => ¬ (t.Mends n ∧ remedy.lost s = true) ∧ ∀ c, n.inner? s i = some c → t.Free remedy c way

variable {c : Codemod} {remedy : Remedy} {mend : Task → Node → Node → Work Node} {t : Task}

lemma free_or_exists_lost (h : n.at? way = some d) :
    t.Free remedy n way ∨ ∃ front s i back a, way = front ++ (s, i) :: back ∧ n.at? front = some a ∧
      t.Free remedy n front ∧ t.Mends a ∧ remedy.lost s = true ∧ a.at? ((s, i) :: back) = some d := by
  induction way generalizing n with
  | nil => exact .inl trivial
  | cons step way ih =>
    obtain ⟨s, i⟩ := step
    obtain ⟨c, hc, hway⟩ := bind_eq_some_iff.1 h
    by_cases hlost : t.Mends n ∧ remedy.lost s = true
    · exact .inr ⟨[], s, i, way, n, rfl, rfl, trivial, hlost.1, hlost.2, h⟩
    · have hfree {front : List (Slot × Nat)} (hfront : t.Free remedy c front) : t.Free remedy n ((s, i) :: front) := by
        refine ⟨hlost, fun c' hc' => ?_⟩
        cases hc.symm.trans hc'
        exact hfront
      rcases ih hway with hfront | ⟨front, s', i', back, a, rfl, ha, hfront, hrest⟩
      · exact .inl (hfree hfront)
      · exact .inr ⟨(s, i) :: front, s', i', back, a, rfl, by rw [at?, hc]; exact ha, hfree hfront, hrest⟩

lemma length_of_partsTo {fs : List Fill} {ps qs : List Node} (h : Node.PartsTo R fs ps qs) : qs.length = ps.length := by
  induction h with
  | cons _ _ ih => rw [length_cons, length_cons, ih]
  | rest => rfl

variable (hf : Follows c remedy mend) {e : Syntax.Edit} {s : Slot} {i : Nat}
include hf

lemma exists_of_leaves (hnew : Node.RebuiltTo R old new) (h : (t.atFindings (mend t)).Leaves old new e) :
    (¬ t.Mends old ∧ e = .keep new) ∨ (t.Mends old ∧ old.kind = .call ∧ ∃ n', e = .keep n' ∧ remedy.Mending old new n') := by
  obtain ⟨s, s', h⟩ := h
  rcases leave_atFindings_cases h with ⟨hmends, hkeep, -⟩ | ⟨hmends, s₁, n', -, hn', hkeep⟩
  · exact .inl ⟨hmends, hkeep⟩
  · obtain ⟨hcall, hmending⟩ := hf.mending t hmends.1 hnew.kind (length_of_partsTo hnew.parts) hn'
    exact .inr ⟨hmends, hcall, n', hkeep, hmending⟩

lemma exists_kept (h : (t.atFindings (mend t)).Makes n e) :
    ∃ n', e = .keep n' ∧ n'.kind = n.kind ∧ n'.isSpentLine = n.isSpentLine := by
  induction n generalizing e with
  | h n ih =>
    obtain ⟨new, hnew, hleave⟩ := Pass.exists_rebuiltTo (fun _ => rfl) h
    rcases exists_of_leaves hf hnew hleave with ⟨-, rfl⟩ | ⟨-, hkind, n', rfl, hmending⟩
    · exact ⟨new, rfl, hnew.kind, hnew.isSpentLine_eq (steady_of_kind And.left And.right) fun c hc e he => ih c hc he⟩
    · refine ⟨n', rfl, hmending.kind.trans hkind.symm, ?_⟩
      rw [isSpentLine, isSpentLine, hkind, hmending.kind]
      rfl

lemma exists_inner? (h : (t.atFindings (mend t)).Makes n (.keep n'))
    (hfree : ¬ (t.Mends n ∧ remedy.lost s = true)) (ha : n.inner? s i = some a) :
    ∃ a', n'.inner? s i = some a' ∧ (t.atFindings (mend t)).Makes a (.keep a') := by
  obtain ⟨new, hnew, hleave⟩ := Pass.exists_rebuiltTo (fun _ => rfl) h
  obtain ⟨a', ha', hmakes⟩ := hnew.exists_inner? (steady_of_kind And.left And.right) (fun _ _ _ => exists_kept hf) ha
  have hget : n'.get s = new.get s := by
    rcases exists_of_leaves hf hnew hleave with ⟨-, heq⟩ | ⟨hmends, -, n₁, heq, hmending⟩
    · cases heq
      rfl
    · cases heq
      obtain ⟨p, -, hplaces⟩ := hmending.places
      rw [hplaces, if_neg fun hlost => hfree ⟨hmends, hlost⟩]
  exact ⟨a', by rw [inner?, hget]; exact ha', hmakes⟩

lemma exists_at?_of_free (h : (t.atFindings (mend t)).Makes n (.keep n')) (hfree : t.Free remedy n way)
    (hd : n.at? way = some d) :
    ∃ d', n'.at? way = some d' ∧ (t.atFindings (mend t)).Makes d (.keep d') := by
  induction way generalizing n n' with
  | nil =>
    cases hd
    exact ⟨n', rfl, h⟩
  | cons step way ih =>
    obtain ⟨a, ha, hd⟩ := bind_eq_some_iff.1 hd
    obtain ⟨a', ha', hmakes⟩ := exists_inner? hf h hfree.1 ha
    obtain ⟨d', hd', hmakes⟩ := ih hmakes (hfree.2 a ha) hd
    exact ⟨d', by rw [at?, ha']; exact hd', hmakes⟩

lemma exists_mending (h : (t.atFindings (mend t)).Makes a (.keep a')) (hmends : t.Mends a) :
    a.kind = .call ∧ ∃ new, remedy.Mending a new a' := by
  obtain ⟨new, hnew, hleave⟩ := Pass.exists_rebuiltTo (fun _ => rfl) h
  rcases exists_of_leaves hf hnew hleave with ⟨hnot, -⟩ | ⟨-, hkind, n', heq, hmending⟩
  · exact absurd hmends hnot
  · cases heq
    exact ⟨hkind, new, hmending⟩

lemma prescribes_of_makes (h : (t.atFindings (mend t)).Makes a (.keep a')) (hmends : t.Mends a) :
    remedy.Prescribes a a' := by
  obtain ⟨-, new, hkind, p, hp, hplaces⟩ := exists_mending hf h hmends
  refine ⟨hkind, p, hp, ?_, fun hfunc => ?_⟩
  · rw [list, list, hplaces, if_pos hf.lost]
  · rw [hplaces, if_pos hfunc]

lemma at?_of_lost {p : Node} (h : (t.atFindings (mend t)).Makes a (.keep a'))
    (hmends : t.Mends a) (hlost : remedy.lost s = true) (hp : remedy.prescribe a = .ok p) :
    a'.at? ((s, i) :: way) = p.at? ((s, i) :: way) := by
  obtain ⟨-, new, -, p', hp', hplaces⟩ := exists_mending hf h hmends
  cases hp.symm.trans hp'
  rw [at?, at?, inner?, inner?, hplaces, if_pos hlost]

end Task

/-! ## Arguments that are taken over -/

lemma mem_of_replaceMatching {args news : List Node} {left : List NewArg}
    (h : replaceMatching args ws = .ok (news, left)) (hx : x ∈ args) (hws : ∀ w ∈ ws, isFor x w = false) : x ∈ news := by
  induction args generalizing ws news left with
  | nil => cases hx
  | cons a args ih =>
    rw [replaceMatching_cons] at h
    obtain ⟨new, hnew, h⟩ := of_bind h
    obtain ⟨⟨news', left'⟩, hnews, h⟩ := of_bind h
    cases h
    rcases mem_cons.1 hx with rfl | hx
    · rw [renewed, find?_eq_none.2 (by simpa using hws)] at hnew
      cases hnew
      exact mem_cons_self ..
    · exact mem_cons_of_mem _ (ih hnews hx fun w hw => hws w (mem_of_mem_eraseP hw))

lemma mem_args_of_prescribe (hc : (c, remedy) ∈ remedies) {call p : Node}
    (hkind : call.kind = .call) (hp : remedy.prescribe call = .ok p) (hx : x ∈ call.list .args)
    (hwishes : ∀ w ∈ remedy.wishes call, hasKeyword w.keyword x = false) : x ∈ p.list .args := by
  have hkeywords {wishes : Node → List NewArg} (heq : remedy = .keywords wishes) : x ∈ p.list .args := by
    subst heq
    obtain ⟨args, hargs, hp⟩ := of_bind hp
    cases hp
    rw [list_setList (kind_of_mem_items hx)]
    obtain ⟨⟨news, left⟩, hnews, hargs⟩ := of_bind hargs
    obtain ⟨added, -, hargs⟩ := of_bind hargs
    cases hargs
    exact mem_append_left _ (mem_of_replaceMatching hnews hx hwishes)
  simp only [remedies, mem_cons, not_mem_nil, or_false, Prod.mk.injEq] at hc
  rcases hc with ⟨-, heq⟩ | ⟨-, heq⟩ | ⟨-, heq⟩ | ⟨-, heq⟩ | ⟨-, heq⟩ | ⟨-, heq⟩ | ⟨-, rfl⟩
  on_goal 7 =>
    rw [Remedy.guarded] at hp
    dsimp only at hp
    rw [retarget_eq hkind (by decide)] at hp
    obtain ⟨attr, -, hp⟩ := of_bind hp
    obtain ⟨target, -, hp⟩ := of_bind hp
    rw [eq_of_sound hp]
    exact mem_cons_of_mem _ hx
  all_goals exact hkeywords heq

/-- Does what is prescribed stand in the place of each call that was found? -/
def FixedInPlace (t : Task) (remedy : Remedy) (mended : Node) : Prop :=
  ∀ way d, t.module.at? way = some d → t.Mends d → ∃ d', mended.at? way = some d' ∧ remedy.Prescribes d d'

/-- **Calls that are found inside calls that are found.** A change is noted for each call that was found. On free ways
each of them is mended in its place. But in a call that is mended, the arguments come from the call as it was found:
all calls are mended just if what is prescribed for the outer ones has the right calls inside already, and an argument
for which there is no wish is taken over with all that was found inside it. Two of the codemods ask for imports, which are
settled in the mended module; for the others it is the new module. -/
theorem fixed_in_place_iff {c : Codemod} {remedy : Remedy} (hc : (c, remedy) ∈ remedies) {t : Task} {out : Node}
    {notes : Notes} (h : c.work t = .ok (out, notes)) :
    ∃ mended, notes.settleImports mended = .ok out ∧ (c ≠ useRestrictedParser → c ≠ guardProcesses → mended = out) ∧
      (∀ change, change ∈ notes.changes ↔ ∃ way d, t.module.at? way = some d ∧ t.Mends d ∧ t.IsNoteOf d change) ∧
      (∀ way d, t.module.at? way = some d → t.Mends d → t.Free remedy t.module way →
        ∃ d', mended.at? way = some d' ∧ remedy.Prescribes d d') ∧
      (FixedInPlace t remedy mended ↔ ∀ front a s i back d, t.module.at? front = some a → t.Mends a →
        t.Free remedy t.module front → remedy.lost s = true → a.at? ((s, i) :: back) = some d → t.Mends d →
        ∃ p d', remedy.prescribe a = .ok p ∧ p.at? ((s, i) :: back) = some d' ∧ remedy.Prescribes d d') ∧
      (∀ front a x, t.module.at? front = some a → t.Mends a → t.Free remedy t.module front → x ∈ a.list .args →
        (∀ w ∈ remedy.wishes a, hasKeyword w.keyword x = false) → ∃ i, mended.at? (front ++ [(.args, i)]) = some x) := by
  obtain ⟨mend, hf⟩ := exists_follows hc
  have hcommand := hf.work t _ h
  obtain ⟨⟨mended, notes'⟩, hrun, hsettle⟩ := of_bind hcommand
  obtain ⟨out', hout, hsettle⟩ := of_bind hsettle
  cases hsettle
  have hmakes : (t.atFindings (mend t)).Makes t.module (.keep mended) := ⟨_, _, Pass.edit_of_run hrun⟩
  have hfixed (way : List (Slot × Nat)) (d : Node) (hd : t.module.at? way = some d) (hmends : t.Mends d)
      (hfree : t.Free remedy t.module way) : ∃ d', mended.at? way = some d' ∧ remedy.Prescribes d d' := by
    obtain ⟨d', hd', hmakes⟩ := Task.exists_at?_of_free hf hmakes hfree hd
    exact ⟨d', hd', Task.prescribes_of_makes hf hmakes hmends⟩
  -- behind a place that is filled from the call as it was found, all is as prescribed for that call
  have hlost {front : List (Slot × Nat)} {a p : Node} {s : Slot} {i : Nat} (ha : t.module.at? front = some a)
      (hmends : t.Mends a) (hfree : t.Free remedy t.module front) (hs : remedy.lost s = true)
      (hp : remedy.prescribe a = .ok p) (back : List (Slot × Nat)) :
      mended.at? (front ++ (s, i) :: back) = p.at? ((s, i) :: back) := by
    obtain ⟨a', ha', hmakes⟩ := Task.exists_at?_of_free hf hmakes hfree ha
    rw [at?_append, ha', bind_some, Task.at?_of_lost hf hmakes hmends hs hp]
  have hprescribed {front : List (Slot × Nat)} {a : Node} (ha : t.module.at? front = some a) (hmends : t.Mends a)
      (hfree : t.Free remedy t.module front) : ∃ p, remedy.prescribe a = .ok p := by
    obtain ⟨a', -, -, p, hp, -⟩ := hfixed front a ha hmends hfree
    exact ⟨p, hp⟩
  have hsame (hparser : c ≠ useRestrictedParser) (hprocesses : c ≠ guardProcesses) : mended = out := by
    obtain ⟨hneeded, hsuperfluous⟩ := Task.settled_atFindings (hf.settled hparser hprocesses t) hrun
    rw [Task.settleImports_of_nil hneeded hsuperfluous] at hout
    cases hout
    rfl
  refine ⟨mended, hout, hsame, fun change => ?_, hfixed, ⟨fun hall => ?_, fun hright => ?_⟩, ?_⟩
  · rw [Task.mem_changes_atFindings_iff (hf.quiet t) hcommand]
    constructor
    · rintro ⟨d, hd, hmends, hnote⟩
      obtain ⟨way, hway⟩ := exists_at?_of_mem_met hd
      exact ⟨way, d, hway, hmends, hnote⟩
    · rintro ⟨way, d, hway, hmends, hnote⟩
      exact ⟨d, mem_met_of_at? hway, hmends, hnote⟩
  · intro front a s i back d ha hmends hfree hs hd hmendsd
    obtain ⟨p, hp⟩ := hprescribed ha hmends hfree
    obtain ⟨d', hd', hpres⟩ := hall (front ++ (s, i) :: back) d (by rw [at?_append, ha]; exact hd) hmendsd
    exact ⟨p, d', hp, by rw [← hlost ha hmends hfree hs hp, hd'], hpres⟩
  · intro way d hd hmendsd
    rcases Task.free_or_exists_lost hd with hfree | ⟨front, s, i, back, a, rfl, ha, hfree, hmends, hs, hback⟩
    · exact hfixed way d hd hmendsd hfree
    · obtain ⟨p, d', hp, hd', hpres⟩ := hright front a s i back d ha hmends hfree hs hback hmendsd
      exact ⟨d', by rw [hlost ha hmends hfree hs hp, hd'], hpres⟩
  · intro front a x ha hmends hfree hx hwishes
    obtain ⟨p, hp⟩ := hprescribed ha hmends hfree
    obtain ⟨a', ha', hmakes⟩ := Task.exists_at?_of_free hf hmakes hfree ha
    have hmem := mem_args_of_prescribe hc (Task.exists_mending hf hmakes hmends).1 hp hx hwishes
    have hrun : (p.get .args).kind = .seq := kind_of_mem_items hmem
    rw [list, items_run hrun, ← opened_run hrun] at hmem
    obtain ⟨i, hi⟩ := getElem?_of_mem hmem
    refine ⟨i, ?_⟩
    rw [hlost ha hmends hfree hf.lost hp, at?, inner?, hi]
    rfl

def nestedRequests : Node :=
  (ofModule? "import requests\nrequests.get(requests.get(u, verify=False).text, verify=False)\n").getD absent

def nestedTask : Task where
  facts := .of nestedRequests
  findings := [⟨"requests-verify", [.ofNumbers "code.py" ⟨2, 1, 2, 63⟩, .ofNumbers "code.py" ⟨2, 14, 2, 43⟩]⟩]

/-- The way to the outer request, and from there to the inner one. -/
def outerRequest : List (Slot × Nat) := [(.body, 1), (.body, 0), (.value, 0)]

@[inherit_doc outerRequest]
def innerRequest : List (Slot × Nat) := [(.value, 0), (.value, 0)]

/-- The remedy for requests. -/
def verified : Remedy := .keywords fun _ => [⟨"verify", "True", false⟩]

def isMended (d : Node) : Bool := d.kind == .call && (nestedTask.selects d).toOption == some true

lemma mends_of_isMended (h : isMended d = true) : nestedTask.Mends d := by
  rw [isMended, Bool.and_eq_true, beq_iff_eq, beq_iff_eq] at h
  exact ⟨.inl h.1, of_toOption h.2⟩

/-- The outer request is mended and takes the inner one over as it was found. -/
theorem nestedRequests_not_fixed : ∃ out notes, verifyCertificates.work nestedTask = .ok (out, notes) ∧
    ¬ FixedInPlace nestedTask verified out := by
  have hrun : (verifyCertificates.work nestedTask).isOk = true := by decide +kernel
  obtain ⟨⟨out, notes⟩, hwork⟩ := exists_of_isOk hrun
  have hmem : (verifyCertificates, verified) ∈ remedies := mem_cons_self ..
  obtain ⟨mended, -, hsame, -, -, hiff, -⟩ := fixed_in_place_iff hmem hwork
  obtain rfl : mended = out := by
    refine hsame (fun h => ?_) fun h => ?_ <;> exact absurd (congrArg Codemod.name h) (by decide)
  refine ⟨mended, notes, hwork, fun hall => ?_⟩
  have hcheck : ((nestedTask.module.at? outerRequest).bind fun a => (a.at? ((.args, 0) :: innerRequest)).bind fun d =>
      (verified.prescribe a).toOption.bind fun p => (p.at? ((.args, 0) :: innerRequest)).bind fun d' =>
      (verified.prescribe d).toOption.map fun q => (isMended a, isMended d, sameList (d'.list .args) (q.list .args))) =
      some (true, true, false) := by decide +kernel
  obtain ⟨a, ha, hcheck⟩ := bind_eq_some_iff.1 hcheck
  obtain ⟨d, hd, hcheck⟩ := bind_eq_some_iff.1 hcheck
  obtain ⟨p, hp, hcheck⟩ := bind_eq_some_iff.1 hcheck
  obtain ⟨d', hd', hcheck⟩ := bind_eq_some_iff.1 hcheck
  obtain ⟨q, hq, hcheck⟩ := map_eq_some_iff.1 hcheck
  simp only [Prod.mk.injEq] at hcheck
  have hfree : nestedTask.Free verified nestedTask.module outerRequest :=
    ⟨(nomatch ·.2), fun _ _ => ⟨(nomatch ·.2), fun _ _ => ⟨(nomatch ·.2), fun _ _ => trivial⟩⟩⟩
  obtain ⟨p', d'', hp', hd'', -, q', hq', hsame, -⟩ := hiff.1 hall outerRequest a .args 0 innerRequest d ha
    (mends_of_isMended hcheck.1) hfree rfl hd (mends_of_isMended hcheck.2.1)
  rw [hp'] at hp
  cases hp
  cases hd'.symm.trans hd''
  rw [hq'] at hq
  cases hq
  rw [sameList_iff.2 hsame] at hcheck
  cases hcheck.2.2

end Codemod

end Mender
