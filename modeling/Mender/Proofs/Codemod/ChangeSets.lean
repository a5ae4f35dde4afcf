import Mender.Catalogue
import Mender.Codemod.Apply
import Mender.Proofs.Diff.Same
import Mender.Proofs.Files.Contents
import Mender.Proofs.Syntax.Cleared
import Mender.Proofs.Syntax.Writing

/-!
# Reported changes and changed texts

Whether a codemod has changed a module is decided by comparing trees. Trees that are the same are written the same
(`Node.code_of_same`), so a file whose text changes is always reported, with a diff that shows something. But a tree may
change where its text does not: a comma that was written in the file and a comma that is left to the printer are
different. Then a change is reported whose diff is empty (`meansChange_iff`).

* `reported_diff_tells_write` — what is written and what is reported belong together.
-/

namespace Mender.Codemod

open Text Diff Option

/-! ## The diff of a file and what was written

A codemod reports a diff between the code of the module that it has read and the code of the one that it has made. The
file itself may have held another text: carriage returns are read as line feeds. So a diff tells how the content of
the file has changed if that was the code of the module, and if lines end in line feeds. -/

variable {c : Codemod} {fs gs : Files} {dir path : String} {findings : Findings} {w : Wishes} {r : FileResult}
  {change : ChangeSet} {t : Task} {text : Option String}

/-- The module that a codemod makes of a module. A codemod that goes by findings leaves it alone if there are none. -/
def output (c : Codemod) (t : Task) : Except Fault Syntax.Node :=
  if c.byFindings && t.findings.isEmpty then .ok t.module else (c.work t).map (·.1)

lemma exists_output (h : c.transform t = .ok (r, text)) : ∃ out, c.output t = .ok out ∧
    if out.same t.module then r.changeSets = [] ∧ text = none
    else text = some out.code ∧ ∃ change, r.changeSets = [change] ∧ change.diff = ofTexts t.module.code out.code := by
  obtain ⟨-, -, h⟩ := of_bind h
  rw [output]
  split at h
  next hnone =>
    cases h
    refine ⟨t.module, if_pos hnone, ?_⟩
    rw [if_pos (Syntax.Node.same_iff.2 rfl)]
    exact ⟨rfl, rfl⟩
  next hsome =>
    obtain ⟨⟨out, notes⟩, hwork, h⟩ := of_bind h
    refine ⟨out, by rw [if_neg hsome, hwork]; rfl, ?_⟩
    dsimp only at h
    split at h
    next hsame =>
      cases h
      rw [if_pos hsame]
      exact ⟨rfl, rfl⟩
    next hsame =>
      obtain ⟨p, -, h⟩ := of_bind h
      cases h
      rw [if_neg hsame]
      refine ⟨rfl, _, rfl, ?_⟩
      dsimp only

lemma exists_of_mem_mend (h : c.mend fs dir path findings w = .ok (r, text)) (hchange : change ∈ r.changeSets) :
    ∃ old module new, fs.get? path = some (.text old) ∧
      Syntax.Node.ofModule? (String.ofList (unifyLineEnds old.toList)) = some module ∧ text = some new ∧
      change.diff = ofTexts module.code new := by
  obtain ⟨skipLines, -, h⟩ := of_bind h
  obtain ⟨onlyLines, -, h⟩ := of_bind h
  cases hmodule : readModule? fs (Path.plain path) with
  | none =>
    rw [hmodule] at h
    cases h
    cases hchange
  | some module =>
    rw [hmodule] at h
    obtain ⟨out, -, hcases⟩ := exists_output h
    split at hcases
    · rw [hcases.1] at hchange
      cases hchange
    obtain ⟨rfl, change', hsets, hdiff⟩ := hcases
    rw [hsets, List.mem_singleton] at hchange
    obtain ⟨content, htext, hmodule⟩ := bind_eq_some_iff.1 hmodule
    obtain ⟨old, hold, rfl⟩ := map_eq_some_iff.1 htext
    obtain ⟨content, hget, hold⟩ := bind_eq_some_iff.1 hold
    rw [Files.get?_congr (Path.resolved_plain path)] at hget
    cases content with
    | text s =>
      cases hold
      exact ⟨_, module, _, hget, hmodule, rfl, hchange ▸ hdiff⟩
    | bytes b => cases hold

/-- **The reported diff tells what was written where lines end in line feeds.** Let the lines of the code that was read,
as far as the diff reaches, end in line feeds. Applied to that code the diff gives the new content of the file exactly
if the same holds of the new lines, and if both or neither of the texts end their last line. It gives the new content
from the old one exactly if the file held the code that was read: no carriage returns, and nothing that was dropped. -/
theorem reported_diff_tells_write (hreal : w.isTrial = false) (happly : c.apply fs dir path findings w = .ok (r, gs))
    (hchange : change ∈ r.changeSets) :
    ∃ old module new, fs.get? path = some (.text old) ∧
      Syntax.Node.ofModule? (String.ofList (unifyLineEnds old.toList)) = some module ∧
      gs.get? path = some (.text new) ∧
      (Tells module.code new → new ≠ "" → (patch change.diff old = some new ↔ old = module.code)) ∧
      (FeedsEnd (reach module.code new).1 (linesOf module.code.toList) → (SameEnd module.code new →
          (patch change.diff module.code = some new ↔ FeedsEnd (reach module.code new).2 (linesOf new.toList))) ∧
        (FeedsEnd (reach module.code new).2 (linesOf new.toList) →
          (patch change.diff module.code = some new ↔ SameEnd module.code new))) := by
  obtain ⟨⟨r', text⟩, hmend, happly⟩ := of_bind happly
  cases happly
  obtain ⟨old, module, new, hold, hmodule, rfl, hdiff⟩ := exists_of_mem_mend hmend hchange
  refine ⟨old, module, new, hold, hmodule, ?_, ?_, ?_⟩
  · rw [commit, hreal, ← Files.get?_congr (Path.resolved_plain path)]
    exact Files.get?_put_self ..
  · rw [hdiff]
    exact fun htells hne => patch_ofTexts_iff_eq htells hne old
  · rw [hdiff]
    exact fun hfeeds => ⟨patch_ofTexts_iff hfeeds, patch_ofTexts_iff_sameEnd hfeeds⟩

/-- The diff that is reported when generators are introduced in a file, and the new content of the file. -/
def generatorReport (old : String) : Option (String × Content) := do
  let (r, gs) ← (Catalogue.useGenerators.apply (Files.putText {} "code.py" old) "." "code.py" {} {}).toOption
  let change ← r.changeSets.head?
  return (change.diff, ← gs.get? "code.py")

lemma exists_of_generatorReport {old diff : String} {content : Content} (h : generatorReport old = some (diff, content)) :
    ∃ r gs change, Catalogue.useGenerators.apply (Files.putText {} "code.py" old) "." "code.py" {} {} = .ok (r, gs) ∧
      change ∈ r.changeSets ∧ change.diff = diff ∧ gs.get? "code.py" = some content := by
  obtain ⟨⟨r, gs⟩, happly, h⟩ := bind_eq_some_iff.1 h
  obtain ⟨change, hchange, h⟩ := bind_eq_some_iff.1 h
  obtain ⟨content', hget, h⟩ := bind_eq_some_iff.1 h
  cases h
  obtain ⟨_, happly, rfl⟩ := exists_of_toOption_map (map_id'.trans happly)
  exact ⟨r, gs, change, happly, List.mem_of_head? hchange, rfl, hget⟩

/-- Three files that differ in their line ends, and only of the first one the diff tells what was written: the second
one has carriage returns, and in the third one another line end stands in a line that the diff shows. -/
theorem generatorReports_told : (∃ diff, generatorReport "any([x for x in y])\n" = some (diff, .text "any(x for x in y)\n") ∧
      patch diff "any([x for x in y])\n" = some "any(x for x in y)\n") ∧
    (∃ diff, generatorReport "any([x for x in y])\r\n" = some (diff, .text "any(x for x in y)\n") ∧
      patch diff "any([x for x in y])\r\n" ≠ some "any(x for x in y)\n") ∧
    ∃ diff, generatorReport "s = 'a\u2028b'\nany([x for x in s])\n" =
        some (diff, .text "s = 'a\u2028b'\nany(x for x in s)\n") ∧
      patch diff "s = 'a\u2028b'\nany([x for x in s])\n" ≠ some "s = 'a\u2028b'\nany(x for x in s)\n" := by
  have htold : ∀ old, (generatorReport old).map (·.2) = some (.text "any(x for x in y)\n") →
      (Syntax.Node.ofModule? (String.ofList (unifyLineEnds old.toList))).map (·.code) = some "any([x for x in y])\n" →
      ∃ diff, generatorReport old = some (diff, .text "any(x for x in y)\n") ∧
        (patch diff old = some "any(x for x in y)\n" ↔ old = "any([x for x in y])\n") := by
    intro old hreport hcode
    obtain ⟨⟨diff, content⟩, hreport, rfl⟩ := map_eq_some_iff.1 hreport
    obtain ⟨r, gs, change, happly, hchange, rfl, hget⟩ := exists_of_generatorReport hreport
    obtain ⟨old', module, new, hold, hmodule, hnew, htells, -⟩ := reported_diff_tells_write rfl happly hchange
    obtain rfl : old = old' := by
      rw [Files.putText, Files.get?_put_self] at hold
      cases hold
      rfl
    rw [hmodule, map_some, some_inj] at hcode
    cases hget.symm.trans hnew
    rw [hcode] at htells
    exact ⟨change.diff, hreport, htells ⟨by decide +kernel, by decide +kernel, by decide +kernel⟩ (by decide)⟩
  refine ⟨?_, ?_, ?_⟩
  · obtain ⟨diff, hreport, hiff⟩ := htold "any([x for x in y])\n" (by decide +kernel) (by decide +kernel)
    exact ⟨diff, hreport, hiff.2 rfl⟩
  · obtain ⟨diff, hreport, hiff⟩ := htold "any([x for x in y])\r\n" (by decide +kernel) (by decide +kernel)
    exact ⟨diff, hreport, fun hpatch => absurd (hiff.1 hpatch) (by decide)⟩
  · have hreport : (generatorReport "s = 'a\u2028b'\nany([x for x in s])\n").map
        (fun p => (p.2, patch p.1 "s = 'a\u2028b'\nany([x for x in s])\n")) =
          some (.text "s = 'a\u2028b'\nany(x for x in s)\n", none) := by decide +kernel
    obtain ⟨⟨diff, content⟩, hreport, heq⟩ := map_eq_some_iff.1 hreport
    obtain ⟨rfl, hpatch⟩ := Prod.mk.inj heq
    refine ⟨diff, hreport, ?_⟩
    rw [hpatch]
    exact nofun

end Mender.Codemod

namespace Mender

open List

/-! ## Trees that are written the same -/

namespace Syntax.Node

lemma alike_of_cleared {a b : Node} (h : a.cleared = b.cleared) : alike a b = true := by
  induction a using partsInduction generalizing b with
  | h a ih =>
    refine alike_iff.2 ⟨?_, ?_, ?_⟩
    · rw [← kind_cleared, h, kind_cleared]
    · rw [← text_cleared, h, text_cleared]
    · have hparts : a.parts.map cleared = b.parts.map cleared := by rw [← parts_cleared, h, parts_cleared]
      rw [← forall₂_eq_eq_eq, forall₂_map_left_iff, forall₂_map_right_iff] at hparts
      rw [forall₂_iff_zip] at hparts ⊢
      exact ⟨hparts.1, fun hpq => .inl (ih _ (of_mem_zip hpq).1 (hparts.2 hpq))⟩

lemma code_of_same {a b : Node} (h : a.same b = true) : a.code = b.code := by
  have hcleared := same_iff.1 h
  have hkind : a.kind = b.kind := by rw [← kind_cleared, hcleared, kind_cleared]
  have htext (s : Slot) : (a.get s).text = (b.get s).text := by
    rw [← text_cleared, ← get_cleared, hcleared, get_cleared, text_cleared]
  have henv : a.printEnv = b.printEnv := by rw [printEnv, printEnv, hkind, htext, htext]
  have hwriting : (a.printer a.printEnv {}).2.text = (b.printer b.printEnv {}).2.text := by
    rw [henv]
    exact sameWriting_of_alike (alike_of_cleared hcleared) _ rfl
  rw [code, code, hwriting, henv, hkind, htext]

end Syntax.Node

/-! ## Reports -/

namespace Codemod

open Syntax Diff

variable {c : Codemod} {r : FileResult} {fs gs : Files} {dir path : String} {findings : Findings} {w : Wishes}
  {module : Node}

/-- Does a result report a change exactly if the text has changed, and does each report show something? -/
structure MeansChange (old new : String) (r : FileResult) : Prop where
  reported : r.changeSets ≠ [] ↔ new ≠ old
  shown : ∀ change ∈ r.changeSets, change.diff ≠ ""

/-- **A report means a change unless only the tree has changed.** Whatever a codemod does with a file, a text that has
changed is reported, in one report with a diff that shows something, and written unless the run is a trial. A report
means a change if and only if the new tree, where it is written the same as the old one, is the same; otherwise a report
with an empty diff is made. -/
theorem meansChange_iff (happly : c.apply fs dir path findings w = .ok (r, gs))
    (hmodule : readModule? fs (Path.plain path) = some module) :
    ∃ t out, t.module = module ∧ t.findings = findings.select c.name (Path.plain path) ∧ c.output t = .ok out ∧
      (r.changeSets ≠ [] ↔ out.same module = false) ∧ r.changeSets.length ≤ 1 ∧
      (∀ change ∈ r.changeSets, change.diff = ofTexts module.code out.code ∧ (change.diff = "" ↔ out.code = module.code)) ∧
      gs = (if r.changeSets = [] ∨ w.isTrial = true then fs else fs.putText (Path.plain path) out.code) ∧
      (out.code ≠ module.code → MeansChange module.code out.code r) ∧
      (MeansChange module.code out.code r ↔ (out.code = module.code → out.same module = true)) := by
  obtain ⟨⟨r', text⟩, hmend, happly⟩ := of_bind happly
  cases happly
  obtain ⟨skipLines, -, hmend⟩ := of_bind hmend
  obtain ⟨onlyLines, -, hmend⟩ := of_bind hmend
  rw [hmodule] at hmend
  obtain ⟨out, hout, hcases⟩ := exists_output hmend
  refine ⟨_, out, rfl, rfl, hout, ?_⟩
  change if out.same module then _ else _ at hcases
  split at hcases
  next hsame =>
    obtain ⟨hnone, rfl⟩ := hcases
    have hcode := Node.code_of_same hsame
    have hmeans : MeansChange module.code out.code r := ⟨by simp [hnone, hcode], by simp [hnone]⟩
    refine ⟨by simp [hnone, hsame], by simp [hnone], by simp [hnone], by simp [hnone, commit], fun _ => hmeans, ?_⟩
    exact ⟨fun _ _ => hsame, fun _ => hmeans⟩
  next hsame =>
    obtain ⟨rfl, change, hchange, hdiff⟩ := hcases
    have hmeans (hcode : out.code ≠ module.code) : MeansChange module.code out.code r := by
      refine ⟨by simp [hchange, hcode], ?_⟩
      rw [hchange, forall_mem_singleton, hdiff]
      exact fun hempty => hcode (ofTexts_eq_empty_iff.1 hempty).symm
    have hshown : ∀ change ∈ r.changeSets, change.diff = ofTexts module.code out.code ∧
        (change.diff = "" ↔ out.code = module.code) := by
      rw [hchange, forall_mem_singleton, hdiff]
      exact ⟨rfl, ofTexts_eq_empty_iff.trans eq_comm⟩
    refine ⟨by simpa [hchange] using hsame, by simp [hchange], hshown, by simp [hchange, commit], hmeans, fun h hcode => ?_, fun h => hmeans fun hcode => hsame (h hcode)⟩
    exact absurd hcode (h.reported.1 (by simp [hchange]))

/-- A file with a call that verifies certificates already. -/
def verifiedFiles : Files := Files.putText {} "code.py" "import requests\nrequests.get(u, verify=True, timeout=1)\n"

/-- A finding in a request that is verified already. -/
def verifiedFindings : Findings := Findings.add {} ⟨"requests-verify", [.ofNumbers "code.py" ⟨2, 1, 2, 40⟩]⟩

/-- The argument is made anew, and its comma with it: a change is reported, and its diff is empty. -/
theorem verifiedCall_no_change :
    ∃ r gs module, Catalogue.verifyCertificates.apply verifiedFiles "." "code.py" verifiedFindings {} = .ok (r, gs) ∧
      readModule? verifiedFiles (Path.plain "code.py") = some module ∧ r.changeSets.map (·.diff) = [""] ∧
      ∃ t out, t.module = module ∧ Catalogue.verifyCertificates.output t = .ok out ∧
        ¬ MeansChange module.code out.code r := by
  have hrun : ((Catalogue.verifyCertificates.apply verifiedFiles "." "code.py" verifiedFindings {}).toOption.map
      fun p => p.1.changeSets.map (·.diff)) = some [""] := by decide +kernel
  have hread : (readModule? verifiedFiles (Path.plain "code.py")).isSome = true := by decide +kernel
  obtain ⟨module, hmodule⟩ := Option.isSome_iff_exists.1 hread
  obtain ⟨⟨r, gs⟩, happly, hrun⟩ := exists_of_toOption_map hrun
  have hdiffs : r.changeSets.map (·.diff) = [""] := hrun
  obtain ⟨t, out, ht, -, hout, -⟩ := meansChange_iff happly hmodule
  refine ⟨r, gs, module, happly, hmodule, hdiffs, t, out, ht, hout, fun h => ?_⟩
  have hmem : "" ∈ r.changeSets.map (·.diff) := by rw [hdiffs]; exact mem_singleton_self _
  obtain ⟨change, hchange, hempty⟩ := mem_map.1 hmem
  exact h.shown change hchange hempty

end Codemod

end Mender
