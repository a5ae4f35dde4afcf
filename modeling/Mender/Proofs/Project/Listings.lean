import Mathlib.Data.List.Induction
import Mender.Proofs.Files.Contents
import Mender.Proofs.Project.Stores

/-!
# Lists of requirements and their files

Packages are offered to a list of requirements again and again. What the list, its file and the reports say afterwards
is told by `news`: the packages whose requirement neither stood in the list nor was offered before.

* `store_afterOffers` — the list grows by the new packages;
* `inStep_iff` — when file, list and reports stay in step.
-/

namespace Mender.Project

open Text List Store

variable {content old : Option Content} {before : List (List Dependency)}

/-- The packages whose requirement is neither known nor offered before, in the order in which they are offered. -/
def news (known : List Requirement) : List Dependency → List Dependency
  | [] => []
  | d :: ds => (if known.any (·.agrees d.requirement) then [] else [d]) ++ news (d.requirement :: known) ds

/-- The line for a package. -/
def lineOf (d : Dependency) : String := d.requirement.text ++ "\n"

/-- A text with an end for its last line. -/
def ended (text : String) : String := if text.endsWith "\n" then text else text ++ "\n"

/-- The text with a line for each new package. -/
def extended (text : String) (new : List Dependency) : String :=
  if new.isEmpty then text else ended text ++ String.join (new.map lineOf)

/-- Is a text without line ends? -/
def IsOneLine (text : String) : Prop := '\n' ∉ text.toList ∧ '\r' ∉ text.toList

instance (text : String) : Decidable (IsOneLine text) := inferInstanceAs (Decidable (_ ∧ _))

/-- The files and the store after packages were offered, again and again. -/
def afterOffers (dir : String) (fs : Files) (s : Store) : List (List Dependency) → Files × Store
  | [] => (fs, s)
  | ds :: offers => afterOffers dir (write fs dir s ds false).files (write fs dir s ds false).store offers

variable {fs : Files} {dir text file : String} {s : Store} {known known' : List Requirement} {ds es new : List Dependency}
  {d : Dependency} {offers : List (List Dependency)}

/-! ## What is new -/

lemma news_congr (h : ∀ r, known.any (·.agrees r) = known'.any (·.agrees r)) (ds : List Dependency) :
    news known ds = news known' ds := by
  induction ds generalizing known known' with
  | nil => rfl
  | cons d ds ih =>
    rw [news, h]
    refine congrArg _ (ih fun r => ?_)
    rw [any_cons, any_cons, h]

lemma news_append : news known (ds ++ es) = news known ds ++ news (known ++ ds.map (·.requirement)) es := by
  induction ds generalizing known with
  | nil => rw [map_nil, append_nil]; rfl
  | cons d ds ih =>
    rw [cons_append, news, news, ih, append_assoc]
    refine congrArg _ (congrArg _ (news_congr (fun r => ?_) es))
    rw [any_append, any_append, any_cons, map_cons, any_cons, Bool.or_assoc, Bool.or_left_comm]

lemma addNew_eq_news (h : ∀ r, s.lists r = known.any (·.agrees r)) (ds : List Dependency) :
    s.addNew ds = ({ s with requirements := s.requirements ++ (news known ds).map (·.requirement) }, news known ds) := by
  induction ds generalizing s known with
  | nil => rw [addNew, news, map_nil, append_nil]
  | cons d ds ih =>
    rw [addNew, news, ← h]
    by_cases hd : s.lists d.requirement = true
    · rw [if_pos hd, if_pos hd]
      refine ih fun r => ?_
      rw [any_cons, ← h]
      cases hdr : d.requirement.agrees r with
      | true => rw [lists_of_agrees hd hdr, Bool.true_or]
      | false => rw [Bool.false_or]
    · rw [if_neg hd, if_neg hd]
      have hinsert : s.insert d.requirement = { s with requirements := s.requirements ++ [d.requirement] } := if_neg hd
      have hlists (r : Requirement) : lists { s with requirements := s.requirements ++ [d.requirement] } r =
          (d.requirement :: known).any (·.agrees r) := by
        rw [any_cons, ← h, lists, lists, any_append, any_cons, any_nil, Bool.or_false, Bool.or_comm]
      rw [hinsert, ih hlists]
      simp

lemma addNew_news : s.addNew ds =
    ({ s with requirements := s.requirements ++ (news s.requirements ds).map (·.requirement) }, news s.requirements ds) :=
  addNew_eq_news (fun _ => rfl) ds

lemma news_after (s : Store) (ds es : List Dependency) :
    news (s.requirements ++ (news s.requirements ds).map (·.requirement)) es =
      news (s.requirements ++ ds.map (·.requirement)) es := by
  refine news_congr (fun r => ?_) es
  have hlists : (s.addNew ds).1.lists r = (s.requirements ++ (news s.requirements ds).map (·.requirement)).any (·.agrees r) := by
    rw [addNew_news]
    rfl
  rw [Bool.eq_iff_iff, ← hlists, lists_addNew_iff]
  simp [lists]

/-! ## The store after all offers -/

lemma afterOffers_concat : afterOffers dir fs s (offers ++ [ds]) =
      ((write (afterOffers dir fs s offers).1 dir (afterOffers dir fs s offers).2 ds false).files,
        (write (afterOffers dir fs s offers).1 dir (afterOffers dir fs s offers).2 ds false).store) := by
  induction offers generalizing fs s with
  | nil => rfl
  | cons es offers ih => exact ih ..

lemma store_afterOffers (hkind : s.kind = .listing) (dir : String) (fs : Files) (offers : List (List Dependency)) :
    (afterOffers dir fs s offers).2 =
      { s with requirements := s.requirements ++ (news s.requirements offers.flatten).map (·.requirement) } := by
  induction offers using reverseRecOn with
  | nil => rw [flatten_nil, news, map_nil, append_nil]; rfl
  | append_singleton offers ds ih =>
    rw [afterOffers_concat, store_write, ih, if_neg (by rw [hkind]; decide), addNew_news]
    rw [news_after, flatten_append, flatten_singleton, news_append, map_append, append_assoc]

/-! ## Texts -/

lemma toList_ended : (ended text).toList = if endsInFeed text.toList then text.toList else text.toList ++ ['\n'] := by
  rw [ended, endsWith_feed]
  split
  · rfl
  · rw [String.toList_append]
    rfl

lemma endsInFeed_ended (text : String) : endsInFeed (ended text).toList = true := by
  rw [toList_ended]
  split
  · assumption
  · exact endsInFeed_concat _

lemma toList_lineOf (d : Dependency) : (lineOf d).toList = d.requirement.text.toList ++ ['\n'] := by
  rw [lineOf, String.toList_append]
  rfl

lemma endLastLine_concat (ls : List String) (l : String) : endLastLine (ls ++ [l]) = ls ++ [ended l] := by
  induction ls with
  | nil => rfl
  | cons l' ls ih =>
    rw [cons_append, cons_append, ← ih, endLastLine]
    exact fun h => by simp at h

lemma endLastLine_splitFeeds (h : text ≠ "") : endLastLine (splitFeeds text) = splitFeeds (ended text) := by
  obtain ⟨ls, z, hlines, hz, -, hends, happend⟩ := exists_lastLine (mt String.toList_eq_nil_iff.1 h)
  have hlast : ended (String.ofList z) = String.ofList (if endsInFeed z then z else z ++ ['\n']) := by
    rw [← String.ofList_toList (s := ended (String.ofList z)), toList_ended, String.toList_ofList]
  rw [splitFeeds, splitFeeds, hlines, map_append, map_singleton, endLastLine_concat, toList_ended, hends, hlast]
  split
  next => rw [hlines, map_append, map_singleton]
  next hfeed =>
    have hfeed : withoutFeed z = z := withoutFeed_of_not (by simpa using hfeed)
    have hline : IsLine (z ++ ['\n']) := isLine_concat z (hfeed ▸ hz.2)
    rw [happend, feedLines_isLine hline, map_append, map_singleton]

lemma map_lineOf : (ds.map lineOf).map String.toList = (ds.map (·.requirement.text.toList)).map (· ++ ['\n']) := by
  rw [map_map, map_map]
  exact map_congr_left fun d _ => toList_lineOf d

lemma toList_extended (hds : ds ≠ []) : (extended text ds).toList =
    (ended text).toList ++ ((ds.map (·.requirement.text.toList)).map (· ++ ['\n'])).flatten := by
  rw [extended, if_neg (by simpa using hds), String.toList_append, String.toList_join, flatMap_def, map_lineOf]

lemma splitFeeds_extended (hds : ds ≠ []) (h : ∀ d ∈ ds, '\n' ∉ d.requirement.text.toList) :
    splitFeeds (extended text ds) = splitFeeds (ended text) ++ ds.map lineOf := by
  rw [splitFeeds, toList_extended hds, feedLines_append (endsInFeed_ended text), feedLines_flatten, ← map_lineOf,
    map_append, map_map]
  · refine congrArg _ ?_
    conv_rhs => rw [← map_id (ds.map lineOf)]
    exact map_congr_left fun l _ => String.ofList_toList
  · intro l hl
    obtain ⟨d, hd, rfl⟩ := mem_map.1 hl
    exact h d hd

lemma ended_extended (hds : ds ≠ []) : ended (extended text ds) = extended text ds := by
  have hends : endsInFeed (extended text ds).toList = true := by
    obtain ⟨es, d, rfl⟩ := (eq_nil_or_concat ds).resolve_left hds
    rw [toList_extended hds, concat_eq_append, map_append, map_append]
    simp [endsInFeed]
  rw [ended, endsWith_feed, if_pos hends]

lemma extended_append : extended (extended text ds) es = extended text (ds ++ es) := by
  by_cases hes : es = []
  · rw [hes, append_nil]
    rfl
  · by_cases hds : ds = []
    · rw [hds]
      rfl
    · rw [extended, if_neg (by simpa using hes), ended_extended hds, extended, if_neg (by simpa using hds), extended,
        if_neg (by simp [hds]), map_append, String.append_assoc, String.join_append]

/-! ## Reading back what was written -/

lemma unifyLineEnds_of_notMem {cs : List Char} (h : '\r' ∉ cs) : unifyLineEnds cs = cs := by
  fun_induction unifyLineEnds cs with
  | case1 => rfl
  | case2 => simp at h
  | case3 => simp at h
  | case4 c rest _ _ ih => rw [ih fun hr => h (.tail _ hr)]

lemma notMem_unifyLineEnds (cs : List Char) : '\r' ∉ unifyLineEnds cs := by
  fun_induction unifyLineEnds cs with
  | case1 => exact not_mem_nil
  | case2 rest ih => simpa using ih
  | case3 rest _ ih => simpa using ih
  | case4 c rest _ hc ih =>
    rw [mem_cons, not_or]
    exact ⟨fun h => hc h.symm, ih⟩

lemma notMem_of_readText (h : readText content = .ok text) : '\r' ∉ text.toList := by
  match content with
  | none => cases h
  | some (.bytes _) => cases h
  | some (.text raw) =>
    cases h
    rw [String.toList_ofList]
    exact notMem_unifyLineEnds _

lemma readText_text (h : '\r' ∉ text.toList) : readText (some (.text text)) = .ok text := by
  rw [readText, unifyLineEnds_of_notMem h, String.ofList_toList]

lemma notMem_extended (h : '\r' ∉ text.toList) (hds : ∀ d ∈ ds, '\r' ∉ d.requirement.text.toList) :
    '\r' ∉ (extended text ds).toList := by
  by_cases hnil : ds = []
  · rw [hnil]
    exact h
  · rw [toList_extended hnil, mem_append, not_or, toList_ended]
    refine ⟨?_, fun hmem => ?_⟩
    · split
      · exact h
      · simpa using h
    · obtain ⟨l, hl, hmem⟩ := mem_flatten.1 hmem
      obtain ⟨cs, hcs, rfl⟩ := mem_map.1 hl
      obtain ⟨d, hd, rfl⟩ := mem_map.1 hcs
      exact hds d hd (by simpa using hmem)

lemma ne_empty_extended (h : text ≠ "") : extended text ds ≠ "" := by
  by_cases hds : ds = []
  · rw [hds]
    exact h
  · intro hnil
    have hends := endsInFeed_ended text
    have htext : (extended text ds).toList = _ := toList_extended hds
    rw [hnil] at htext
    rw [(append_eq_nil_iff.1 htext.symm).1] at hends
    cases hends

/-! ## One offer -/

lemma additions_eq (ds : List Dependency) (ls : List Int) :
    additions ds ls = if ds.length ≤ ls.length then .ok (ds.zipWith addition ls) else .error .outOfRange := by
  induction ds generalizing ls with
  | nil => rfl
  | cons d ds ih =>
    cases ls with
    | nil => rfl
    | cons l ls =>
      rw [additions, ih]
      simp only [length_cons, Nat.add_le_add_iff_right]
      split <;> rfl

/-- The changes that a listing reports for new packages, which come behind `n` lines. -/
def additionsBehind (n : Nat) (ds : List Dependency) : List Change :=
  ds.zipWith addition ((range ds.length).map fun i => ((n + i + 1 : Nat) : Int))

/-- **One offer.** A listing writes what is new behind its text and reports it, line by line. -/
theorem planListing_of_text (dir file : String) (hread : readText content = .ok text) (htext : text ≠ "") (hds : ds ≠ []) :
    ∃ diff, planListing content dir file ds = .go
      (do return { path := ← relativePath dir file, diff, changes := additionsBehind (splitFeeds (ended text)).length ds })
      (extended text ds) := by
  have hlines : splitFeeds (ended text) ≠ [] := by
    intro hnil
    have hends := endsInFeed_ended text
    rw [← flatten_feedLines (ended text).toList, map_eq_nil_iff.1 hnil] at hends
    cases hends
  have hjoin : String.join (splitFeeds (ended text) ++ ds.map lineOf) = extended text ds := by
    refine String.toList_injective ?_
    rw [toList_extended hds, String.toList_join, flatMap_append, flatMap_def, flatMap_def, map_lineOf, splitFeeds, map_map]
    refine congrArg (· ++ _) ?_
    have hid : String.toList ∘ String.ofList = id := funext fun cs => String.toList_ofList
    rw [hid, map_id, flatten_feedLines]
  refine ⟨Diff.unified (splitFeeds (ended text)) (splitFeeds (ended text) ++ ds.map lineOf), ?_⟩
  rw [planListing, hread]
  dsimp only
  rw [endLastLine_splitFeeds htext, if_neg (by simpa using hlines), additions_eq, if_pos (by simp)]
  refine congrArg₂ Plan.go rfl hjoin

lemma write_of_known (hkind : s.kind = .listing) (hnew : news s.requirements ds = []) :
    (write fs dir s ds false).result = .ok none ∧ (write fs dir s ds false).files = fs := by
  rw [write_of_nothing (by rw [hkind]; decide) (by rw [addNew_news, hnew])]
  exact ⟨rfl, rfl⟩

lemma write_of_news (hkind : s.kind = .listing) (hread : readText (fs.get? s.file) = .ok text) (htext : text ≠ "")
    (hnew : news s.requirements ds ≠ []) :
    (write fs dir s ds false).files = fs.putText s.file (extended text (news s.requirements ds)) ∧
      ∃ diff, (write fs dir s ds false).result = (relativePath dir s.file).map fun path =>
        some { path, diff, changes := additionsBehind (splitFeeds (ended text)).length (news s.requirements ds) } := by
  obtain ⟨diff, hplan⟩ := planListing_of_text dir s.file hread htext hnew
  have hkindPlan : s.plan (fs.get? s.file) dir (news s.requirements ds) =
      planListing (fs.get? s.file) dir s.file (news s.requirements ds) := by
    rw [plan, hkind]
  rw [write_of_new (by rw [hkind]; decide) (by rw [addNew_news]; exact hnew), addNew_news]
  rw [hkindPlan, hplan]
  refine ⟨rfl, diff, ?_⟩
  cases relativePath dir s.file <;> rfl

/-! ## All offers -/

/-- The packages of an offer that are new after earlier offers. -/
def added (s : Store) (before : List (List Dependency)) (ds : List Dependency) : List Dependency :=
  news (s.requirements ++ before.flatten.map (·.requirement)) ds

lemma news_concat :
    news s.requirements (before ++ [ds]).flatten = news s.requirements before.flatten ++ added s before ds := by
  rw [flatten_append, flatten_singleton, news_append]
  rfl

lemma news_afterOffers (hkind : s.kind = .listing) (dir : String) (fs : Files) (before : List (List Dependency))
    (ds : List Dependency) : news (afterOffers dir fs s before).2.requirements ds = added s before ds := by
  rw [store_afterOffers hkind]
  exact news_after s before.flatten ds

lemma exists_offer_of_mem_news (h : d ∈ news known offers.flatten) :
    ∃ before ds rest, offers = before ++ ds :: rest ∧ d ∈ news (known ++ before.flatten.map (·.requirement)) ds := by
  induction offers generalizing known with
  | nil => cases h
  | cons ds offers ih =>
    rw [flatten_cons, news_append] at h
    rcases mem_append.1 h with h | h
    · exact ⟨[], ds, offers, rfl, by simpa using h⟩
    · obtain ⟨before, es, rest, rfl, hmem⟩ := ih h
      refine ⟨ds :: before, es, rest, rfl, ?_⟩
      rwa [flatten_cons, map_append, ← append_assoc]

/-- What the file should hold. -/
def heldAfter (old : Option Content) (text : String) (new : List Dependency) : Option Content :=
  if new.isEmpty then old else some (.text (extended text new))

lemma readText_heldAfter (hread : readText old = .ok text)
    (hone : ∀ d ∈ new, IsOneLine d.requirement.text) : readText (heldAfter old text new) = .ok (extended text new) := by
  by_cases hnew : new = []
  · rw [hnew]
    exact hread
  · rw [heldAfter, if_neg (by simpa using hnew)]
    exact readText_text (notMem_extended (notMem_of_readText hread) fun d hd => (hone d hd).2)

section

variable (dir) (hkind : s.kind = .listing) (hread : readText (fs.get? s.file) = .ok text) (htext : text ≠ "")
include hkind

lemma write_after_of_known (hnew : added s before ds = []) :
    (write (afterOffers dir fs s before).1 dir (afterOffers dir fs s before).2 ds false).result = .ok none ∧
      (write (afterOffers dir fs s before).1 dir (afterOffers dir fs s before).2 ds false).files =
        (afterOffers dir fs s before).1 := by
  refine write_of_known ?_ ((news_afterOffers hkind dir fs before ds).trans hnew)
  rw [store_afterOffers hkind]
  exact hkind
include hread htext

lemma write_after (hone : ∀ d ∈ news s.requirements before.flatten, IsOneLine d.requirement.text)
    (hheld : (afterOffers dir fs s before).1.get? s.file =
      heldAfter (fs.get? s.file) text (news s.requirements before.flatten)) (hnew : added s before ds ≠ []) :
    (write (afterOffers dir fs s before).1 dir (afterOffers dir fs s before).2 ds false).files =
        (afterOffers dir fs s before).1.putText s.file
          (extended (extended text (news s.requirements before.flatten)) (added s before ds)) ∧
      ∃ diff, (write (afterOffers dir fs s before).1 dir (afterOffers dir fs s before).2 ds false).result =
        (relativePath dir s.file).map fun path => some {
          path, diff
          changes := additionsBehind
            (splitFeeds (ended (extended text (news s.requirements before.flatten)))).length (added s before ds) } := by
  have hnews := news_afterOffers hkind dir fs before ds
  have hfile : (afterOffers dir fs s before).2.file = s.file := by rw [store_afterOffers hkind]
  rw [← hnews, ← hfile]
  refine write_of_news ?_ ?_ (ne_empty_extended htext) (hnews ▸ hnew)
  · rw [store_afterOffers hkind]
    exact hkind
  · rw [hfile, hheld]
    exact readText_heldAfter hread hone

lemma get?_afterOffers (hone : ∀ d ∈ news s.requirements offers.flatten, IsOneLine d.requirement.text) :
    (afterOffers dir fs s offers).1.get? s.file =
      heldAfter (fs.get? s.file) text (news s.requirements offers.flatten) := by
  induction offers using reverseRecOn with
  | nil => rfl
  | append_singleton before ds ih =>
    rw [news_concat] at hone ⊢
    have hone' : ∀ d ∈ news s.requirements before.flatten, IsOneLine d.requirement.text :=
      fun d hd => hone d (mem_append_left _ hd)
    rw [afterOffers_concat]
    by_cases hnew : added s before ds = []
    · rw [(write_after_of_known dir hkind hnew).2, ih hone', hnew, append_nil]
    · rw [(write_after dir hkind hread htext hone' (ih hone') hnew).1, extended_append, Files.putText, Files.get?_put_self,
        heldAfter, if_neg (by simp [hnew])]

end

/-- Do the changes carry the numbers of the lines on which packages were added to a text? -/
structure NamesLines (old new : String) (ds : List Dependency) (changes : List Change) : Prop where
  lines : splitFeeds new = splitFeeds (ended old) ++ ds.map lineOf
  numbers : changes.map (·.line) = (range ds.length).map fun i => .number ((splitFeeds (ended old)).length + i + 1 : Nat)

/-- What an offer must lead to: if nothing is new, nothing happens; otherwise a report names the new lines. -/
def Answered (file : String) (before : Files) (o : Outcome) (new : List Dependency) : Prop :=
  if new.isEmpty then o.result = .ok none ∧ o.files = before
  else ∃ c old text, o.result = .ok (some c) ∧ readText (before.get? file) = .ok old ∧
    readText (o.files.get? file) = .ok text ∧ NamesLines old text new c.changes

/-- Do the file, the store and the reports agree after all offers? -/
structure InStep (dir : String) (fs : Files) (s : Store) (text : String) (offers : List (List Dependency)) : Prop where
  file : (afterOffers dir fs s offers).1.get? s.file = heldAfter (fs.get? s.file) text (news s.requirements offers.flatten)
  store : (afterOffers dir fs s offers).2 =
    { s with requirements := s.requirements ++ (news s.requirements offers.flatten).map (·.requirement) }
  answers : ∀ before ds rest, offers = before ++ ds :: rest → Answered s.file (afterOffers dir fs s before).1
      (write (afterOffers dir fs s before).1 dir (afterOffers dir fs s before).2 ds false) (added s before ds)

lemma line_additionsBehind (n : Nat) :
    (additionsBehind n ds).map (·.line) = (range ds.length).map fun i => .number (n + i + 1 : Nat) := by
  have hzip {ls : List Int} (h : ds.length = ls.length) :
      (ds.zipWith addition ls).map (·.line) = ls.map LineRef.number := by
    induction ds generalizing ls with
    | nil => rw [length_eq_zero_iff.1 h.symm]; rfl
    | cons d ds ih =>
      cases ls with
      | nil => cases h
      | cons l ls => exact congrArg (.number l :: ·) (ih (Nat.succ.inj h))
  rw [additionsBehind, hzip (by simp), map_map]
  rfl

lemma exists_relativePath_iff :
    (∃ path, relativePath dir file = .ok path) ↔ (Path.relativeTo? file dir).isSome = true := by
  rw [relativePath]
  cases Path.relativeTo? file dir <;> simp

lemma isOneLine_of_namesLines {old new : String} {changes : List Change} (hread : readText content = .ok new)
    (h : NamesLines old new ds changes) (hd : d ∈ ds) :
    IsOneLine d.requirement.text := by
  have hline : (lineOf d).toList ∈ feedLines new.toList := by
    have hmem : lineOf d ∈ splitFeeds new := by
      rw [h.lines]
      exact mem_append_right _ (mem_map_of_mem hd)
    obtain ⟨cs, hcs, heq⟩ := mem_map.1 hmem
    rwa [← heq, String.toList_ofList]
  rw [toList_lineOf] at hline
  refine ⟨?_, fun hr => notMem_of_readText hread ?_⟩
  · have hfeed := (isLine_of_mem_feedLines hline).2
    rwa [withoutFeed_concat] at hfeed
  · rw [← flatten_feedLines new.toList]
    exact mem_flatten.2 ⟨_, hline, mem_append_left _ hr⟩

/-- **List, file and reports agree.** Whatever is offered to a list of requirements in whatever order, the list grows by
what is new. The file grows by a line for each new requirement, and the reports name these lines, if and only if each
new requirement is written in one line and the file, unless nothing is new, lies in the directory that reports start
from. -/
theorem inStep_iff (hkind : s.kind = .listing) (hread : readText (fs.get? s.file) = .ok text) (htext : text ≠ "") :
    (afterOffers dir fs s offers).2 =
        { s with requirements := s.requirements ++ (news s.requirements offers.flatten).map (·.requirement) } ∧
      (InStep dir fs s text offers ↔ (∀ d ∈ news s.requirements offers.flatten, IsOneLine d.requirement.text) ∧
          (news s.requirements offers.flatten ≠ [] → (Path.relativeTo? s.file dir).isSome = true)) := by
  have hbefore {before : List (List Dependency)} {ds : List Dependency} {rest : List (List Dependency)}
      (hone : ∀ d ∈ news s.requirements offers.flatten, IsOneLine d.requirement.text)
      (hoffers : offers = before ++ ds :: rest) :
      (∀ d ∈ news s.requirements before.flatten, IsOneLine d.requirement.text) ∧
        ∀ d ∈ added s before ds, IsOneLine d.requirement.text := by
    have hsplit : offers = (before ++ [ds]) ++ rest := by simp [hoffers]
    rw [hsplit, List.flatten_append, news_append, news_concat] at hone
    simp only [List.mem_append, or_imp, forall_and] at hone
    exact hone.1
  refine ⟨store_afterOffers hkind dir fs offers, fun h => ?_, fun h => ?_⟩
  · have hone : ∀ d ∈ news s.requirements offers.flatten, IsOneLine d.requirement.text := by
      intro d hd
      obtain ⟨before, ds, rest, hoffers, hmem⟩ := exists_offer_of_mem_news hd
      have hanswer := h.answers before ds rest hoffers
      rw [Answered, if_neg (by rw [List.isEmpty_iff]; exact List.ne_nil_of_mem hmem)] at hanswer
      obtain ⟨c, old, new, -, -, hnew, hlines⟩ := hanswer
      exact isOneLine_of_namesLines hnew hlines hmem
    refine ⟨hone, fun hnew => ?_⟩
    obtain ⟨d, hd⟩ := List.exists_mem_of_ne_nil _ hnew
    obtain ⟨before, ds, rest, hoffers, hmem⟩ := exists_offer_of_mem_news hd
    have hadded : added s before ds ≠ [] := List.ne_nil_of_mem hmem
    have hanswer := h.answers before ds rest hoffers
    rw [Answered, if_neg (by rwa [List.isEmpty_iff])] at hanswer
    obtain ⟨c, -, -, hresult, -⟩ := hanswer
    have hone' := (hbefore hone hoffers).1
    obtain ⟨diff, hwrite⟩ :=
      (write_after dir hkind hread htext hone' (get?_afterOffers dir hkind hread htext hone') hadded).2
    rw [hwrite] at hresult
    refine exists_relativePath_iff.1 ?_
    cases hrel : relativePath dir s.file with
    | error f => rw [hrel] at hresult; cases hresult
    | ok path => exact ⟨path, rfl⟩
  · obtain ⟨hone, hpath⟩ := h
    refine ⟨get?_afterOffers dir hkind hread htext hone, store_afterOffers hkind dir fs offers, fun before ds rest hoffers => ?_⟩
    obtain ⟨hone', hone''⟩ := hbefore hone hoffers
    rw [Answered]
    split
    next hnew => exact write_after_of_known dir hkind (List.isEmpty_iff.1 hnew)
    next hnew =>
      rw [List.isEmpty_iff] at hnew
      have hheld := get?_afterOffers dir hkind hread htext hone'
      obtain ⟨hfiles, diff, hresult⟩ := write_after dir hkind hread htext hone' hheld hnew
      have hsome : news s.requirements offers.flatten ≠ [] := by
        have hsplit : offers = (before ++ [ds]) ++ rest := by simp [hoffers]
        rw [hsplit, List.flatten_append, news_append, news_concat]
        simp [hnew]
      obtain ⟨path, hrel⟩ := exists_relativePath_iff.2 (hpath hsome)
      have hold : readText ((afterOffers dir fs s before).1.get? s.file) =
          .ok (extended text (news s.requirements before.flatten)) := by
        rw [hheld]
        exact readText_heldAfter hread hone'
      rw [hrel] at hresult
      refine ⟨_, _, extended (extended text (news s.requirements before.flatten)) (added s before ds), hresult, hold, ?_,
        splitFeeds_extended hnew fun d hd => (hone'' d hd).1, line_additionsBehind ..⟩
      rw [hfiles, Files.putText, Files.get?_put_self]
      exact readText_text (notMem_extended (notMem_of_readText hold) fun d hd => (hone'' d hd).2)

def lonelyListing : Store := ⟨.listing, "proj/requirements.txt", [], []⟩

def lonelyFiles : Files := { entries := [("proj/requirements.txt", .text "a\n")] }

/-- A package whose address goes over two lines, and another one. -/
def brokenAddress : List Dependency :=
  [{ Dependency.security with requirement := { name := "x", url := some "https://e.com/a\nb" } },
    { Dependency.security with requirement := { name := "six" } }]

/-- The second package is on the fourth line, and the third is reported. -/
theorem brokenAddress_not_inStep :
    lonelyListing.kind = .listing ∧ readText (lonelyFiles.get? lonelyListing.file) = .ok "a\n" ∧
      ¬ InStep "proj" lonelyFiles lonelyListing "a\n" [brokenAddress] := by
  have hread : readText (lonelyFiles.get? lonelyListing.file) = .ok "a\n" := by decide +kernel
  refine ⟨rfl, hread, fun h => ?_⟩
  have hone := ((inStep_iff rfl hread (by decide)).2.1 h).1
  exact absurd hone (by decide +kernel)

end Mender.Project
