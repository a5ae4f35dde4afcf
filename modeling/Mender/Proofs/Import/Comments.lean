import Mender.Proofs.Import.Order

/-!
# Comments above imports

The comments right above an import stay with it when imports are merged and put in order. All comments of a block are
kept exactly if those above its further lines stand right above them, and no import of all that a module has makes an
earlier one with comments superfluous (`comments_kept_iff`).
-/

namespace Mender.Import

open Syntax List Node Option

variable (line : Node) {lines block o os leading : List Node} {place : String → Section}

/-- Does a line hold a comment? -/
def isComment (l : Node) : Bool := (l.get .comment).isPresent

/-- The comments that stand before an import. -/
def comments : List Node := (line.list .leadingLines).filter isComment

/-- The comments above a line that do not stand right above it. -/
def commentsApart : List Node := (splitLeading line).1.filter isComment

lemma filter_commentsAbove : (commentsAbove line).filter isComment = commentsAbove line :=
  filter_eq_self.2 fun _ hl => mem_takeWhile_imp (mem_reverse.1 hl)

lemma append_splitLeading : (splitLeading line).1 ++ commentsAbove line = line.list .leadingLines := by
  have hsuffix : commentsAbove line <:+ line.list .leadingLines := by
    rw [← reverse_prefix, commentsAbove, splitLeading, reverse_reverse]
    exact takeWhile_prefix _
  exact suffix_iff_eq_append.1 hsuffix

lemma comments_eq : comments line = commentsApart line ++ commentsAbove line := by
  rw [comments, ← append_splitLeading, filter_append, filter_commentsAbove, commentsApart]

lemma comments_spaced : comments (spaced line) = comments line := by
  rw [comments, comments, spaced, setList, Node.list]
  rcases get_set_cases line .leadingLines (seq (fresh .emptyLine :: line.list .leadingLines)) with hget | ⟨habsent, hget⟩
  · rw [hget]
    rfl
  · rw [hget, Node.list, habsent]

/-! ## Comments of merged imports -/

section

variable {α β γ δ : Type} [BEq β] [LawfulBEq β] {key : α → β} {add : α → Option γ → γ} {new : α → List δ} (g : γ → List δ)

lemma perm_gatherAt {f : Option γ → γ} (lost : Option γ → List δ) {more : List δ}
    (h : ∀ old, (g (f old) ++ lost old).Perm ((old.map g).getD [] ++ more)) (k : β) (es : List (β × γ)) :
    (((gatherAt k f es).flatMap fun e => g e.2) ++ lost (es.lookup k)).Perm ((es.flatMap fun e => g e.2) ++ more) := by
  induction es with
  | nil => simpa [gatherAt] using h none
  | cons e es ih =>
    rw [gatherAt, lookup_cons, BEq.comm, flatMap_cons]
    cases k == e.1 with
    | true =>
      -- what was gathered under the key before makes room for the new
      rw [if_pos rfl, flatMap_cons, append_assoc, append_assoc]
      refine (perm_append_comm.append_left _).trans ?_
      rw [← append_assoc, ← append_assoc]
      exact ((h (some e.2)).append_right _).trans (by
        rw [append_assoc, append_assoc]
        exact perm_append_comm.append_left _)
    | false =>
      rw [if_neg Bool.false_ne_true, flatMap_cons, append_assoc, append_assoc]
      exact ih.append_left _

lemma perm_gather (key : α → β) (h : ∀ x old, (g (add x old)).Perm ((old.map g).getD [] ++ new x)) (xs : List α) :
    ((gather key add xs).flatMap fun e => g e.2).Perm (xs.flatMap new) := by
  induction xs using reverseRecOn with
  | nil => exact .refl _
  | append_singleton xs x ih =>
    have hadd (old : Option γ) : (g (add x old) ++ []).Perm ((old.map g).getD [] ++ new x) := by
      rw [append_nil]
      exact h x old
    have hstep := perm_gatherAt g (fun _ => []) hadd (key x) (gather key add xs)
    rw [append_nil] at hstep
    rw [gather_concat, flatMap_append, flatMap_singleton]
    exact hstep.trans (ih.append_right _)

end

lemma commentLines_addComments (cs : List Node) (gathered : List (List Node)) :
    commentLines (addComments cs gathered) = cs ++ commentLines gathered := by
  rw [addComments]
  split
  next hcs => rw [isEmpty_iff.1 hcs, nil_append]
  next => rw [commentLines, reverse_append, reverse_singleton, singleton_append, flatten_cons, commentLines]

lemma perm_addComments (cs : List Node) (old : Option (List (List Node))) :
    ((commentLines (addComments cs (old.getD []))).filter isComment).Perm
      ((old.map fun cs => (commentLines cs).filter isComment).getD [] ++ cs.filter isComment) := by
  rw [commentLines_addComments, filter_append]
  cases old with
  | none => simp [commentLines]
  | some old => exact perm_append_comm

lemma comments_plainImports (h : ∀ line ∈ lines, (importOf line).aliases ≠ []) :
    ((plainImports lines).flatMap comments).Perm (lines.flatMap commentsAbove) := by
  have hgather := perm_gather (fun cs => (commentLines cs).filter isComment) Prod.fst (fun e old => perm_addComments e.2 old) (lines.flatMap modulesOn)
  rw [plainImports, flatMap_map]
  refine hgather.trans (.of_eq ?_)
  rw [flatMap_assoc]
  refine flatMap_congr fun line hline => ?_
  rw [modulesOn]
  cases haliases : (importOf line).aliases with
  | nil => exact absurd haliases (h line hline)
  | cons a rest => simp [filter_commentsAbove]

lemma comments_of_forall₂ {es : List (String × FromGroup)}
    (h : Forall₂ (fun e o => fromImport e.1 e.2.names (commentLines e.2.comments) = .ok o) es os) :
    os.flatMap comments = es.flatMap fun e => (commentLines e.2.comments).filter isComment := by
  induction h with
  | nil => rfl
  | cons ho _ ih =>
    obtain ⟨sorted, -, ho⟩ := of_bind ho
    cases ho
    rw [flatMap_cons, flatMap_cons, ih]
    rfl

lemma comments_of_nameImports (h : nameImports lines = .ok os) :
    (os.flatMap comments).Perm (lines.flatMap commentsAbove) := by
  rw [comments_of_forall₂ (mapM_eq_ok_iff.1 h)]
  have hadd (line : Node) (old : Option FromGroup) :
      ((commentLines (FromGroup.add line (old.getD {})).comments).filter isComment).Perm
        ((old.map fun g => (commentLines g.comments).filter isComment).getD [] ++ commentsAbove line) := by
    have hperm := perm_addComments (commentsAbove line) (old.map FromGroup.comments)
    rw [filter_commentsAbove] at hperm
    cases old <;> exact hperm
  exact perm_gather (fun g : FromGroup => (commentLines g.comments).filter isComment) moduleOn hadd lines

/-- The comments that stay above imports of all that a module has, by module. -/
def starGroups (lines : List Node) : List (String × List Node) := gather moduleOn (fun line _ => commentsAbove line) lines

def starComments (lines : List Node) (module : String) : List Node :=
  (((starGroups lines).lookup module).map (filter isComment)).getD []

/-- Only the last import of all that a module has keeps its comments. -/
def Overrides (l l' : Node) : Prop := moduleOn l = moduleOn l' → commentsAbove l = []

lemma starComments_eq_nil_iff (h : lines.Pairwise Overrides) (module : String) :
    starComments lines module = [] ↔ ∀ l ∈ lines, moduleOn l = module → commentsAbove l = [] := by
  have hmem (l : Node) : l ∈ lines ∧ moduleOn l = module ↔ l ∈ lines.filter (moduleOn · == module) := by
    rw [mem_filter, beq_iff_eq]
  rw [starComments, starGroups, lookup_gather]
  simp only [← and_imp, hmem]
  rcases eq_nil_or_concat' (lines.filter (moduleOn · == module)) with hnil | ⟨front, last, hlast⟩
  · simp [hnil]
  · have hpair := h.filter (moduleOn · == module)
    simp only [hlast, pairwise_append, mem_singleton, forall_eq] at hpair
    rw [hlast, foldl_concat, map_some, getD_some, filter_commentsAbove]
    refine ⟨fun hnil l hl => ?_, fun hall => hall last (by simp)⟩
    have hmodule : moduleOn l = moduleOn last := ((hmem l).2 (hlast ▸ hl)).2.trans ((hmem last).2 (hlast ▸ by simp)).2.symm
    rcases mem_append.1 hl with hl | hl
    · exact hpair.2.2 l hl hmodule
    · rw [mem_singleton.1 hl, hnil]

lemma comments_starImports (lines : List Node) : ∃ lost,
    (lines.flatMap commentsAbove).Perm ((starImports lines).flatMap comments ++ lost) ∧
      (lost = [] ↔ lines.Pairwise Overrides) := by
  have hnew (lines : List Node) : (starImports lines).flatMap comments =
      (starGroups lines).flatMap fun e => e.2.filter isComment := flatMap_map ..
  simp only [hnew]
  induction lines using reverseRecOn with
  | nil => exact ⟨[], .refl _, by simp⟩
  | append_singleton lines line ih =>
    obtain ⟨lost, hperm, hlost⟩ := ih
    have hconcat : starGroups (lines ++ [line]) = gatherAt (moduleOn line) (fun _ => commentsAbove line) (starGroups lines) :=
      gather_concat ..
    have hstep : ((starGroups (lines ++ [line])).flatMap (fun e => e.2.filter isComment) ++
        starComments lines (moduleOn line)).Perm
          ((starGroups lines).flatMap (fun e => e.2.filter isComment) ++ commentsAbove line) := by
      rw [hconcat]
      refine perm_gatherAt (filter isComment) (fun old => (old.map (filter isComment)).getD []) (fun old => ?_) ..
      rw [filter_commentsAbove]
      exact perm_append_comm
    refine ⟨starComments lines (moduleOn line) ++ lost, ?_, ?_⟩
    · rw [flatMap_append, flatMap_singleton, ← append_assoc]
      refine (hperm.append_right _).trans ?_
      rw [append_assoc]
      refine (perm_append_comm.append_left _).trans ?_
      rw [← append_assoc]
      exact hstep.symm.append_right lost
    · rw [append_eq_nil_iff, pairwise_append, ← hlost, and_comm]
      refine and_congr_right fun hl => ?_
      rw [starComments_eq_nil_iff (hlost.1 hl)]
      simp [Overrides]

/-! ## Blocks -/

lemma perm_plainLines (h : ∀ line ∈ block, requests line ≠ []) : (plainLines block ++ fromLines block).Perm block := by
  refine .trans (.of_eq (congrArg (plainLines block ++ ·) ?_)) (filter_append_perm _ block)
  refine filter_congr fun line hline => ?_
  by_cases hplain : (importOf line).kind = .importStatement
  · simp [hplain]
  · by_cases hfrom : (importOf line).kind = .importFrom
    · simp [hfrom]
    · exact absurd (requests_of_other hplain hfrom) (h line hline)

lemma comments_of_orderBlock (hblock : ∀ line ∈ block, requests line ≠ []) (h : orderBlock place block = .ok o) :
    ∃ lost, (block.flatMap commentsAbove).Perm (o.flatMap comments ++ lost) ∧
      (lost = [] ↔ ((fromLines block).filter isStarLine).Pairwise Overrides) := by
  obtain ⟨froms, hfroms, hperm⟩ := perm_of_orderBlock comments_spaced h
  obtain ⟨names, hnames, hfroms⟩ := of_bind hfroms
  cases hfroms
  obtain ⟨lost, hstars, hlost⟩ := comments_starImports ((fromLines block).filter isStarLine)
  have hplain : ∀ line ∈ plainLines block, (importOf line).aliases ≠ [] := by
    intro line hline haliases
    refine hblock line (mem_of_mem_filter hline) ?_
    rw [requests_plain (kind_of_plainLines hline), haliases]
    rfl
  have hparts := (((filter_append_perm isStarLine (fromLines block)).append_left _).trans
    (perm_plainLines hblock)).flatMap_right commentsAbove
  rw [flatMap_append, flatMap_append] at hparts
  refine ⟨lost, hparts.symm.trans ?_, hlost⟩
  calc _ ~ (plainImports (plainLines block)).flatMap comments ++
          (((starImports ((fromLines block).filter isStarLine)).flatMap comments ++ lost) ++ names.flatMap comments) :=
        (comments_plainImports hplain).symm.append (hstars.append (comments_of_nameImports hnames).symm)
    _ ~ o.flatMap comments ++ lost := by
        refine .trans ?_ (hperm.symm.append_right lost)
        rw [flatMap_append, flatMap_append]
        simp only [append_assoc]
        exact (perm_append_comm.append_left _).append_left _

/-- Can putting a block in order keep its comments? Those above a further line have to stand right above it, and of
imports of all that a module has only the last one is left. -/
structure KeepsComments (block : List Node) : Prop where
  near : ∀ line ∈ block.tail, commentsApart line = []
  last : ((fromLines block).filter isStarLine).Pairwise Overrides

lemma comments_setLeading {line : Node} (h : ((line.setList .leadingLines leading).get .leadingLines).kind = .seq) :
    comments (line.setList .leadingLines leading) = leading.filter isComment := by
  rw [setList] at h ⊢
  rcases get_set_cases line .leadingLines (seq leading) with hget | ⟨habsent, hget⟩
  · rw [comments, Node.list, hget]
    rfl
  · rw [hget] at h
    cases h

lemma comments_of_anchored (hblock : ∀ line ∈ block, requests line ≠ []) (h : anchored place block = .ok o) :
    ∃ lost, (block.flatMap comments).Perm (o.flatMap comments ++ lost) ∧ (lost = [] ↔ KeepsComments block) := by
  have hleading : ∀ line ∈ o, (line.get .leadingLines).kind = .seq := by
    refine forall_anchored (fun line leading hline => ?_) (fun _ _ => rfl) h
    rw [setList]
    rcases get_set_cases line .leadingLines (seq leading) with hget | ⟨habsent, -⟩
    · rw [hget]
      rfl
    · rw [habsent] at hline
      cases hline
  obtain ⟨anchor, rest, first, os, rfl, hordered, rfl⟩ := exists_of_anchored h
  obtain ⟨lost, hperm, hlost⟩ := comments_of_orderBlock hblock hordered
  refine ⟨rest.flatMap commentsApart ++ lost, ?_, ?_⟩
  · have hboth := (flatMap_append_perm (anchor :: rest) commentsApart commentsAbove).symm
    simp only [← comments_eq] at hboth
    refine hboth.trans ((hperm.append_left _).trans ?_)
    rw [flatMap_cons, flatMap_cons, flatMap_cons, comments_setLeading (hleading _ (.head _)), filter_append]
    simp only [append_assoc]
    refine .append_left _ ?_
    exact (perm_append_comm_assoc ..).trans ((perm_append_comm_assoc ..).append_left _)
  · rw [append_eq_nil_iff, hlost, flatMap_eq_nil_iff]
    exact ⟨fun hnil => ⟨hnil.1, hnil.2⟩, fun hkeeps => ⟨hkeeps.near, hkeeps.last⟩⟩

/-- **Comments are kept where they stand right above imports.** A block is put in order, and its comments are those it
had before, exactly if its imports can be put in order and no comment stands apart above a further line, or above one that
imports all that a module has when another one comes later. -/
theorem comments_kept_iff {source : String} {module : Node} (hread : ofModule? source = some module)
    (hb : block ∈ blocks module) (place : String → Section) :
    (∃ o, anchored place block = .ok o ∧ (o.flatMap comments).Perm (block.flatMap comments)) ↔
      Orderable place (block.flatMap requests) ∧ KeepsComments block := by
  have hwhole := whole_of_read hread
  obtain ⟨n, rfl⟩ := exists_numbered hread
  have hrequests := requests_of_mem_blocks hwhole hb
  rw [← anchored_isOk_iff (ne_nil_of_mem_runs hb) hrequests, isOk_iff_exists]
  constructor
  · rintro ⟨o, ho, hperm⟩
    obtain ⟨lost, hboth, hlost⟩ := comments_of_anchored hrequests ho
    refine ⟨⟨o, ho⟩, hlost.1 (length_eq_zero_iff.1 ?_)⟩
    have hlength := hboth.length_eq
    rw [length_append, hperm.length_eq] at hlength
    omega
  · rintro ⟨⟨o, ho⟩, hkeeps⟩
    obtain ⟨lost, hboth, hlost⟩ := comments_of_anchored hrequests ho
    rw [hlost.2 hkeeps, append_nil] at hboth
    exact ⟨o, ho, hboth.symm⟩

/-- A comment that does not stand right above its import. -/
def apart : String := "import b\n# one\n\n# two\nimport a\n"

def apartBlocks : List (List Node) := blocks ((ofModule? apart).getD absent)

/-- The comment is lost when the imports are put in order. -/
theorem apart_not_kept : ∃ block, apartBlocks = [block] ∧ ∃ o, anchored (fun _ => .thirdParty) block = .ok o ∧
    ¬ (o.flatMap comments).Perm (block.flatMap comments) := by
  have hread : (ofModule? apart).isSome = true := by decide +kernel
  have hblocks : (apartBlocks.map fun block => ((anchored (fun _ => .thirdParty) block).isOk,
      block.tail.all fun line => (commentsApart line).isEmpty)) = [(true, false)] := by decide +kernel
  obtain ⟨module, hread⟩ := isSome_iff_exists.1 hread
  obtain ⟨block, hblocks, hblock⟩ := map_eq_singleton_iff.1 hblocks
  obtain ⟨hok, hapart⟩ := Prod.mk.inj hblock
  obtain ⟨o, ho⟩ := exists_of_isOk hok
  refine ⟨block, hblocks, o, ho, fun hperm => ?_⟩
  rw [apartBlocks, hread] at hblocks
  have hkeeps := ((comments_kept_iff hread (hblocks ▸ mem_singleton_self _) _).1 ⟨o, ho, hperm⟩).2
  rw [all_eq_true.2 fun line hline => isEmpty_iff.2 (hkeeps.near line hline)] at hapart
  cases hapart

end Mender.Import
