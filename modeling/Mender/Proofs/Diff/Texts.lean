import Mender.Proofs.Diff.Patch

/-!
# Diffs of texts

A diff is made of lines that all line ends cut, and read by line feeds alone. Applied to the old text it gives the new
one exactly if line feeds are the only line ends as far as the diff reaches, and if both texts end their last line or
neither does (`patch_ofTexts_iff`, `patch_ofTexts_iff_sameEnd`). It gives the new text from no other text than the one
that was compared (`patch_ofTexts_iff_eq`).
-/

namespace Mender.Diff

open Text List

/-! ## The text of a diff -/

lemma toList_endLine (l : String) : (endLine l).toList = bare l ++ ['\n'] := by
  rw [endLine, endsWith_feed, bare]
  split
  next h => exact eq_concat_of_endsInFeed h
  next h => rw [withoutFeed_of_not (by simpa using h), String.toList_append]; rfl

lemma piecesOf_joinLines {ls : List String} (hls : ∀ l ∈ ls, IsLine l.toList) (hne : ls ≠ []) :
    ∃ stop, (stop = [] ∨ stop = [[]]) ∧ piecesOf '\n' (joinLines ls).toList = ls.map bare ++ stop := by
  induction ls with
  | nil => exact absurd rfl hne
  | cons l ls ih =>
    obtain ⟨hl, hls⟩ := forall_mem_cons.1 hls
    cases ls with
    | nil =>
      refine ⟨if endsInFeed l.toList then [[]] else [], ?_, piecesOf_isLine hl⟩
      split
      · exact .inr rfl
      · exact .inl rfl
    | cons l' ls =>
      obtain ⟨stop, hstop, hpieces⟩ := ih hls (cons_ne_nil _ _)
      refine ⟨stop, hstop, ?_⟩
      rw [joinLines, String.toList_append, toList_endLine, append_assoc, singleton_append, bare,
        piecesOf_append hl.2, hpieces]
      · rfl
      · exact fun hnil => cons_ne_nil _ _ hnil

variable {olds news as bs : List String} {gs : List (List Op)}

def AreLines (ls : List String) : Prop := ∀ l ∈ ls, IsLine l.toList

lemma areLines_splitLines (s : String) : AreLines (splitLines s) := by
  intro l hl
  obtain ⟨cs, hcs, rfl⟩ := mem_map.1 hl
  rw [String.toList_ofList]
  exact isLine_of_mem_linesOf hcs

lemma AreLines.slice (h : AreLines olds) (i j : Nat) : AreLines ((olds.take j).drop i) :=
  fun l hl => h l (mem_of_mem_take (mem_of_mem_drop hl))

lemma AreLines.append (h : AreLines olds) (h' : AreLines news) : AreLines (olds ++ news) := forall_mem_append.2 ⟨h, h'⟩

lemma AreLines.map (h : AreLines olds) {f : String → String} {c : Char} (hc : c ≠ '\n')
    (hf : ∀ l, (f l).toList = c :: l.toList) : AreLines (olds.map f) := by
  intro l hl
  obtain ⟨l', hl', rfl⟩ := mem_map.1 hl
  rw [hf]
  exact (h l' hl').cons hc

lemma areLines_opLines (hold : AreLines olds) (hnew : AreLines news) (o : Op) : AreLines (opLines olds news o) := by
  have hkept := (hold.slice o.from1 o.to1).map (f := (" " ++ ·)) (c := ' ') (by decide) fun l => String.toList_append
  have hdeleted := (hold.slice o.from1 o.to1).map (f := ("-" ++ ·)) (c := '-') (by decide) fun l => String.toList_append
  have hadded := (hnew.slice o.from2 o.to2).map (f := ("+" ++ ·)) (c := '+') (by decide) fun l => String.toList_append
  rw [opLines]
  split
  · exact hkept
  · exact hdeleted.append hadded
  · exact hdeleted
  · exact hadded

lemma isLine_headText (i n j m : Nat) : IsLine (headText i n j m).toList := by
  have hfeed : ∀ i n, '\n' ∉ (range i (i + n)).toList := notMem_range (by decide) (by decide)
  rw [toList_headText]
  exact isLine_concat _ (by simp [hfeed])

lemma areLines_groupLines (hold : AreLines olds) (hnew : AreLines news) (g : List Op) :
    AreLines (groupLines olds news g) := by
  rw [groupLines]
  split
  next a z _ _ =>
    have hrange (i j : Nat) : range i j = range i (i + (j - i)) := by rw [range, range, Nat.add_sub_cancel_left]
    rw [hrange a.from1, hrange a.from2]
    exact forall_mem_cons.2 ⟨isLine_headText .., forall_mem_flatMap.2 fun o _ => areLines_opLines hold hnew o⟩
  next => exact forall_mem_nil _

lemma areLines_unifiedLines (hold : AreLines olds) (hnew : AreLines news) : AreLines (unifiedLines olds news) := by
  rw [unifiedLines]
  split
  · exact nofun
  · refine forall_mem_cons.2 ⟨isLine_concat ['-', '-', '-', ' '] (by decide), forall_mem_cons.2 ⟨?_, ?_⟩⟩
    · exact isLine_concat ['+', '+', '+', ' '] (by decide)
    · exact forall_mem_flatMap.2 fun g _ => areLines_groupLines hold hnew g

/-! ## Applying it -/

lemma eq_of_parted_nil {i j : Nat} (h : Parted i j as bs []) : as = bs := by
  generalize hgs : ([] : List (List Op)) = gs at h
  induction h with
  | nil => rfl
  | skip same _ ih => rw [ih hgs]
  | group => cases hgs

/-- **A diff does what its groups say.** Lines of the old text behind the last group may be cut in any way. -/
theorem patch_unified {old : String} {tail : List (List Char)} (hold : AreLines olds) (hnew : AreLines news)
    (has : as <+: olds) (hbs : bs <+: news) (hparted : Parted 0 0 as bs (groups 3 (operations olds news)))
    (hpieces : piecesOf '\n' old.toList = as.map bare ++ tail) :
    patch (unified olds news) old = some (String.ofList (['\n'].intercalate (bs.map bare ++ tail))) := by
  have hlines := areLines_unifiedLines hold hnew
  rw [unified]
  rw [unifiedLines] at hlines ⊢
  split at hlines
  next hgroups =>
    rw [hgroups] at hparted
    rw [← eq_of_parted_nil hparted, ← hpieces, intercalate_piecesOf, String.ofList_toList]
    rfl
  next =>
    obtain ⟨stop, hstop, hdiff⟩ := piecesOf_joinLines hlines (cons_ne_nil _ _)
    have hminus : bare "--- \n" = ['-', '-', '-', ' '] := @withoutFeed_concat ['-', '-', '-', ' ']
    have hplus : bare "+++ \n" = ['+', '+', '+', ' '] := @withoutFeed_concat ['+', '+', '+', ' ']
    have hfollow := @follow_parted 0 tail 0 0 as bs olds news _ hparted has hbs [] stop rfl hstop
    rw [nil_append, ← hpieces] at hfollow
    rw [patch, hdiff]
    exact congrArg (Option.map _) hfollow

/-! ## How far a diff reaches -/

/-- How many lines of either text stand before the end of the last group of their diff. -/
def reach (old new : String) : Nat × Nat :=
  match (groups 3 (operations (splitLines old) (splitLines new))).flatten.getLast? with
  | some z => (z.to1, z.to2)
  | none => (0, 0)

lemma parted_of_flatten (h : gs.flatten = []) (i j : Nat) : @Parted String i j [] [] gs := by
  induction gs with
  | nil => exact .nil i j
  | cons g gs ih =>
    rw [flatten_cons, append_eq_nil_iff] at h
    rw [h.1]
    exact .group (.nil i j) (ih h.2)

lemma exists_of_parted {i j : Nat} (h : Parted i j as bs gs) :
    ∃ as' bs' same, as = as' ++ same ∧ bs = bs' ++ same ∧ Parted i j as' bs' gs ∧ (gs.flatten = [] → as' = [] ∧ bs' = []) ∧
      ∀ z, gs.flatten.getLast? = some z → z.to1 = i + as'.length ∧ z.to2 = j + bs'.length := by
  induction h with
  | nil i j => exact ⟨[], [], [], rfl, rfl, .nil i j, fun _ => ⟨rfl, rfl⟩, nofun⟩
  | @skip i j as bs gs s hrest ih =>
    obtain ⟨as', bs', same, rfl, rfl, hparted, hempty, hlast⟩ := ih
    by_cases hgs : gs.flatten = []
    · obtain ⟨rfl, rfl⟩ := hempty hgs
      refine ⟨[], [], s ++ same, rfl, rfl, parted_of_flatten hgs i j, fun _ => ⟨rfl, rfl⟩, ?_⟩
      rw [hgs]
      exact nofun
    · refine ⟨s ++ as', s ++ bs', same, (append_assoc ..).symm, (append_assoc ..).symm,
        .skip s hparted, fun h => absurd h hgs, fun z hz => ?_⟩
      rw [length_append, length_append, ← Nat.add_assoc, ← Nat.add_assoc]
      exact hlast z hz
  | @group i j xs ys as bs g gs hedits hrest ih =>
    obtain ⟨as', bs', same, rfl, rfl, hparted, hempty, hlast⟩ := ih
    refine ⟨xs ++ as', ys ++ bs', same, (append_assoc ..).symm, (append_assoc ..).symm,
      .group hedits hparted, fun h => ?_, fun z hz => ?_⟩
    · rw [flatten_cons, append_eq_nil_iff] at h
      obtain ⟨rfl, rfl⟩ := hempty h.2
      rw [h.1] at hedits
      cases hedits
      exact ⟨rfl, rfl⟩
    · rw [length_append, length_append, ← Nat.add_assoc, ← Nat.add_assoc]
      by_cases hgs : gs.flatten = []
      · obtain ⟨rfl, rfl⟩ := hempty hgs
        rw [flatten_cons, hgs, append_nil] at hz
        exact hedits.last hz
      · refine hlast z ?_
        rw [flatten_cons, getLast?_append, getLast?_eq_some_getLast hgs] at hz
        rwa [getLast?_eq_some_getLast hgs]

lemma exists_of_reach (old new : String) : ∃ as bs same, splitLines old = as ++ same ∧ splitLines new = bs ++ same ∧
      Parted 0 0 as bs (groups 3 (operations (splitLines old) (splitLines new))) ∧
      reach old new = (as.length, bs.length) := by
  obtain ⟨as, bs, same, has, hbs, hparted, hempty, hlast⟩ :=
    exists_of_parted (parted_groups (edits_operations (splitLines old) (splitLines new)) 3)
  refine ⟨as, bs, same, has, hbs, hparted, ?_⟩
  rw [reach]
  split
  next z hz => rw [(hlast z hz).1, (hlast z hz).2, Nat.zero_add, Nat.zero_add]
  next hnone =>
    obtain ⟨rfl, rfl⟩ := hempty (getLast?_eq_none_iff.1 hnone)
    rfl

/-! ## Old and new texts -/

variable {old new s : String}

lemma map_bare_splitLines (s : String) : (splitLines s).map bare = (linesOf s.toList).map withoutFeed := by
  rw [splitLines, map_map]
  refine map_congr_left fun l _ => ?_
  rw [Function.comp_apply, bare, String.toList_ofList]

lemma piecesOf_toList {n : Nat} (h : FeedsEnd n (linesOf s.toList)) :
    piecesOf '\n' s.toList = ((linesOf s.toList).take n).map withoutFeed ++ piecesBehind n (linesOf s.toList) := by
  have hpieces := piecesOf_of_feedsEnd (fun l hl => isLine_of_mem_linesOf hl) h
  rwa [flatten_linesOf] at hpieces

/-- **What a diff makes of the old text**: the new lines that it reaches, each by itself, and then what stands behind
them in the old text. -/
theorem patch_ofTexts (h : FeedsEnd (reach old new).1 (linesOf old.toList)) : patch (ofTexts old new) old =
      some (String.ofList (['\n'].intercalate (((linesOf new.toList).take (reach old new).2).map withoutFeed ++
        piecesBehind (reach old new).1 (linesOf old.toList)))) := by
  obtain ⟨as, bs, same, has, hbs, hparted, hreach⟩ := exists_of_reach old new
  have hlines : ∀ {s : String} {front back : List String}, splitLines s = front ++ back →
      ((linesOf s.toList).take front.length).map withoutFeed = front.map bare := by
    intro s front back hs
    rw [map_take, ← map_bare_splitLines, hs, map_append, take_left' (length_map _)]
  rw [hreach] at h ⊢
  rw [hlines hbs]
  refine patch_unified (areLines_splitLines old) (areLines_splitLines new) ⟨same, has.symm⟩ ⟨same, hbs.symm⟩ hparted ?_
  rw [piecesOf_toList h, hlines has]

lemma drop_reach (old new : String) :
    (linesOf old.toList).drop (reach old new).1 = (linesOf new.toList).drop (reach old new).2 := by
  obtain ⟨as, bs, same, has, hbs, -, hreach⟩ := exists_of_reach old new
  have hdrop : ∀ {s : String} {front : List String}, splitLines s = front ++ same →
      ((linesOf s.toList).drop front.length).map String.ofList = same := by
    intro s front hs
    rw [map_drop]
    exact (congrArg _ hs).trans (drop_left ..)
  rw [hreach]
  exact (map_inj_right fun _ _ h => String.ofList_injective h).1 ((hdrop has).trans (hdrop hbs).symm)

/-- Do both texts end their last line, or neither? An empty text may follow on any. -/
def SameEnd (old new : String) : Prop := new = "" ∨ isEnded (linesOf old.toList) = isEnded (linesOf new.toList)

instance (old new : String) : Decidable (SameEnd old new) :=
  inferInstanceAs (Decidable (new = "" ∨ isEnded (linesOf old.toList) = isEnded (linesOf new.toList)))

variable {n m : Nat} {ls ls' : List (List Char)}

section

variable (hdrop : ls.drop n = ls'.drop m)
include hdrop

lemma lt_length_iff_of_drop : n < ls.length ↔ m < ls'.length := by
  have hlength := congrArg length hdrop
  rw [length_drop, length_drop] at hlength
  omega

lemma piecesBehind_eq (hends : isEnded ls = isEnded ls') : piecesBehind n ls = piecesBehind m ls' := by
  rw [piecesBehind, piecesBehind, hdrop, hends]
  simp only [lt_length_iff_of_drop hdrop]

lemma isEnded_eq_of_drop (hn : n < ls.length) : isEnded ls = isEnded ls' := by
  have hm := (lt_length_iff_of_drop hdrop).1 hn
  have hlast := congrArg getLast? hdrop
  rw [getLast?_drop, getLast?_drop, if_neg (by omega), if_neg (by omega)] at hlast
  rw [isEnded, isEnded, hlast]

end

lemma notMem_of_mem_piecesBehind {l : List Char} (h : l ∈ piecesBehind n ls) : '\n' ∉ l := by
  rw [piecesBehind] at h
  split at h
  · exact notMem_of_mem_piecesOf h
  · split at h
    · rw [mem_singleton.1 h]
      exact not_mem_nil
    · cases h

lemma eq_of_feedsEnd (h : FeedsEnd n (linesOf new.toList)) :
    String.ofList (['\n'].intercalate (((linesOf new.toList).take n).map withoutFeed ++
      piecesBehind n (linesOf new.toList))) = new := by
  rw [← piecesOf_toList h, intercalate_piecesOf, String.ofList_toList]

lemma piecesOf_of_eq (hne : new ≠ "")
    (h : String.ofList (['\n'].intercalate (((linesOf new.toList).take n).map withoutFeed ++ piecesBehind m ls)) = new) :
    piecesOf '\n' new.toList = ((linesOf new.toList).take n).map withoutFeed ++ piecesBehind m ls := by
  generalize hps : ((linesOf new.toList).take n).map withoutFeed ++ piecesBehind m ls = ps at h
  have hsome : ps ≠ [] := by
    rintro rfl
    exact hne h.symm
  have hfree : ∀ l ∈ ps, '\n' ∉ l := by
    intro l hl
    rcases mem_append.1 (hps ▸ hl) with hl | hl
    · obtain ⟨line, hline, rfl⟩ := mem_map.1 hl
      exact (isLine_of_mem_linesOf (mem_of_mem_take hline)).2
    · exact notMem_of_mem_piecesBehind hl
  rw [← h, String.toList_ofList, piecesOf_intercalate hsome hfree]

lemma feedsEnd_empty : FeedsEnd n (linesOf "".toList) := fun _ hl => by simp [linesOf] at hl

lemma patch_ofTexts_empty (h : FeedsEnd (reach old "").1 (linesOf old.toList)) : patch (ofTexts old "") old = some "" := by
  have hlines : linesOf "".toList = [] := rfl
  have hdrop := drop_reach old ""
  rw [hlines, drop_nil, drop_eq_nil_iff] at hdrop
  rw [patch_ofTexts h, hlines, take_nil, piecesBehind, if_neg (by omega)]
  split <;> rfl

/-- **A diff tells what became of a text exactly if line feeds end the new lines** as far as it reaches. -/
theorem patch_ofTexts_iff (h : FeedsEnd (reach old new).1 (linesOf old.toList)) (hends : SameEnd old new) :
    patch (ofTexts old new) old = some new ↔ FeedsEnd (reach old new).2 (linesOf new.toList) := by
  rcases hends with rfl | hends
  · exact iff_of_true (patch_ofTexts_empty h) feedsEnd_empty
  rw [patch_ofTexts h, piecesBehind_eq (drop_reach old new) hends, Option.some_inj]
  refine ⟨fun heq => ?_, eq_of_feedsEnd⟩
  by_cases hne : new = ""
  · rw [hne]
    exact feedsEnd_empty
  · have hpieces := congrArg length (piecesOf_of_eq hne heq)
    rw [length_append, length_map] at hpieces
    refine feedsEnd_of_length (fun l hl => isLine_of_mem_linesOf hl) ?_
    rwa [flatten_linesOf]

lemma patch_ofTexts_iff_sameEnd (h : FeedsEnd (reach old new).1 (linesOf old.toList))
    (h' : FeedsEnd (reach old new).2 (linesOf new.toList)) :
    patch (ofTexts old new) old = some new ↔ SameEnd old new := by
  refine ⟨fun heq => ?_, fun hends => (patch_ofTexts_iff h hends).2 h'⟩
  rw [patch_ofTexts h, Option.some_inj] at heq
  by_cases hne : new = ""
  · exact .inl hne
  refine .inr ?_
  by_cases hreach : (reach old new).1 < (linesOf old.toList).length
  · exact isEnded_eq_of_drop (drop_reach old new) hreach
  · have hpieces := (piecesOf_of_eq hne heq).symm.trans (piecesOf_toList h')
    have hbehind := append_cancel_left hpieces
    have hreach' := mt (lt_length_iff_of_drop (drop_reach old new)).2 hreach
    rw [piecesBehind, piecesBehind, if_neg hreach, if_neg hreach'] at hbehind
    revert hbehind
    cases isEnded (linesOf old.toList) <;> cases isEnded (linesOf new.toList) <;> simp

/-- Does a diff tell all about the ends of lines? -/
structure Tells (old new : String) : Prop where
  oldFeeds : FeedsEnd (reach old new).1 (linesOf old.toList)
  newFeeds : FeedsEnd (reach old new).2 (linesOf new.toList)
  sameEnd : SameEnd old new

lemma patch_ofTexts_iff_eq (h : Tells old new) (hne : new ≠ "") (other : String) :
    patch (ofTexts old new) other = some new ↔ other = old := by
  have hold := (patch_ofTexts_iff h.oldFeeds h.sameEnd).2 h.newFeeds
  refine ⟨fun hother => patch_injective hne hother hold, ?_⟩
  rintro rfl
  exact hold

end Mender.Diff
