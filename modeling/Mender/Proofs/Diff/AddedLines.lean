import Mender.Proofs.Diff.Patch

/-!
# The numbers of added lines

A diff marks the lines that its operations bring in (`filter_unifiedLines`). The numbers that are read off it are
theirs (`addedLines_unifiedLines`), so they grow from one to the next (`pairwise_addedLines`), but lines that begin
with a plus sign look like the head of a diff and are left out (`added_listed_iff`).
-/

namespace Mender.Diff

open Text List Bool Nat

/-- The lines that an operation brings in, with their numbers. -/
def Op.added (news : List String) (o : Op) : List (String × Nat) :=
  match o.tag with
  | .replace | .insert => ((news.take o.to2).drop o.from2).zipIdx (o.from2 + 1)
  | .equal | .delete => []

/-- The lines that a diff adds, with their numbers in the new text. -/
def added (as bs : List String) : List (String × Nat) := (groups 3 (operations as bs)).flatten.flatMap (Op.added bs)

/-- The numbers of lines, without those that begin with a plus sign. -/
def listed (ls : List (String × Nat)) : List Int := (ls.filter (! ·.1.startsWith "+")).map fun l => (l.2 : Int)

/-! ## Heads of groups -/

lemma toNat_of_isDigit {c : Char} (h : c.isDigit = true) : 48 ≤ c.toNat ∧ c.toNat ≤ 57 := by
  simpa [Char.isDigit, UInt32.le_iff_toNat_le] using h

lemma isSpace_of_isDigit {c : Char} (h : c.isDigit = true) : isSpace c = false := by
  have hrange := toNat_of_isDigit h
  rw [eq_false_iff, isSpace]
  simp only [ne_eq, or_eq_true, and_eq_true, decide_eq_true_eq, beq_iff_eq]
  omega

lemma digitsValue?_of_isDigit {cs : List Char} (h : ∀ c ∈ cs, c.isDigit = true) (acc : Nat) (after : Bool)
    (hne : cs ≠ [] ∨ after = true) : digitsValue? acc after cs = some (ofDigitChars 10 cs acc) := by
  induction cs generalizing acc after with
  | nil =>
    rw [hne.resolve_left (fun h => h rfl)]
    rfl
  | cons c cs ih =>
    have hc := h c (.head _)
    have hunderscore : c ≠ '_' := by
      rintro rfl
      cases hc
    have hlow : c.toNat < 128 := by
      have := toNat_of_isDigit hc
      omega
    have hvalue : decimalValue? c = some (c.toNat - 48) := by rw [decimalValue?, if_pos hlow, if_pos hc]
    rw [digitsValue?.eq_3 _ _ _ _ hunderscore, hvalue]
    dsimp only
    rw [ih (forall_mem_cons.1 h).2 _ _ (.inr rfl), Nat.mul_comm]
    rfl

lemma int_toDigits (n : Nat) : int (String.ofList (toDigits 10 n)) = .ok (n : Int) := by
  have hdigits : ∀ c ∈ toDigits 10 n, c.isDigit = true := fun c hc => isDigit_of_mem_toDigits (by decide) (by decide) hc
  have htrim : trimRight (trimLeft (toDigits 10 n)) = toDigits 10 n := by
    have hall (cs : List Char) (h : ∀ c ∈ cs, c.isDigit = true) : cs.dropWhile isSpace = cs :=
      dropWhile_of_head? fun c hc => isSpace_of_isDigit (h c (mem_of_mem_head? hc))
    rw [trimLeft, hall _ hdigits, trimRight, hall _ fun c hc => hdigits c (mem_reverse.1 hc), reverse_reverse]
  have hvalue := digitsValue?_of_isDigit hdigits 0 false (.inl toDigits_ne_nil)
  rw [ofDigitChars_ten_toDigits] at hvalue
  have hint : int? (String.ofList (toDigits 10 n)) = some (n : Int) := by
    rw [int?, String.toList_ofList, htrim]
    split
    next rest hsign => exact absurd (hdigits '+' (hsign ▸ mem_cons_self ..)) (by decide)
    next rest hsign => exact absurd (hdigits '-' (hsign ▸ mem_cons_self ..)) (by decide)
    next => rw [hvalue]; rfl
  rw [int, hint]

lemma headLine_headText (i n j m : Nat) : headLine (headText i n j m) = .ok (if m = 0 then (j : Int) - 1 else j) := by
  have hcomma : ∀ k, ',' ∉ '+' :: toDigits 10 k := fun k => by simpa using notMem_toDigits (by decide) k
  have hpieces : (pieces ' ' (headText i n j m))[2]? = some (String.ofList ('+' :: (range j (j + m)).toList)) := by
    have hwords := @piecesOf_head i n j m ['@', '@', '\n'] (by decide)
    rw [pieces, toList_headText]
    simp only [cons_append, append_assoc, nil_append] at hwords ⊢
    rw [hwords]
    rfl
  have hfirst : (pieces ',' (String.ofList ('+' :: (range j (j + m)).toList))).headD "" =
      String.ofList ('+' :: toDigits 10 (if m = 0 then j else j + 1)) := by
    rw [pieces, String.toList_ofList, toList_range]
    split
    next hone => rw [piecesOf_of_notMem (hcomma _), hone]; rfl
    next => rw [← cons_append, piecesOf_append (hcomma _)]; rfl
  rw [headLine, hpieces]
  dsimp only
  rw [hfirst]
  have hdrop : ((String.ofList ('+' :: toDigits 10 (if m = 0 then j else j + 1))).drop 1).toString =
      String.ofList (toDigits 10 (if m = 0 then j else j + 1)) := by
    refine String.toList_injective ?_
    simp
  rw [hdrop, int_toDigits]
  split
  · rfl
  · change Except.ok (((j + 1 : Nat) : Int) - 1) = _
    rw [Int.natCast_succ, Int.add_sub_cancel]

/-! ## Lines of groups -/

variable {i j : Nat} {n : Int} {xs ys as bs olds news : List String} {o : Op} {g : List Op} {gs : List (List Op)}

lemma map_nil_append (r : Except Fault (List Int)) : r.map ([] ++ ·) = r := by cases r <;> rfl

lemma map_append_map (r : Except Fault (List Int)) (ks ls : List (String × Nat)) :
    (r.map (listed ls ++ ·)).map (listed ks ++ ·) = r.map (listed (ks ++ ls) ++ ·) := by
  cases r with
  | error f => rfl
  | ok rest => simp [Except.map, listed]

lemma addedFrom_kept (ls : List String) : addedFrom n (xs.map (" " ++ ·) ++ ls) = addedFrom (n + xs.length) ls := by
  induction xs generalizing n with
  | nil => simp
  | cons x xs ih =>
    have hmarks : (" " ++ x).startsWith "@@" = false ∧ (" " ++ x).startsWith "+" = false ∧
        (" " ++ x).startsWith "-" = false := by
      simp [eq_false_iff, String.startsWith_string_iff]
    rw [map_cons, cons_append, addedFrom]
    simp only [hmarks, false_eq_true, if_false]
    rw [ih, length_cons, Int.natCast_succ, Int.add_assoc, Int.add_comm 1]

lemma addedFrom_deleted (ls : List String) : addedFrom n (xs.map ("-" ++ ·) ++ ls) = addedFrom n ls := by
  induction xs with
  | nil => rfl
  | cons x xs ih =>
    have hmarks : ("-" ++ x).startsWith "@@" = false ∧ ("-" ++ x).startsWith "+" = false := by
      simp [eq_false_iff, String.startsWith_string_iff]
    rw [map_cons, cons_append, addedFrom]
    simpa [hmarks] using ih

/-! The head of a group that shows no new line may give any place. -/

lemma addedFrom_added (hn : ys ≠ [] → n = j) (ls : List String) :
    addedFrom n (ys.map ("+" ++ ·) ++ ls) = (addedFrom (n + ys.length) ls).map (listed (ys.zipIdx (j + 1)) ++ ·) := by
  induction ys generalizing n j with
  | nil => rw [map_nil, nil_append, length_nil, Int.natCast_zero, Int.add_zero]; exact (map_nil_append _).symm
  | cons y ys ih =>
    obtain rfl := hn (cons_ne_nil _ _)
    have hmarks : ("+" ++ y).startsWith "@@" = false ∧ ("+" ++ y).startsWith "+" = true := by
      simp [eq_false_iff, String.startsWith_string_iff]
    have hmore : ("+" ++ y).startsWith "++" = y.startsWith "+" := by
      rw [Bool.eq_iff_iff, String.startsWith_string_iff]
      simp
    rw [map_cons, cons_append, addedFrom, hmarks.1, hmarks.2, hmore, ih fun _ => (Int.natCast_succ j).symm,
      length_cons, Int.natCast_succ, Int.add_assoc, Int.add_comm 1, zipIdx_cons]
    cases addedFrom (j + (ys.length + 1)) ls with
    | error f => rfl
    | ok rest => cases hplus : y.startsWith "+" <;> simp [listed, hplus, Except.map, bind, Except.bind, pure, Except.pure]

lemma Op.added_eq (h : o.Turns i j xs ys) (hys : ys <+: news.drop j) : o.added news = match o.tag with
      | .replace | .insert => ys.zipIdx (j + 1)
      | .equal | .delete => [] := by
  rw [Op.added, h.from2, h.to2, slice_of_prefix hys]

lemma addedFrom_op (h : o.Turns i j xs ys) (hxs : xs <+: olds.drop i) (hys : ys <+: news.drop j) (hn : ys ≠ [] → n = j)
    (ls : List String) :
    addedFrom n (opLines olds news o ++ ls) = (addedFrom (n + ys.length) ls).map (listed (o.added news) ++ ·) := by
  rw [opLines, Op.added_eq h hys, h.to1, h.from1, slice_of_prefix hxs, h.to2, h.from2, slice_of_prefix hys]
  cases htag : o.tag with
  | equal =>
    obtain rfl := h.equal htag
    exact (addedFrom_kept ..).trans (map_nil_append _).symm
  | replace =>
    dsimp only
    rw [append_assoc, addedFrom_deleted, addedFrom_added hn]
  | delete =>
    obtain rfl := h.delete htag
    dsimp only
    rw [addedFrom_deleted, length_nil, Int.natCast_zero, Int.add_zero]
    exact (map_nil_append _).symm
  | insert => exact addedFrom_added hn ls

lemma addedFrom_edits (h : Edits i j xs ys g) (hxs : xs <+: olds.drop i) (hys : ys <+: news.drop j) (hn : ys ≠ [] → n = j)
    (ls : List String) : addedFrom n (g.flatMap (opLines olds news) ++ ls) =
      (addedFrom (n + ys.length) ls).map (listed (g.flatMap (Op.added news)) ++ ·) := by
  induction h generalizing n with
  | nil i j => rw [flatMap_nil, nil_append, length_nil, Int.natCast_zero, Int.add_zero]; exact (map_nil_append _).symm
  | @cons i j xs ys as bs o os ho hrest ih =>
    obtain ⟨hxs, has⟩ := prefix_drop hxs
    obtain ⟨hys, hbs⟩ := prefix_drop hys
    have hplace : bs ≠ [] → n + ys.length = (j + ys.length : Nat) := fun hne => by
      rw [hn (append_ne_nil_of_right_ne_nil _ hne), Int.natCast_add]
    rw [flatMap_cons, append_assoc, addedFrom_op ho hxs hys fun hne => hn (append_ne_nil_of_left_ne_nil hne _),
      ih has hbs hplace, map_append_map, length_append, Int.natCast_add, ← Int.add_assoc, flatMap_cons]

lemma addedFrom_parted (h : Parted i j as bs gs) (has : as <+: olds.drop i) (hbs : bs <+: news.drop j) (n : Int) :
    addedFrom n (gs.flatMap (groupLines olds news)) = .ok (listed (gs.flatten.flatMap (Op.added news))) := by
  induction h generalizing n with
  | nil => rfl
  | skip same rest ih => exact ih (prefix_drop has).2 (prefix_drop hbs).2 n
  | @group i j xs ys as bs g gs hg rest ih =>
    obtain ⟨hxs, has⟩ := prefix_drop has
    obtain ⟨hys, hbs⟩ := prefix_drop hbs
    by_cases hne : g = []
    · subst hne
      exact ih has hbs n
    · have hhead : (headText i xs.length j ys.length).startsWith "@@" = true := by
        simp [headText, String.startsWith_string_iff]
      rw [flatMap_cons, groupLines_eq hg hne, cons_append, addedFrom, if_pos hhead, headLine_headText]
      change addedFrom (if ys.length = 0 then (j : Int) - 1 else j) _ = _
      rw [addedFrom_edits hg hxs hys fun hnil => if_neg (by simpa using hnil), ih has hbs]
      simp [Except.map, listed]

lemma addedLines_unifiedLines (as bs : List String) : addedLines (unifiedLines as bs) = .ok (listed (added as bs)) := by
  have hgroups (n : Int) : addedFrom n ((groups 3 (operations as bs)).flatMap (groupLines as bs)) =
      .ok (listed (added as bs)) :=
    addedFrom_parted (parted_groups (edits_operations as bs) 3) (prefix_refl _) (prefix_refl _) n
  rw [addedLines, unifiedLines]
  split
  next hnil => rw [added, hnil]; rfl
  next =>
    rw [addedFrom, if_neg (by decide +kernel), if_neg (by decide +kernel), if_pos (by decide +kernel), addedFrom,
      if_neg (by decide +kernel), if_pos (by decide +kernel), hgroups]
    exact congrArg Except.ok (if_pos (by decide +kernel))

/-! ## Added lines -/

lemma filter_opLines (o : Op) : (opLines as bs o).filter (·.startsWith "+") = (o.added bs).map ("+" ++ ·.1) := by
  have hkept (ls : List String) : (ls.map (" " ++ ·)).filter (·.startsWith "+") = [] := by
    simp [String.startsWith_string_iff]
  have hdeleted (ls : List String) : (ls.map ("-" ++ ·)).filter (·.startsWith "+") = [] := by
    simp [String.startsWith_string_iff]
  have hall (ls : List String) (k : Nat) :
      (ls.map ("+" ++ ·)).filter (·.startsWith "+") = (ls.zipIdx k).map ("+" ++ ·.1) := by
    rw [filter_eq_self.2 (by simp [String.startsWith_string_iff])]
    exact (congrArg (map _) (zipIdx_map_fst k ls)).symm.trans map_map
  rw [opLines, Op.added]
  cases o.tag with
  | equal => exact hkept _
  | replace => rw [filter_append, hdeleted, nil_append]; exact hall ..
  | delete => exact hdeleted _
  | insert => exact hall ..

lemma filter_unifiedLines (as bs : List String) :
    ((unifiedLines as bs).drop 2).filter (·.startsWith "+") = (added as bs).map ("+" ++ ·.1) := by
  have hgroup (g : List Op) : (groupLines as bs g).filter (·.startsWith "+") = (g.flatMap (Op.added bs)).map ("+" ++ ·.1) := by
    cases g with
    | nil => rfl
    | cons o g =>
      rw [groupLines, head?_cons, getLast?_eq_some_getLast (cons_ne_nil o g)]
      dsimp only
      rw [filter_cons_of_neg (by simp [String.startsWith_string_iff])]
      simp only [filter_flatMap, filter_opLines, map_flatMap]
  rw [unifiedLines, added]
  split
  next hnil => rw [hnil]; rfl
  next =>
    rw [drop_succ_cons, drop_succ_cons, drop_zero, flatten_eq_flatMap, flatMap_assoc]
    simp only [filter_flatMap, hgroup, map_flatMap, id]

lemma edits_sublist (h : Edits i j xs ys g) (hys : ys <+: news.drop j) : g.flatMap (Op.added news) <+ ys.zipIdx (j + 1) := by
  induction h with
  | nil => exact .slnil
  | @cons i j xs ys as bs o os ho hrest ih =>
    obtain ⟨hys, hbs⟩ := prefix_drop hys
    have hop : o.added news <+ ys.zipIdx (j + 1) := by
      rw [Op.added_eq ho hys]
      cases o.tag with
      | replace | insert => exact .refl _
      | equal | delete => exact nil_sublist _
    rw [flatMap_cons, zipIdx_append, Nat.add_right_comm]
    exact hop.append (ih hbs)

lemma parted_sublist (h : Parted i j as bs gs) (hbs : bs <+: news.drop j) :
    gs.flatten.flatMap (Op.added news) <+ bs.zipIdx (j + 1) := by
  induction h with
  | nil => exact .slnil
  | skip same rest ih =>
    rw [zipIdx_append, Nat.add_right_comm]
    exact (ih (prefix_drop hbs).2).trans (sublist_append_right ..)
  | group hg rest ih =>
    rw [flatten_cons, flatMap_append, zipIdx_append, Nat.add_right_comm]
    exact (edits_sublist hg (prefix_drop hbs).1).append (ih (prefix_drop hbs).2)

lemma added_sublist (as bs : List String) : added as bs <+ bs.zipIdx 1 :=
  parted_sublist (parted_groups (edits_operations as bs) 3) (prefix_refl _)

/-- **Which added lines are numbered.** The lines that a diff marks as added are lines of the new text, in order. The
numbers that are read off it are theirs exactly if none of them begins with a plus sign. -/
theorem added_listed_iff (as bs : List String) :
    ((unifiedLines as bs).drop 2).filter (·.startsWith "+") = (added as bs).map ("+" ++ ·.1) ∧
      added as bs <+ bs.zipIdx 1 ∧ (addedLines (unifiedLines as bs) = .ok ((added as bs).map fun l => (l.2 : Int)) ↔
        ∀ l ∈ added as bs, l.1.startsWith "+" = false) := by
  refine ⟨filter_unifiedLines as bs, added_sublist as bs, ?_⟩
  rw [addedLines_unifiedLines, Except.ok.injEq, listed]
  refine ⟨fun h => ?_, fun h => ?_⟩
  · have hlength := congrArg length h
    rw [length_map, length_map, length_filter_eq_length_iff] at hlength
    simpa using hlength
  · rw [filter_eq_self.2 (by simpa using h)]

end Mender.Diff
