import Mender.Proofs.Diff.Texts

/-!
# Diffs of a text with itself

The run that a list shares with itself is the whole list (`longestBlock_self`), also if many of its lines occur too often
to be used for finding runs: a run that ends at different places of the two copies is never longer than the run that
ends at one of these places in both, and that one is met first. So the diff of a text with itself is empty, and it is
the only one (`ofTexts_eq_empty_iff`). Any other diff can be applied to give the new lines (`unified_replayed`).
-/

namespace Mender.Diff

open Text List

variable {α : Type} [BEq α] (usableFor : α → Bool)

/-- How far two lists agree from the front, by usable lines alone. -/
def common : List α → List α → Nat
  | x :: xs, y :: ys => if usableFor y && x == y then common xs ys + 1 else 0
  | _, _ => 0

/-- The numbers that `runLengths` finds, read off from the lines: those before a place, the last one first. -/
def row (xs : List α) : List α → List α → List Nat
  | _, [] => []
  | before, y :: ys => common usableFor xs (y :: before) :: row xs (y :: before) ys

variable {usableFor} {xs ys before rest : List α} {x : α} {best : Block} {i j k : Nat}

lemma row_nil : row usableFor [] before ys = replicate ys.length 0 := by
  induction ys generalizing before with
  | nil => rfl
  | cons y ys ih =>
    rw [row, ih, length_cons]
    rfl

lemma row_append (zs : List α) :
    row usableFor xs before (ys ++ zs) = row usableFor xs before ys ++ row usableFor xs (ys.reverse ++ before) zs := by
  induction ys generalizing before with
  | nil => rfl
  | cons y ys ih => simp [row, ih]

lemma length_row : (row usableFor xs before ys).length = ys.length := by
  induction ys generalizing before with
  | nil => rfl
  | cons y ys ih => rw [row, length_cons, ih, length_cons]

lemma runLengths_row (x : α) (xs : List α) :
    runLengths x (common usableFor xs before) (ys.map fun y => (y, usableFor y)) (row usableFor xs before ys) =
      row usableFor (x :: xs) before ys := by
  induction ys generalizing before with
  | nil => rfl
  | cons y ys ih =>
    rw [map_cons, row, runLengths, ih]
    rfl

lemma exists_of_mem_row (h : k ∈ row usableFor xs before ys) :
    ∃ front back, ys = front ++ back ∧ k = common usableFor xs (front.reverse ++ before) := by
  induction ys generalizing before with
  | nil => cases h
  | cons y ys ih =>
    rcases mem_cons.1 h with rfl | h
    · exact ⟨[y], ys, rfl, rfl⟩
    · obtain ⟨front, back, rfl, rfl⟩ := ih h
      exact ⟨y :: front, back, rfl, by simp⟩

lemma exists_usable (bs : List α) : ∃ usableFor : α → Bool, usable bs = bs.map fun b => (b, usableFor b) := by
  rw [usable]
  split
  · exact ⟨fun _ => true, rfl⟩
  · exact ⟨_, rfl⟩

lemma betterRun_of_le {ks : List Nat} (h : ∀ k ∈ ks, k ≤ best.size) : betterRun i j ks best = best := by
  induction ks generalizing j with
  | nil => rfl
  | cons k ks ih =>
    rw [forall_mem_cons] at h
    rw [betterRun, if_neg (Nat.not_lt.2 h.1), ih h.2]

lemma betterRun_append (ks ls : List Nat) :
    betterRun i j (ks ++ ls) best = betterRun i (j + ks.length) ls (betterRun i j ks best) := by
  induction ks generalizing j best with
  | nil => rfl
  | cons k ks ih => rw [cons_append, betterRun, ih, betterRun, length_cons, Nat.add_assoc, Nat.add_comm 1]

variable [LawfulBEq α]

lemma common_le (xs ys : List α) :
    common usableFor xs ys ≤ common usableFor xs xs ∧ common usableFor xs ys ≤ common usableFor ys ys := by
  fun_induction common usableFor xs ys with
  | case1 x xs y ys h ih =>
    simp only [Bool.and_eq_true, beq_iff_eq] at h
    obtain ⟨husable, rfl⟩ := h
    rw [common, common, if_pos (by simp [husable]), if_pos (by simp [husable])]
    exact ⟨Nat.succ_le_succ ih.1, Nat.succ_le_succ ih.2⟩
  | case2 | case3 => exact ⟨Nat.zero_le _, Nat.zero_le _⟩

/-- In the row of a line only the place of the line itself can give a better run. -/
theorem betterRun_row (hbest : ∀ front back, xs.reverse = front ++ back →
      common usableFor front.reverse front.reverse ≤ best.size) :
    betterRun xs.length 0 (row usableFor (x :: xs) [] (xs.reverse ++ x :: rest)) best =
      if best.size < common usableFor (x :: xs) (x :: xs) then
        ⟨xs.length + 1 - common usableFor (x :: xs) (x :: xs), xs.length + 1 - common usableFor (x :: xs) (x :: xs),
          common usableFor (x :: xs) (x :: xs)⟩
      else best := by
  have hbefore : betterRun xs.length 0 (row usableFor (x :: xs) [] xs.reverse) best = best := by
    refine betterRun_of_le fun k hk => ?_
    obtain ⟨front, back, hxs, rfl⟩ := exists_of_mem_row hk
    rw [append_nil]
    exact Nat.le_trans (common_le (x :: xs) front.reverse).2 (hbest front back hxs)
  rw [row_append, betterRun_append, hbefore, length_row, length_reverse, Nat.zero_add, reverse_reverse,
    append_nil, row, betterRun]
  refine betterRun_of_le fun k hk => ?_
  obtain ⟨front, back, -, rfl⟩ := exists_of_mem_row hk
  have hle : common usableFor (x :: xs) (front.reverse ++ x :: xs) ≤ common usableFor (x :: xs) (x :: xs) := (common_le ..).1
  split
  · exact hle
  · omega

/-- The best run so far ends at the same place of both copies, and no run of usable lines is longer. -/
structure OnDiagonal (usableFor : α → Bool) (xs : List α) (best : Block) : Prop where
  same : best.first = best.second
  longest : ∀ front back, xs.reverse = front ++ back → common usableFor front.reverse front.reverse ≤ best.size

lemma onDiagonal_betterRun (h : OnDiagonal usableFor xs best) : OnDiagonal usableFor (x :: xs)
      (betterRun xs.length 0 (row usableFor (x :: xs) [] (xs.reverse ++ x :: rest)) best) := by
  rw [betterRun_row h.longest]
  have hlongest (b : Block) (hsize : best.size ≤ b.size) (hnew : common usableFor (x :: xs) (x :: xs) ≤ b.size) :
      ∀ front back, (x :: xs).reverse = front ++ back → common usableFor front.reverse front.reverse ≤ b.size := by
    intro front back heq
    rw [reverse_cons] at heq
    rcases eq_nil_or_concat back with rfl | ⟨back, z, rfl⟩
    · rw [append_nil] at heq
      rw [← heq, reverse_append, reverse_reverse]
      exact hnew
    · rw [concat_eq_append, ← append_assoc] at heq
      exact Nat.le_trans (h.longest front back (append_inj_left' heq rfl)) hsize
  split
  next hlt => exact ⟨rfl, hlongest _ (Nat.le_of_lt hlt) (Nat.le_refl _)⟩
  next hlt => exact ⟨h.same, hlongest _ (Nat.le_refl _) (Nat.not_lt.1 hlt)⟩

lemma onDiagonal_longestRun (h : OnDiagonal usableFor xs best) {b : Block} (hb : longestRun xs.length
      ((xs.reverse ++ rest).map fun y => (y, usableFor y)) rest (row usableFor xs [] (xs.reverse ++ rest)) best = b) :
    b.first = b.second := by
  induction rest generalizing xs best with
  | nil => exact hb ▸ h.same
  | cons x rest ih =>
    have hzero : common usableFor xs [] = 0 := by cases xs <;> rfl
    have hrow : runLengths x 0 _ (row usableFor xs [] (xs.reverse ++ x :: rest)) = _ := hzero ▸ runLengths_row x xs
    rw [longestRun, hrow] at hb
    refine ih (@onDiagonal_betterRun _ _ _ _ rest x _ _ h) ?_
    rwa [reverse_cons, append_assoc]

lemma agreement_self : agreement xs xs = xs.length := by
  induction xs with
  | nil => rfl
  | cons x xs ih => rw [agreement, if_pos (by simp), ih, length_cons]

lemma longestBlock_self (usableFor : α → Bool) (as : List α) :
    longestBlock as (as.map fun a => (a, usableFor a)) = ⟨0, 0, as.length⟩ := by
  have hmap : (as.map fun a => (a, usableFor a)).map (·.1) = as := by rw [map_map]; exact map_id as
  obtain ⟨l₁, l₂, run, r₁, r₂, has, hbs, hrun⟩ := @shared_longestRun α [] _ _ as (as.map fun a => (a, usableFor a)) _
    ⟨0, 0, 0⟩ fits_replicate ⟨[], [], [], as, _, rfl, rfl, rfl⟩
  have hstart : OnDiagonal usableFor [] ⟨0, 0, 0⟩ := by
    refine ⟨rfl, fun front back h => ?_⟩
    rw [(append_eq_nil_iff.1 h.symm).1]
    exact Nat.le_refl 0
  have hdiagonal := @onDiagonal_longestRun _ _ _ _ as _ _ hstart _ rfl
  rw [row_nil] at hdiagonal
  simp only [reverse_nil, nil_append, length_nil] at hdiagonal has hrun
  rw [length_map] at hrun
  rw [hrun] at hdiagonal
  rw [hmap] at hbs
  have hlists : l₁ ++ (run ++ r₁) = l₂ ++ (run ++ r₂) := by
    rw [← append_assoc, ← append_assoc, ← has, ← hbs]
  obtain ⟨rfl, hrest⟩ := append_inj hlists hdiagonal
  rw [append_cancel_left_eq] at hrest
  subst hrest
  rw [longestBlock_eq has (hmap.trans hbs) (by rw [length_map]; exact hrun), agreement_self, agreement_self,
    length_reverse, has]
  simp [Nat.add_assoc]

lemma matchingBlocks_self (as : List α) : matchingBlocks as as = if as.length = 0 then [] else [⟨0, 0, as.length⟩] := by
  obtain ⟨usableFor, husable⟩ := exists_usable as
  have hnil (fuel i j : Nat) : blocksTo fuel i j ([] : List α) [] = [] := by cases fuel <;> rfl
  rw [matchingBlocks, husable, blocksTo, longestBlock_self]
  by_cases h : as.length = 0
  · rw [if_pos (by simpa using h), if_pos h]
    rfl
  · simp only [Nat.zero_add]
    rw [if_neg (by simpa using h), if_neg h, take_zero, take_zero, drop_length, drop_of_length_le (by simp), hnil, hnil]
    rfl

lemma groups_self (n : Nat) (as : List α) : groups n (operations as as) = [] := by
  rw [operations, matchingBlocks_self]
  by_cases h : as.length = 0
  · rw [h]
    rfl
  · have hops : operationsFrom as.length as.length 0 0 [⟨0, 0, as.length⟩] = [⟨.equal, 0, as.length, 0, as.length⟩] := by
      simp [operationsFrom, gap]
    rw [if_neg h, hops, groups]
    have htrim : trimBack n (trimFront n [⟨.equal, 0, as.length, 0, as.length⟩]) =
        [(Op.last n ⟨.equal, 0, as.length, 0, as.length⟩).first n] := rfl
    have hshort : ¬ (2 * n < ((Op.last n ⟨.equal, 0, as.length, 0, as.length⟩).first n).to1 -
        ((Op.last n ⟨.equal, 0, as.length, 0, as.length⟩).first n).from1) := by
      simp only [Op.last, Op.first]
      omega
    rw [htrim, divide, if_neg (by simp only [Bool.and_eq_true, decide_eq_true_eq, not_and]; exact fun _ => hshort)]
    rfl

lemma unified_self (as : List String) : unified as as = "" := by
  rw [unified, unifiedLines, groups_self]
  rfl

lemma eq_of_unified {as bs : List String} (h : unified as bs = "") : as = bs := by
  have hgroups : groups 3 (operations as bs) = [] := by
    rw [unified, unifiedLines] at h
    split at h
    next hnil => exact hnil
    next =>
      have hlist := congrArg String.toList h
      rw [joinLines, String.toList_append, toList_endLine] at hlist
      · simp at hlist
      · exact fun hnil => cons_ne_nil _ _ hnil
  have hparted := parted_groups (edits_operations as bs) 3
  rw [hgroups] at hparted
  exact eq_of_parted_nil hparted

lemma splitLines_injective {a b : String} (h : splitLines a = splitLines b) : a = b := by
  have hlines (s : String) : ((splitLines s).map String.toList).flatten = s.toList := by
    have hid : String.toList ∘ String.ofList = id := funext fun cs => String.toList_ofList
    rw [splitLines, map_map, hid, map_id, flatten_linesOf]
  refine String.toList_injective ?_
  rw [← hlines a, ← hlines b, h]

lemma ofTexts_eq_empty_iff {a b : String} : ofTexts a b = "" ↔ a = b := by
  refine ⟨fun h => splitLines_injective (eq_of_unified h), ?_⟩
  rintro rfl
  exact unified_self _

/-! ## Lines that line feeds end -/

variable {as bs : List String}

/-- A line feed ends the line, and there is no other in it. -/
def IsFullLine (l : String) : Prop := IsLine l.toList ∧ endsInFeed l.toList = true

lemma piecesOf_join (h : ∀ l ∈ as, IsFullLine l) : piecesOf '\n' (String.join as).toList = as.map bare ++ [[]] := by
  have hpieces := @piecesOf_flatten (as.map String.toList) (forall_mem_map.2 fun l hl => (h l hl).1)
    (forall_mem_map.2 fun l hl => (h l hl).2) []
  rwa [append_nil, ← flatMap_def, ← String.toList_join, map_map] at hpieces

lemma splitFeeds_join (h : ∀ l ∈ as, IsFullLine l) : splitFeeds (String.join as) = as := by
  have hlines := @feedLines_lines (as.map String.toList) (forall_mem_map.2 fun l hl => (h l hl).1)
    (forall_mem_map.2 fun l hl => (h l hl).2) []
  rw [append_nil, ← flatMap_def, ← String.toList_join, feedLines, append_nil] at hlines
  rw [splitFeeds, hlines, map_map]
  exact (map_congr_left fun l _ => String.ofList_toList).trans (map_id as)

/-- **Diffs can be replayed.** The diff of such lines is empty exactly if they are the same, and applied to the old ones
it gives the new ones, cut behind each line feed. -/
theorem unified_replayed (has : ∀ l ∈ as, IsFullLine l) (hbs : ∀ l ∈ bs, IsFullLine l) :
    (unified as bs = "" ↔ as = bs) ∧ (patch (unified as bs) (String.join as)).map splitFeeds = some bs := by
  have hpatch := patch_unified (fun l hl => (has l hl).1) (fun l hl => (hbs l hl).1) (prefix_refl as) (prefix_refl bs)
    (parted_groups (edits_operations as bs) 3) (piecesOf_join has)
  rw [← piecesOf_join hbs, intercalate_piecesOf, String.ofList_toList] at hpatch
  refine ⟨⟨eq_of_unified, ?_⟩, ?_⟩
  · rintro rfl
    exact unified_self as
  · rw [hpatch, Option.map_some, splitFeeds_join hbs]

theorem plusLine_replayed : (∀ l ∈ ["a\n"], IsFullLine l) ∧ (∀ l ∈ ["a\n", "+b\n"], IsFullLine l) ∧
    (patch (unified ["a\n"] ["a\n", "+b\n"]) (String.join ["a\n"])).map splitFeeds = some ["a\n", "+b\n"] := by
  have hold : ∀ l ∈ ["a\n"], IsFullLine l := by simp [IsFullLine, IsLine, withoutFeed, endsInFeed]
  have hnew : ∀ l ∈ ["a\n", "+b\n"], IsFullLine l := by simp [IsFullLine, IsLine, withoutFeed, endsInFeed]
  exact ⟨hold, hnew, (unified_replayed hold hnew).2⟩

end Mender.Diff
