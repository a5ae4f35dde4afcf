import Mathlib.Tactic.Lemma
import Mender.Text.Search

/-!
# Lines and pieces

A text is cut into lines behind each line end, and into pieces at line feeds. The two agree as far as line feeds are
the only line ends: then the pieces are the lines without them (`piecesOf_flatten`).
-/

namespace Mender.Text

open List

/-! ## Cutting and joining texts

`Text.pieces` cuts a text at a character. Joined by that character, the pieces are the text again, and texts
without the character that were joined by it are its pieces. -/

variable {cs : List Char} {ls : List (List Char)} {c d : Char}

lemma dropWhile_of_head? {p : Char → Bool} (h : ∀ c, cs.head? = some c → p c = false) : cs.dropWhile p = cs := by
  cases cs with
  | nil => rfl
  | cons c cs => rw [dropWhile_cons_of_neg (by simp [h c rfl])]

lemma prependChar_eq (h : ls ≠ []) : prependChar d ls = ls.modifyHead (d :: ·) := by
  cases ls with
  | nil => exact absurd rfl h
  | cons l ls => rfl

lemma piecesOf_eq_splitOn : piecesOf c cs = cs.splitOn c := by
  induction cs with
  | nil => rfl
  | cons d rest ih => rw [piecesOf, splitOn_cons_eq_if_modifyHead, ih, prependChar_eq (splitOn_ne_nil c rest)]

lemma piecesOf_ne_nil (c : Char) (cs : List Char) : piecesOf c cs ≠ [] := by
  rw [piecesOf_eq_splitOn]
  exact splitOn_ne_nil c cs

lemma intercalate_piecesOf (c : Char) (cs : List Char) : [c].intercalate (piecesOf c cs) = cs := by
  rw [piecesOf_eq_splitOn, intercalate_splitOn]

lemma piecesOf_intercalate (hne : ls ≠ []) (h : ∀ l ∈ ls, c ∉ l) : piecesOf c ([c].intercalate ls) = ls := by
  rw [piecesOf_eq_splitOn, splitOn_intercalate c h hne]

lemma piecesOf_of_notMem (h : c ∉ cs) : piecesOf c cs = [cs] := by
  rw [piecesOf_eq_splitOn, splitOn_eq_singleton h]

lemma piecesOf_append (h : c ∉ cs) (rest : List Char) : piecesOf c (cs ++ c :: rest) = cs :: piecesOf c rest := by
  rw [piecesOf_eq_splitOn, splitOn_append_cons_self_of_not_mem h, piecesOf_eq_splitOn]

lemma length_piecesOf : (piecesOf c cs).length = cs.count c + 1 := by
  induction cs with
  | nil => rfl
  | cons d cs ih =>
    rw [piecesOf, count_cons]
    split
    · rw [length_cons, ih]
    · rw [prependChar_eq (piecesOf_ne_nil c cs), length_modifyHead, ih, Nat.add_zero]

lemma notMem_of_mem_piecesOf {l : List Char} (h : l ∈ piecesOf c cs) : c ∉ l := by
  fun_induction piecesOf c cs generalizing l with
  | case1 =>
    rw [mem_singleton.1 h]
    exact not_mem_nil
  | case2 d rest _ ih =>
    rcases mem_cons.1 h with rfl | h
    · exact not_mem_nil
    · exact ih h
  | case3 d rest hd ih =>
    obtain ⟨m, ms, hr⟩ := exists_cons_of_ne_nil (piecesOf_ne_nil c rest)
    rw [hr] at h ih
    rcases mem_cons.1 h with rfl | h
    · simpa [Ne.symm (mt beq_iff_eq.2 hd)] using ih (.head _)
    · exact ih (.tail _ h)

/-- Does a line end in a line feed? -/
def endsInFeed (l : List Char) : Bool := l.getLast? == some '\n'

def withoutFeed (l : List Char) : List Char := if endsInFeed l then l.dropLast else l

/-- Is it a line: not empty, with a line feed at the end only? -/
def IsLine (l : List Char) : Prop := l ≠ [] ∧ '\n' ∉ withoutFeed l

variable {l : List Char}

lemma endsInFeed_concat (cs : List Char) : endsInFeed (cs ++ ['\n']) = true := by
  simp [endsInFeed]

lemma withoutFeed_concat : withoutFeed (cs ++ ['\n']) = cs := by
  rw [withoutFeed, if_pos (endsInFeed_concat cs), dropLast_concat]

lemma endsInFeed_of_notMem (h : '\n' ∉ l) : endsInFeed l = false := by
  rw [endsInFeed, beq_eq_false_iff_ne]
  intro hlast
  exact h (mem_of_getLast? hlast)

lemma withoutFeed_of_not (h : endsInFeed l = false) : withoutFeed l = l := by
  rw [withoutFeed, if_neg (by simp [h])]

lemma eq_concat_of_endsInFeed (h : endsInFeed l = true) : l = withoutFeed l ++ ['\n'] := by
  rw [endsInFeed, beq_iff_eq] at h
  obtain ⟨cs, rfl⟩ := getLast?_eq_some_iff.1 h
  rw [withoutFeed_concat]

lemma isLine_concat (cs : List Char) (h : '\n' ∉ cs) : IsLine (cs ++ ['\n']) := ⟨by simp, by rwa [withoutFeed_concat]⟩

lemma isLine_of_notMem (hne : l ≠ []) (h : '\n' ∉ l) : IsLine l :=
  ⟨hne, by rwa [withoutFeed_of_not (endsInFeed_of_notMem h)]⟩

lemma withoutFeed_cons (hc : c ≠ '\n') : withoutFeed (c :: l) = c :: withoutFeed l := by
  cases hl : endsInFeed l with
  | true =>
    obtain ⟨cs, rfl⟩ : ∃ cs, l = cs ++ ['\n'] := ⟨_, eq_concat_of_endsInFeed hl⟩
    rw [← cons_append, withoutFeed_concat, withoutFeed_concat]
  | false =>
    rw [withoutFeed_of_not hl, withoutFeed_of_not]
    cases l with
    | nil => simpa [endsInFeed] using hc
    | cons d l => simpa [endsInFeed] using hl

lemma IsLine.cons (h : IsLine l) (hc : c ≠ '\n') : IsLine (c :: l) := by
  refine ⟨cons_ne_nil c l, ?_⟩
  rw [withoutFeed_cons hc, mem_cons, not_or]
  exact ⟨Ne.symm hc, h.2⟩

lemma isLine_of_mem_prependChar (hc : c ≠ '\n') (hls : ∀ l ∈ ls, IsLine l) (h : l ∈ prependChar c ls) : IsLine l := by
  cases ls with
  | nil =>
    rw [mem_singleton.1 h]
    exact isLine_of_notMem (cons_ne_nil _ _) (by simpa using hc.symm)
  | cons m ms =>
    rcases mem_cons.1 h with rfl | h
    · exact (hls m (.head _)).cons hc
    · exact hls l (.tail _ h)

/-! ## All line ends -/

lemma isLine_of_mem_linesOf (h : l ∈ linesOf cs) : IsLine l := by
  fun_induction linesOf cs generalizing l with
  | case1 => cases h
  | case2 rest ih =>
    rcases mem_cons.1 h with rfl | h
    · exact isLine_concat ['\r'] (by decide)
    · exact ih h
  | case3 c rest _ hc ih =>
    rcases mem_cons.1 h with rfl | h
    · by_cases hfeed : c = '\n'
      · rw [hfeed]
        exact isLine_concat [] not_mem_nil
      · exact isLine_of_notMem (cons_ne_nil _ _) (by simpa using Ne.symm hfeed)
    · exact ih h
  | case4 c rest _ hc ih =>
    have hfeed : c ≠ '\n' := by
      rintro rfl
      exact hc rfl
    exact isLine_of_mem_prependChar hfeed (fun _ => ih) h

lemma flatten_prependChar : (prependChar c ls).flatten = c :: ls.flatten := by
  cases ls <;> rfl

lemma flatten_linesOf : (linesOf cs).flatten = cs := by
  fun_induction linesOf cs with
  | case1 => rfl
  | case2 rest ih | case3 c rest _ _ ih => rw [flatten_cons, ih]; rfl
  | case4 c rest _ _ ih => rw [flatten_prependChar, ih]

/-! ## Line feeds -/

lemma count_of_isLine (h : IsLine l) : l.count '\n' = if endsInFeed l then 1 else 0 := by
  cases hl : endsInFeed l with
  | true =>
    rw [eq_concat_of_endsInFeed hl, count_append, count_eq_zero.2 h.2]
    rfl
  | false =>
    rw [← withoutFeed_of_not hl]
    exact count_eq_zero.2 h.2

lemma count_flatten (h : ∀ l ∈ ls, IsLine l) : ls.flatten.count '\n' = ls.countP endsInFeed := by
  induction ls with
  | nil => rfl
  | cons l ls ih =>
    rw [flatten_cons, count_append, count_of_isLine (h l (.head _)), ih (forall_mem_cons.1 h).2, countP_cons, Nat.add_comm]

lemma piecesOf_line (h : IsLine l) (hends : endsInFeed l = true) (rest : List Char) :
    piecesOf '\n' (l ++ rest) = withoutFeed l :: piecesOf '\n' rest := by
  obtain ⟨cs, rfl⟩ : ∃ cs, l = cs ++ ['\n'] := ⟨_, eq_concat_of_endsInFeed hends⟩
  have hcs := h.2
  rw [withoutFeed_concat] at hcs ⊢
  rw [append_assoc, singleton_append, piecesOf_append hcs]

lemma piecesOf_flatten (h : ∀ l ∈ ls, IsLine l) (hends : ∀ l ∈ ls, endsInFeed l = true)
    (rest : List Char) : piecesOf '\n' (ls.flatten ++ rest) = ls.map withoutFeed ++ piecesOf '\n' rest := by
  induction ls with
  | nil => rfl
  | cons l ls ih =>
    rw [flatten_cons, append_assoc, piecesOf_line (h l (.head _)) (hends l (.head _)),
      ih (forall_mem_cons.1 h).2 (forall_mem_cons.1 hends).2]
    rfl

/-! ## Where line feeds are the only line ends -/

/-- Do line feeds end the first `n` lines? The very last line need not be ended. -/
def FeedsEnd (n : Nat) (ls : List (List Char)) : Prop := ∀ l ∈ ls.dropLast.take n, endsInFeed l = true

instance (n : Nat) (ls : List (List Char)) : Decidable (FeedsEnd n ls) :=
  inferInstanceAs (Decidable (∀ l ∈ ls.dropLast.take n, endsInFeed l = true))

/-- Does the last line have an end? -/
def isEnded (ls : List (List Char)) : Bool := ls.getLast?.all endsInFeed

def piecesBehind (n : Nat) (ls : List (List Char)) : List (List Char) :=
  if n < ls.length then piecesOf '\n' (ls.drop n).flatten else if isEnded ls then [[]] else []

variable {n : Nat} {α : Type} {xs : List α}

lemma take_dropLast_of_lt (h : n < xs.length) : xs.dropLast.take n = xs.take n := by
  rw [dropLast_eq_take, take_take]
  congr 1
  omega

lemma take_dropLast_concat {x : α} (h : ¬ n < (xs ++ [x]).length) : (xs ++ [x]).dropLast.take n = xs := by
  rw [length_append, length_singleton] at h
  rw [dropLast_concat, take_of_length_le (by omega)]

lemma isEnded_concat : isEnded (ls ++ [l]) = endsInFeed l := by
  simp [isEnded]

lemma piecesOf_isLine (h : IsLine l) : piecesOf '\n' l = withoutFeed l :: if endsInFeed l then [[]] else [] := by
  cases hends : endsInFeed l with
  | true =>
    have hpieces := piecesOf_line h hends []
    rwa [append_nil] at hpieces
  | false =>
    have hfree := h.2
    rw [withoutFeed_of_not hends] at hfree ⊢
    exact piecesOf_of_notMem hfree

lemma piecesOf_of_feedsEnd (hls : ∀ l ∈ ls, IsLine l) (h : FeedsEnd n ls) :
    piecesOf '\n' ls.flatten = (ls.take n).map withoutFeed ++ piecesBehind n ls := by
  rw [FeedsEnd] at h
  rw [piecesBehind]
  by_cases hn : n < ls.length
  · rw [take_dropLast_of_lt hn] at h
    rw [if_pos hn, ← piecesOf_flatten (fun l hl => hls l (mem_of_mem_take hl)) h, ← flatten_append, take_append_drop]
  · rw [if_neg hn, take_of_length_le (by omega)]
    obtain rfl | ⟨before, z, rfl⟩ := eq_nil_or_concat ls
    · rfl
    · rw [concat_eq_append] at *
      rw [take_dropLast_concat hn] at h
      rw [isEnded_concat, flatten_append, flatten_singleton,
        piecesOf_flatten (fun l hl => hls l (mem_append_left _ hl)) h, piecesOf_isLine (hls z (by simp)),
        map_append, append_assoc]
      rfl

lemma feedsEnd_of_length (hls : ∀ l ∈ ls, IsLine l)
    (h : (piecesOf '\n' ls.flatten).length = (ls.take n).length + (piecesBehind n ls).length) : FeedsEnd n ls := by
  rw [length_piecesOf, piecesBehind] at h
  by_cases hn : n < ls.length
  · have htake : ∀ l ∈ ls.take n, IsLine l := fun l hl => hls l (mem_of_mem_take hl)
    rw [if_pos hn, length_piecesOf] at h
    rw [FeedsEnd, take_dropLast_of_lt hn]
    refine countP_eq_length.1 ?_
    have hparts : ls.flatten.count '\n' = (ls.take n).flatten.count '\n' + (ls.drop n).flatten.count '\n' := by
      rw [← count_append, ← flatten_append, take_append_drop]
    rw [count_flatten htake] at hparts
    omega
  · rw [if_neg hn, take_of_length_le (by omega)] at h
    obtain rfl | ⟨before, z, rfl⟩ := eq_nil_or_concat ls
    · exact fun l hl => by simp at hl
    · rw [concat_eq_append] at *
      rw [FeedsEnd, take_dropLast_concat hn]
      refine countP_eq_length.1 ?_
      rw [isEnded_concat, count_flatten hls, countP_append, countP_singleton, length_append, length_singleton] at h
      by_cases hz : endsInFeed z = true
      · rw [if_pos hz, if_pos hz, length_singleton] at h
        omega
      · rw [if_neg hz, if_neg hz, length_nil] at h
        omega

/-! ## Lines that line feeds alone end -/

lemma endsWith_feed (l : String) : l.endsWith "\n" = endsInFeed l.toList := by
  rw [Bool.eq_iff_iff, ← String.endsWith_toSlice, String.Slice.endsWith_string_iff, endsInFeed, beq_iff_eq,
    getLast?_eq_some_iff, suffix_iff_exists_append_eq]
  simp [eq_comm]

lemma flatten_feedLines (cs : List Char) : (feedLines cs).flatten = cs := by
  fun_induction feedLines cs with
  | case1 => rfl
  | case2 rest ih => rw [flatten_cons, ih]; rfl
  | case3 c rest _ ih => rw [flatten_prependChar, ih]

lemma feedLines_cons (hc : c ≠ '\n') : feedLines (c :: cs) = prependChar c (feedLines cs) := by
  rw [feedLines]
  rintro rfl
  exact hc rfl

lemma isLine_of_mem_feedLines (h : l ∈ feedLines cs) : IsLine l := by
  fun_induction feedLines cs generalizing l with
  | case1 => cases h
  | case2 rest ih =>
    rcases mem_cons.1 h with rfl | h
    · exact isLine_concat [] not_mem_nil
    · exact ih h
  | case3 c rest hc ih => exact isLine_of_mem_prependChar (fun h => hc h) (fun _ => ih) h

lemma feedLines_line (h : IsLine l) (hends : endsInFeed l = true) (rest : List Char) :
    feedLines (l ++ rest) = l :: feedLines rest := by
  have hcs := h.2
  rw [eq_concat_of_endsInFeed hends, append_assoc, singleton_append]
  generalize withoutFeed l = cs at hcs
  induction cs with
  | nil => rfl
  | cons c cs ih =>
    rw [mem_cons, not_or] at hcs
    rw [cons_append, feedLines_cons (Ne.symm hcs.1), ih hcs.2]
    rfl

lemma feedLines_isLine (h : IsLine l) : feedLines l = [l] := by
  cases hends : endsInFeed l with
  | true =>
    have hline := feedLines_line h hends []
    rwa [append_nil] at hline
  | false =>
    obtain ⟨hne, hfeed⟩ := h
    rw [withoutFeed_of_not hends] at hfeed
    clear hends
    induction l with
    | nil => exact absurd rfl hne
    | cons c cs ih =>
      rw [mem_cons, not_or] at hfeed
      rw [feedLines_cons (Ne.symm hfeed.1)]
      cases cs with
      | nil => rfl
      | cons d cs => rw [ih (cons_ne_nil _ _) hfeed.2]; rfl

/-- Only the last line need not be ended. -/
lemma pairwise_feedLines (cs : List Char) : (feedLines cs).Pairwise fun l _ => endsInFeed l = true := by
  fun_induction feedLines cs with
  | case1 => exact .nil
  | case2 rest ih => exact .cons (fun _ _ => rfl) ih
  | case3 c rest hc ih =>
    cases hrest : feedLines rest with
    | nil => exact pairwise_singleton ..
    | cons l ls =>
      rw [hrest] at ih
      obtain ⟨hl, hls⟩ := pairwise_cons.1 ih
      refine .cons (fun m hm => ?_) hls
      rw [eq_concat_of_endsInFeed (hl m hm)]
      exact endsInFeed_concat (c :: withoutFeed l)

lemma feedLines_lines (hls : ∀ l ∈ ls, IsLine l) (hends : ∀ l ∈ ls, endsInFeed l = true)
    (cs : List Char) : feedLines (ls.flatten ++ cs) = ls ++ feedLines cs := by
  induction ls with
  | nil => rfl
  | cons l ls ih =>
    rw [forall_mem_cons] at hls hends
    rw [flatten_cons, append_assoc, feedLines_line hls.1 hends.1, ih hls.2 hends.2]
    rfl

lemma exists_lastLine (hne : cs ≠ []) : ∃ ls z, feedLines cs = ls ++ [z] ∧ IsLine z ∧
      (∀ l ∈ ls, endsInFeed l = true) ∧ endsInFeed cs = endsInFeed z ∧ ∀ ds, feedLines (cs ++ ds) = ls ++ feedLines (z ++ ds) := by
  obtain hnil | ⟨ls, z, hlines⟩ := eq_nil_or_concat (feedLines cs)
  · exact absurd ((flatten_feedLines cs).symm.trans (by rw [hnil]; rfl)) hne
  · rw [concat_eq_append] at hlines
    have hcs : cs = ls.flatten ++ z := by
      rw [← flatten_feedLines cs, hlines, flatten_append, flatten_singleton]
    have hline : ∀ l ∈ ls ++ [z], IsLine l := fun l hl => isLine_of_mem_feedLines (hlines ▸ hl)
    have hz : IsLine z := hline z (mem_append_right _ (mem_singleton_self z))
    have hfeeds : ∀ l ∈ ls, endsInFeed l = true := fun l hl =>
      (pairwise_append.1 (hlines ▸ pairwise_feedLines cs)).2.2 l hl z (mem_singleton_self z)
    refine ⟨ls, z, hlines, hz, hfeeds, ?_, fun ds => ?_⟩
    · rw [hcs, endsInFeed, endsInFeed, getLast?_append, getLast?_eq_some_getLast hz.1, Option.some_or]
    · rw [hcs, append_assoc]
      exact feedLines_lines (fun l hl => hline l (mem_append_left _ hl)) hfeeds _

lemma feedLines_append (h : endsInFeed cs = true) (ds : List Char) :
    feedLines (cs ++ ds) = feedLines cs ++ feedLines ds := by
  have hne : cs ≠ [] := by
    rintro rfl
    cases h
  obtain ⟨ls, z, hlines, hz, -, hends, happend⟩ := exists_lastLine hne
  rw [happend, hlines, feedLines_line hz (hends ▸ h), append_assoc, singleton_append]

lemma feedLines_flatten (h : ∀ l ∈ ls, '\n' ∉ l) : feedLines (ls.map (· ++ ['\n'])).flatten = ls.map (· ++ ['\n']) := by
  have hlines := @feedLines_lines (ls.map (· ++ ['\n'])) (forall_mem_map.2 fun l hl => isLine_concat l (h l hl))
    (forall_mem_map.2 fun l _ => endsInFeed_concat l) []
  rwa [append_nil, feedLines, append_nil] at hlines

end Mender.Text
