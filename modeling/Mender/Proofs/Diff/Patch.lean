import Mender.Proofs.Diff.Groups
import Mender.Proofs.Text.Lines

/-!
# Applying a diff

`patch` reads a unified diff and applies it to a text, both cut at line feeds: it goes to the place that the head of
a group names, insists on the lines that the group shows as kept or deleted, and adds those that it shows as added.
-/

namespace Mender.Diff

open Text List

/-! ## Reading a diff -/

def readNumber? (cs : List Char) : Option Nat :=
  if cs ≠ [] ∧ cs.all Char.isDigit then some (Nat.ofDigitChars 10 cs 0) else none

def readRange? (cs : List Char) : Option (Nat × Nat) :=
  match piecesOf ',' cs with
  | [start] => (readNumber? start).map fun n => (n, 1)
  | [start, length] => (readNumber? start).bind fun n => (readNumber? length).map fun l => (n, l)
  | _ => none

structure Head where
  /-- how many old lines stand before the group -/
  place : Nat
  old : Nat
  new : Nat

def readHead? (line : List Char) : Option Head :=
  match piecesOf ' ' line with
  | [['@', '@'], '-' :: old, '+' :: new, ['@', '@']] =>
    (readRange? old).bind fun (start, n) => (readRange? new).map fun (_, m) => ⟨if n = 0 then start else start - 1, n, m⟩
  | _ => none

/-- Follow the lines of a diff through the old lines from place `k` on. The current group has `old` and `new` more
lines. The text of the diff may end with a line feed. -/
@[simp] def follow : Nat → Nat → Nat → List (List Char) → List (List Char) → Option (List (List Char))
  | _, 0, 0, [], rest => some rest
  | k, 0, 0, l :: ls, rest =>
    if l = [] ∧ ls = [] then some rest
    else (readHead? l).bind fun head =>
      if k ≤ head.place ∧ head.place - k ≤ rest.length then
        (follow head.place head.old head.new ls (rest.drop (head.place - k))).map (rest.take (head.place - k) ++ ·)
      else none
  | k, old + 1, new + 1, (' ' :: l) :: ls, r :: rest =>
    if l = r then (follow (k + 1) old new ls rest).map (r :: ·) else none
  | k, old + 1, new, ('-' :: l) :: ls, r :: rest => if l = r then follow (k + 1) old new ls rest else none
  | k, old, new + 1, ('+' :: l) :: ls, rest => (follow k old new ls rest).map (l :: ·)
  | _, _, _, _, _ => none

/-- Apply a diff to a text, as a reader who knows nothing but the diff would. -/
def patch (diff old : String) : Option String :=
  match piecesOf '\n' diff.toList with
  | [[]] => some old
  | ['-', '-', '-', ' '] :: ['+', '+', '+', ' '] :: ls =>
    (follow 0 0 0 ls (piecesOf '\n' old.toList)).map fun ls => String.ofList (['\n'].intercalate ls)
  | _ => none

/-! ## Heads -/

lemma notMem_toDigits {c : Char} (hc : c.isDigit = false) (n : Nat) : c ∉ Nat.toDigits 10 n := by
  intro h
  rw [Nat.isDigit_of_mem_toDigits (by decide) (by decide) h] at hc
  cases hc

lemma readNumber?_toDigits (n : Nat) : readNumber? (Nat.toDigits 10 n) = some n := by
  have hall : (Nat.toDigits 10 n).all Char.isDigit = true :=
    all_eq_true.2 fun c hc => Nat.isDigit_of_mem_toDigits (by decide) (by decide) hc
  rw [readNumber?, if_pos ⟨Nat.toDigits_ne_nil, hall⟩, Nat.ofDigitChars_ten_toDigits]

lemma toList_range (i n : Nat) : (range i (i + n)).toList = if n = 1 then Nat.toDigits 10 (i + 1)
      else Nat.toDigits 10 (if n = 0 then i else i + 1) ++ ',' :: Nat.toDigits 10 n := by
  rw [range, Nat.add_sub_cancel_left]
  by_cases hone : n = 1
  · simp [hone]
  · by_cases hzero : n = 0
    · simp [hzero]
    · simp [hone, hzero]

lemma notMem_range {c : Char} (hc : c.isDigit = false) (hcomma : c ≠ ',') (i n : Nat) : c ∉ (range i (i + n)).toList := by
  rw [toList_range]
  split
  · exact notMem_toDigits hc _
  · simp only [mem_append, mem_cons, not_or]
    exact ⟨notMem_toDigits hc _, hcomma, notMem_toDigits hc _⟩

lemma readRange?_range (i n : Nat) : readRange? (range i (i + n)).toList = some (if n = 0 then i else i + 1, n) := by
  have hcomma : ∀ k, ',' ∉ Nat.toDigits 10 k := notMem_toDigits (by decide)
  rw [readRange?, toList_range]
  by_cases hone : n = 1
  · rw [if_pos hone, piecesOf_of_notMem (hcomma _)]
    simp [readNumber?_toDigits, hone]
  · rw [if_neg hone, piecesOf_append (hcomma _), piecesOf_of_notMem (hcomma _)]
    simp [readNumber?_toDigits]

def headText (i n j m : Nat) : String := "@@ -" ++ range i (i + n) ++ " +" ++ range j (j + m) ++ " @@\n"

lemma toList_headText (i n j m : Nat) : (headText i n j m).toList = (['@', '@'] ++ ' ' :: (('-' :: (range i (i + n)).toList) ++
    ' ' :: (('+' :: (range j (j + m)).toList) ++ ' ' :: ['@', '@']))) ++ ['\n'] := by
  simp [headText]

lemma piecesOf_head (i n j m : Nat) {stop : List Char} (hstop : ' ' ∉ stop) : piecesOf ' ' (['@', '@'] ++ ' ' ::
    (('-' :: (range i (i + n)).toList) ++ ' ' :: (('+' :: (range j (j + m)).toList) ++ ' ' :: stop))) =
      [['@', '@'], '-' :: (range i (i + n)).toList, '+' :: (range j (j + m)).toList, stop] := by
  have hspace : ∀ i n, ' ' ∉ (range i (i + n)).toList := notMem_range (by decide) (by decide)
  rw [piecesOf_append (by decide), piecesOf_append (by simpa using hspace i n), piecesOf_append (by simpa using hspace j m),
    piecesOf_of_notMem hstop]

lemma readHead?_headText (i n j m : Nat) : readHead? (withoutFeed (headText i n j m).toList) = some ⟨i, n, m⟩ := by
  rw [readHead?, toList_headText, withoutFeed_concat, piecesOf_head i n j m (by decide)]
  simp only [readRange?_range, Option.bind_some, Option.map_some]
  split <;> rfl

/-! ## Groups -/

variable {k n m : Nat} {ls rest out rest' : List (List Char)}

lemma follow_kept (xs : List (List Char)) : follow k (xs.length + n) (xs.length + m) (xs.map (' ' :: ·) ++ ls) (xs ++ rest) =
      (follow (k + xs.length) n m ls rest).map (xs ++ ·) := by
  induction xs generalizing k with
  | nil => simp
  | cons x xs ih =>
    simp only [length_cons, Nat.add_right_comm _ 1, map_cons, cons_append, follow, if_true]
    rw [ih, Option.map_map, Nat.add_right_comm]
    rfl

lemma follow_deleted (xs : List (List Char)) :
    follow k (xs.length + n) m (xs.map ('-' :: ·) ++ ls) (xs ++ rest) = follow (k + xs.length) n m ls rest := by
  induction xs generalizing k with
  | nil => simp
  | cons x xs ih =>
    simp only [length_cons, Nat.add_right_comm _ 1, map_cons, cons_append, follow, if_true]
    rw [ih, Nat.add_right_comm]
    rfl

lemma follow_added (ys : List (List Char)) :
    follow k n (ys.length + m) (ys.map ('+' :: ·) ++ ls) rest = (follow k n m ls rest).map (ys ++ ·) := by
  induction ys with
  | nil => simp
  | cons y ys ih =>
    simp only [length_cons, Nat.add_right_comm _ 1, map_cons, cons_append, follow]
    rw [ih, Option.map_map]
    rfl

def bare (l : String) : List Char := withoutFeed l.toList

lemma bare_marked (l : String) : bare (" " ++ l) = ' ' :: bare l ∧ bare ("-" ++ l) = '-' :: bare l ∧
    bare ("+" ++ l) = '+' :: bare l := by
  simp only [bare, String.toList_append]
  exact ⟨withoutFeed_cons (by decide), withoutFeed_cons (by decide), withoutFeed_cons (by decide)⟩

variable {i j : Nat} {xs ys as bs olds news : List String} {o z : Op} {g : List Op} {gs : List (List Op)}

lemma slice_of_prefix (h : xs <+: olds.drop i) : (olds.take (i + xs.length)).drop i = xs := by
  rw [drop_take, Nat.add_sub_cancel_left]
  exact (prefix_iff_eq_take.1 h).symm

lemma prefix_drop (h : xs ++ as <+: olds.drop i) : xs <+: olds.drop i ∧ as <+: olds.drop (i + xs.length) := by
  refine ⟨(prefix_append xs as).trans h, ?_⟩
  obtain ⟨zs, hzs⟩ := h
  refine ⟨zs, ?_⟩
  rw [← drop_drop, ← hzs, append_assoc, drop_left]

lemma follow_op (h : o.Turns i j xs ys) (hxs : xs <+: olds.drop i) (hys : ys <+: news.drop j) :
    follow k (xs.length + n) (ys.length + m) ((opLines olds news o).map bare ++ ls) (xs.map bare ++ rest) =
      (follow (k + xs.length) n m ls rest).map (ys.map bare ++ ·) := by
  have hold : (olds.take o.to1).drop o.from1 = xs := by rw [h.to1, h.from1, slice_of_prefix hxs]
  have hnew : (news.take o.to2).drop o.from2 = ys := by rw [h.to2, h.from2, slice_of_prefix hys]
  have hkept := @follow_kept k n m ls rest (xs.map bare)
  have hdeleted := @follow_deleted k n (ys.length + m) ((ys.map bare).map ('+' :: ·) ++ ls) rest (xs.map bare)
  have hadded := @follow_added (k + xs.length) n m ls rest (ys.map bare)
  rw [length_map] at hkept hdeleted hadded
  simp only [opLines, hold, hnew]
  cases htag : o.tag with
  | equal =>
    obtain rfl := h.equal htag
    simpa only [map_map, Function.comp_def, bare_marked] using hkept
  | replace =>
    rw [← hadded, ← hdeleted]
    simp only [map_append, map_map, Function.comp_def, bare_marked, append_assoc]
  | delete =>
    obtain rfl := h.delete htag
    rw [← hadded, ← hdeleted]
    simp only [map_map, Function.comp_def, bare_marked, map_nil, nil_append]
  | insert =>
    obtain rfl := h.insert htag
    rw [← hadded, ← hdeleted]
    simp only [map_map, Function.comp_def, bare_marked, map_nil, nil_append]

lemma follow_edits (h : Edits i j xs ys g) (hxs : xs <+: olds.drop i) (hys : ys <+: news.drop j) :
    follow k (xs.length + n) (ys.length + m) ((g.flatMap (opLines olds news)).map bare ++ ls) (xs.map bare ++ rest) =
      (follow (k + xs.length) n m ls rest).map (ys.map bare ++ ·) := by
  induction h generalizing k with
  | nil => simp
  | @cons i j xs ys as bs o os ho hrest ih =>
    obtain ⟨hxs, has⟩ := prefix_drop hxs
    obtain ⟨hys, hbs⟩ := prefix_drop hys
    simp only [length_append, flatMap_cons, map_append, append_assoc, Nat.add_assoc]
    rw [follow_op ho hxs hys, ih has hbs, Option.map_map]
    simp only [Function.comp_def, Nat.add_assoc]

lemma Edits.head (h : Edits i j xs ys (o :: g)) : o.from1 = i ∧ o.from2 = j := by
  cases h with
  | cons ho => exact ⟨ho.from1, ho.from2⟩

section

variable (h : Edits i j xs ys g)
include h

lemma Edits.last (hz : g.getLast? = some z) : z.to1 = i + xs.length ∧ z.to2 = j + ys.length := by
  induction h with
  | nil => cases hz
  | @cons i j xs ys as bs o os ho hrest ih =>
    cases os with
    | nil =>
      cases hrest
      obtain rfl : o = z := by simpa using hz
      rw [append_nil, append_nil]
      exact ⟨ho.to1, ho.to2⟩
    | cons o' os =>
      rw [getLast?_cons_cons] at hz
      rw [length_append, length_append, ← Nat.add_assoc, ← Nat.add_assoc]
      exact ih hz

lemma groupLines_eq (hne : g ≠ []) :
    groupLines olds news g = headText i xs.length j ys.length :: g.flatMap (opLines olds news) := by
  obtain ⟨o, os, rfl⟩ := exists_cons_of_ne_nil hne
  have hlast := getLast?_eq_some_getLast hne
  rw [groupLines, hlast, head?_cons]
  simp only [h.head.1, h.head.2, (h.last hlast).1, (h.last hlast).2]
  rfl

lemma follow_group (hne : g ≠ []) (hxs : xs <+: olds.drop i) (hys : ys <+: news.drop j)
    {before : List (List Char)} (hplace : k + before.length = i) :
    follow k 0 0 ((groupLines olds news g).map bare ++ ls) (before ++ (xs.map bare ++ rest)) =
      (follow (i + xs.length) 0 0 ls rest).map fun out => before ++ (ys.map bare ++ out) := by
  have hhead : bare (headText i xs.length j ys.length) ≠ [] := by
    rw [bare, toList_headText, withoutFeed_concat]
    exact cons_ne_nil _ _
  have hbefore : i - k = before.length := by omega
  have hthere : k ≤ i ∧ i - k ≤ (before ++ (xs.map bare ++ rest)).length := by
    rw [length_append]
    omega
  have hedits := @follow_edits i 0 0 ls rest i j xs ys olds news g h hxs hys
  rw [groupLines_eq h hne, map_cons, cons_append, follow, if_neg (fun hempty => hhead hempty.1), bare,
    readHead?_headText, Option.bind_some, if_pos hthere, hbefore,
    take_left, drop_left]
  rw [Nat.add_zero, Nat.add_zero] at hedits
  rw [hedits, Option.map_map]
  rfl

end

lemma follow_parted (h : Parted i j as bs gs) (has : as <+: olds.drop i) (hbs : bs <+: news.drop j)
    {before stop : List (List Char)} (hplace : k + before.length = i) (hstop : stop = [] ∨ stop = [[]]) :
    follow k 0 0 ((gs.flatMap (groupLines olds news)).map bare ++ stop) (before ++ (as.map bare ++ rest)) =
      some (before ++ (bs.map bare ++ rest)) := by
  induction h generalizing k before with
  | nil => rcases hstop with rfl | rfl <;> simp [follow]
  | skip same hrest ih =>
    have hnext := @ih k (prefix_drop has).2 (prefix_drop hbs).2 (before ++ same.map bare)
      (by rw [length_append, length_map]; omega)
    simpa only [map_append, append_assoc] using hnext
  | @group i j xs ys as bs g gs hedits hrest ih =>
    obtain ⟨hxs, has⟩ := prefix_drop has
    obtain ⟨hys, hbs⟩ := prefix_drop hbs
    rw [flatMap_cons, map_append, append_assoc]
    by_cases hne : g = []
    · subst hne
      cases hedits
      exact ih has hbs hplace
    · rw [map_append, append_assoc, follow_group hedits hne hxs hys hplace]
      have hnext := @ih (i + xs.length) has hbs [] rfl
      rw [nil_append, nil_append] at hnext
      rw [hnext, Option.map_some, map_append, append_assoc]

/-! ## Going back -/

lemma follow_injective (h : follow k n m ls rest = some out)
    (h' : follow k n m ls rest' = some out) : rest = rest' := by
  fun_induction follow k n m ls rest generalizing rest' out with
  | case1 k rest =>
    rw [follow] at h'
    exact Option.some_inj.1 (h.trans h'.symm)
  | case2 k l ls rest hend =>
    rw [follow, if_pos hend] at h'
    exact Option.some_inj.1 (h.trans h'.symm)
  | case3 k l ls rest hend ih =>
    rw [follow, if_neg hend] at h'
    obtain ⟨head, hhead, h⟩ := Option.bind_eq_some_iff.1 h
    rw [hhead, Option.bind_some] at h'
    obtain ⟨hthere, h⟩ := Option.ite_none_right_eq_some.1 h
    obtain ⟨hthere', h'⟩ := Option.ite_none_right_eq_some.1 h'
    obtain ⟨out₁, hout₁, rfl⟩ := Option.map_eq_some_iff.1 h
    obtain ⟨out₂, hout₂, hsame⟩ := Option.map_eq_some_iff.1 h'
    -- as many lines are kept before the group in both
    obtain ⟨hbefore, rfl⟩ := append_inj hsame (by
      rw [length_take_of_le hthere.2, length_take_of_le hthere'.2])
    have hbehind := ih head hout₁ hout₂
    rw [← take_append_drop (head.place - k) rest, ← take_append_drop (head.place - k) rest', hbefore, hbehind]
  | case4 k old new ls r rest ih =>
    obtain ⟨out, hout, rfl⟩ := Option.map_eq_some_iff.1 h
    cases rest' with
    | nil => simp at h'
    | cons r' rest' =>
      rw [follow] at h'
      obtain ⟨rfl, hnext⟩ := Option.ite_none_right_eq_some.1 h'
      obtain ⟨out', hout', hsame⟩ := Option.map_eq_some_iff.1 hnext
      rw [ih hout ((cons.inj hsame).2 ▸ hout')]
  | case5 => cases h
  | case6 k old new ls r rest ih =>
    cases rest' with
    | nil => simp at h'
    | cons r' rest' =>
      rw [follow] at h'
      obtain ⟨rfl, hnext⟩ := Option.ite_none_right_eq_some.1 h'
      rw [ih h hnext]
  | case7 => cases h
  | case8 k old new l ls rest ih =>
    obtain ⟨out, hout, rfl⟩ := Option.map_eq_some_iff.1 h
    rw [follow] at h'
    obtain ⟨out', hout', hsame⟩ := Option.map_eq_some_iff.1 h'
    exact ih hout ((cons.inj hsame).2 ▸ hout')
  | case9 => cases h

lemma notMem_of_follow (h : follow k n m ls rest = some out) (hls : ∀ l ∈ ls, '\n' ∉ l)
    (hrest : ∀ l ∈ rest, '\n' ∉ l) : ∀ l ∈ out, '\n' ∉ l := by
  fun_induction follow k n m ls rest generalizing out with
  | case1 | case2 =>
    cases h
    exact hrest
  | case3 k l ls rest hend ih =>
    obtain ⟨head, hhead, h⟩ := Option.bind_eq_some_iff.1 h
    obtain ⟨hthere, h⟩ := Option.ite_none_right_eq_some.1 h
    obtain ⟨out, hout, rfl⟩ := Option.map_eq_some_iff.1 h
    have hbehind := ih head hout (forall_mem_cons.1 hls).2 fun l hl => hrest l (mem_of_mem_drop hl)
    intro l hl
    rcases mem_append.1 hl with hl | hl
    · exact hrest l (mem_of_mem_take hl)
    · exact hbehind l hl
  | case4 k old new ls r rest ih =>
    obtain ⟨out, hout, rfl⟩ := Option.map_eq_some_iff.1 h
    have hnext := ih hout (forall_mem_cons.1 hls).2 (forall_mem_cons.1 hrest).2
    exact forall_mem_cons.2 ⟨hrest r (.head _), hnext⟩
  | case5 => cases h
  | case6 k old new ls r rest ih => exact ih h (forall_mem_cons.1 hls).2 (forall_mem_cons.1 hrest).2
  | case7 => cases h
  | case8 k old new l ls rest ih =>
    obtain ⟨out, hout, rfl⟩ := Option.map_eq_some_iff.1 h
    have hadded := hls _ (.head _)
    exact forall_mem_cons.2 ⟨fun hl => hadded (.tail _ hl), ih hout (forall_mem_cons.1 hls).2 hrest⟩
  | case9 => cases h

lemma eq_of_intercalate {xs ys : List (List Char)} (hne : xs ≠ []) (hne' : ys ≠ []) (hxs : ∀ l ∈ xs, '\n' ∉ l)
    (hys : ∀ l ∈ ys, '\n' ∉ l) (h : ['\n'].intercalate xs = ['\n'].intercalate ys) : xs = ys := by
  rw [← piecesOf_intercalate hne hxs, h, piecesOf_intercalate hne' hys]

/-- **A diff leads to a text from one text only**, unless nothing is left. -/
theorem patch_injective {diff old old' new : String} (hne : new ≠ "") (h : patch diff old = some new)
    (h' : patch diff old' = some new) : old = old' := by
  rw [patch] at h h'
  split at h
  next hdiff =>
    rw [hdiff] at h'
    exact Option.some_inj.1 (h.trans h'.symm)
  next ls hdiff =>
    rw [hdiff] at h'
    obtain ⟨out, hout, rfl⟩ := Option.map_eq_some_iff.1 h
    obtain ⟨out', hout', hsame⟩ := Option.map_eq_some_iff.1 h'
    have hls : ∀ l ∈ ls, '\n' ∉ l := fun l hl => notMem_of_mem_piecesOf (hdiff ▸ mem_cons_of_mem _ (.tail _ hl))
    have hfree := notMem_of_follow hout hls fun l hl => notMem_of_mem_piecesOf hl
    have hfree' := notMem_of_follow hout' hls fun l hl => notMem_of_mem_piecesOf hl
    have hsome : out ≠ [] := by
      rintro rfl
      exact hne rfl
    have hsome' : out' ≠ [] := by
      rintro rfl
      exact hne hsame.symm
    rw [eq_of_intercalate hsome' hsome hfree' hfree (String.ofList_injective hsame)] at hout'
    have hpieces := follow_injective hout hout'
    rw [← String.toList_inj, ← intercalate_piecesOf '\n' old.toList, hpieces, intercalate_piecesOf]
  next => cases h

end Mender.Diff
