import Mathlib.Tactic.Lemma
import Mender.Sql.Quote

/-!
# A text cut at its quotes

`quoteSpans` gives the quotes of a text by their places. Cutting text away moves all places behind the cut, so
proofs work with the pieces instead: a `Quoted` is a text up to its first quote, the quote as it is written, and
so on with the text behind it.

* `splitFirst?_eq`, `splitLast?_eq` — what the two cuts leave on either side.
-/

namespace Mender.Sql

open Option List

inductive Quoted where
  /-- a text without quotes -/
  | last (text : List Char)
  /-- a text, a quote, and what stands behind it -/
  | more (text quote : List Char) (rest : Quoted)

variable {cs t q rest : List Char} {c r : Quoted} {n a b k : Nat} {raw behind : Bool}

namespace Quoted

def text : Quoted → List Char
  | last t => t
  | more t q r => t ++ q ++ r.text

def count : Quoted → Nat
  | last _ => 0
  | more _ _ r => r.count + 1

def spansFrom : Nat → Quoted → List (Nat × Nat)
  | _, last _ => []
  | i, more t q r => (i + t.length, i + t.length + q.length) :: r.spansFrom (i + t.length + q.length)

def push (cs : List Char) : Quoted → Quoted
  | last t => last (cs ++ t)
  | more t q r => more (cs ++ t) q r

def snoc (x : Char) : Quoted → Quoted
  | last t => last (t ++ [x])
  | more t q r => more t q (r.snoc x)

def drop : Nat → Quoted → Quoted
  | 0, c => c
  | _ + 1, last t => last t
  | a + 1, more _ _ r => r.drop a

def take : Nat → Quoted → Quoted
  | _, last t => last t
  | 0, more t _ _ => last t
  | n + 1, more t q r => more t q (r.take n)

/-- What is left after `a` cuts at the front and `b` cuts at the end. A cut at the end leaves a question mark
behind. -/
def cut (c : Quoted) (a b : Nat) : Quoted :=
  let kept := (c.drop a).take (c.count - a - b)
  if b = 0 then kept else kept.snoc '?'

@[simp] theorem text_push (cs : List Char) (c : Quoted) : (c.push cs).text = cs ++ c.text := by
  cases c <;> simp [push, text]

@[simp] theorem count_push (cs : List Char) (c : Quoted) : (c.push cs).count = c.count := by
  cases c <;> rfl

@[simp] theorem text_snoc (x : Char) (c : Quoted) : (c.snoc x).text = c.text ++ [x] := by
  induction c with
  | last t => rfl
  | more t q r ih => simp [snoc, text, ih]

@[simp] theorem count_snoc (x : Char) (c : Quoted) : (c.snoc x).count = c.count := by
  induction c with
  | last t => rfl
  | more t q r ih => simp [snoc, count, ih]

lemma eq_more_of_push (h : c.push cs = more t q r) : ∃ t', c = more t' q r := by
  cases c with
  | last t' => cases h
  | more t' q' r' =>
    cases h
    exact ⟨t', rfl⟩

lemma snoc_push (x : Char) : (c.push cs).snoc x = (c.snoc x).push cs := by
  cases c <;> simp [push, snoc]

lemma take_push : (c.push cs).take n = (c.take n).push cs := by
  cases c with
  | last t => simp [push, take]
  | more t q r => cases n <;> rfl

@[simp] theorem length_spansFrom (i : Nat) (c : Quoted) : (c.spansFrom i).length = c.count := by
  induction c generalizing i with
  | last t => rfl
  | more t q r ih => simp [spansFrom, count, ih]

lemma le_spansFrom {i : Nat} : ∀ s ∈ c.spansFrom i, i ≤ s.1 := by
  induction c generalizing i with
  | last t => exact nofun
  | more t q r ih =>
    refine forall_mem_cons.2 ⟨Nat.le_add_right .., fun s hs => ?_⟩
    have := ih s hs
    omega

lemma pairwise_spansFrom (i : Nat) (c : Quoted) : (c.spansFrom i).Pairwise fun s s' => s.2 ≤ s'.1 := by
  induction c generalizing i with
  | last t => exact .nil
  | more t q r ih => exact pairwise_cons.2 ⟨fun s hs => le_spansFrom s hs, ih _⟩

lemma exists_span (i : Nat) (h : k < c.count) : ∃ t q r, c.drop k = more t q r ∧
      c.text = (c.take k).text ++ q ++ (c.drop (k + 1)).text ∧ (c.spansFrom i)[k]? = some (i + (c.take k).text.length, i + (c.take k).text.length + q.length) := by
  induction c generalizing i k with
  | last t => simp [count] at h
  | more t q r ih =>
    cases k with
    | zero => exact ⟨t, q, r, rfl, rfl, by simp [spansFrom, take, text]⟩
    | succ k =>
      obtain ⟨t', q', r', hdrop, htext, hspan⟩ := ih (i + t.length + q.length) (by simpa [count] using h)
      refine ⟨t', q', r', hdrop, ?_, ?_⟩
      · simp only [text, take, drop, htext, append_assoc]
      · rw [spansFrom, getElem?_cons_succ, hspan]
        simp [take, text, Nat.add_assoc]

lemma split_at_span {front back : List Char} (h : cs = front ++ q ++ back) :
    (cs.take (0 + front.length), cs.drop (0 + front.length + q.length)) = (front, back) := by
  subst h
  simp [append_assoc]

lemma spansFrom_push (i : Nat) : (c.push cs).spansFrom i = c.spansFrom (i + cs.length) := by
  cases c with
  | last t => rfl
  | more t q r => simp [push, spansFrom, Nat.add_assoc]

lemma take_eq_self (h : c.count ≤ n) : c.take n = c := by
  fun_induction take n c with
  | case1 => rfl
  | case2 => simp [count] at h
  | case3 n t q r ih => rw [ih (Nat.le_of_succ_le_succ h)]

lemma count_take : (c.take n).count = min n c.count := by
  fun_induction take n c with
  | case1 | case2 => simp [count]
  | case3 n t q r ih => simp [count, ih]

lemma count_drop (a : Nat) (c : Quoted) : (c.drop a).count = c.count - a := by
  fun_induction drop a c with
  | case1 => rfl
  | case2 => simp [count]
  | case3 a t q r ih => simp [count, ih]

lemma take_snoc (x : Char) (h : n < c.count) : (c.snoc x).take n = c.take n := by
  fun_induction take n c with
  | case1 => simp [count] at h
  | case2 => rfl
  | case3 n t q r ih => simp [snoc, take, ih (Nat.lt_of_succ_lt_succ h)]

lemma take_take (m : Nat) : (c.take n).take m = c.take (min m n) := by
  fun_induction take n c generalizing m with
  | case1 => simp [take]
  | case2 => cases m <;> simp [take]
  | case3 n t q r ih => cases m <;> simp [take, ih, Nat.succ_min_succ]

lemma drop_drop : (c.drop a).drop b = c.drop (a + b) := by
  fun_induction drop a c with
  | case1 => rw [Nat.zero_add]
  | case2 =>
    rw [Nat.succ_add]
    cases b <;> rfl
  | case3 a t q r ih =>
    rw [Nat.succ_add]
    exact ih

lemma drop_one_take : (c.take (n + 1)).drop 1 = (c.drop 1).take n := by
  cases c with
  | last t => cases n <;> rfl
  | more t q r => rfl

lemma drop_one_snoc {x : Char} (h : 0 < c.count) : (c.snoc x).drop 1 = (c.drop 1).snoc x := by
  cases c with
  | last t => simp [count] at h
  | more t q r => rfl

/-! ## Cuts -/

@[simp] theorem cut_zero (c : Quoted) : c.cut 0 0 = c := by
  simp [cut, drop, take_eq_self]

lemma count_cut (h : a + b ≤ c.count) : (c.cut a b).count = c.count - a - b := by
  have hk : ((c.drop a).take (c.count - a - b)).count = c.count - a - b := by
    rw [count_take, count_drop]
    omega
  unfold cut
  split
  · exact hk
  · rw [count_snoc, hk]

lemma drop_one_cut (h : a + b < c.count) : (c.cut a b).drop 1 = c.cut (a + 1) b := by
  have hd : ((c.drop a).take (c.count - a - b)).drop 1 = (c.drop (a + 1)).take (c.count - (a + 1) - b) := by
    obtain ⟨n, hn⟩ : ∃ n, c.count - a - b = n + 1 := ⟨c.count - a - b - 1, by omega⟩
    rw [hn, drop_one_take, drop_drop]
    congr 1
    omega
  unfold cut
  by_cases hb : b = 0
  · simp only [hb, if_true] at hd ⊢
    exact hd
  · simp only [if_neg hb]
    rw [drop_one_snoc (by rw [count_take, count_drop]; omega), hd]

lemma take_cut (h : n < c.count - a - b) : (c.cut a b).take n = (c.drop a).take n := by
  unfold cut
  split
  · rw [take_take, Nat.min_eq_left (by omega)]
  · rw [take_snoc _ (by rw [count_take, count_drop]; omega), take_take, Nat.min_eq_left (by omega)]

lemma take_cut_snoc (h : a + b < c.count) : ((c.cut a b).take (c.count - a - b - 1)).snoc '?' = c.cut a (b + 1) := by
  rw [take_cut (by omega), cut, if_neg (Nat.succ_ne_zero b)]
  congr 2

lemma drop_cut_zero (h : a ≤ c.count) : (c.cut a 0).drop (c.count - a) = c.drop c.count := by
  rw [cut, if_pos rfl, take_eq_self (by rw [count_drop]; omega), drop_drop, Nat.add_sub_cancel' h]

lemma exists_lastSpan (h : 0 < c.count) : ∃ i j, (c.spansFrom 0).getLast? = some (i, j) ∧ i ≤ j ∧ j ≤ c.text.length ∧
      c.text.take i ++ ['?'] = (c.cut 0 1).text ∧ c.text.drop j = (c.drop c.count).text := by
  obtain ⟨_, q, _, _, htext, hspan⟩ := exists_span (c := c) (k := c.count - 1) 0 (by omega)
  rw [Nat.sub_add_cancel h] at htext
  refine ⟨_, _, by rw [getLast?_eq_getElem?, length_spansFrom, hspan], Nat.le_add_right .., ?_, ?_, ?_⟩
  · rw [htext]
    simp only [length_append]
    omega
  · have hcut := take_cut_snoc (c := c) (a := 0) (b := 0) (by omega)
    rw [← hcut, text_snoc, htext]
    simp
  · rw [htext]
    simp

lemma exists_firstSpan (h : b < c.count) :
    ∃ i j, (c.spansFrom 0).head? = some (i, j) ∧ i ≤ c.text.length ∧ j ≤ (c.cut 0 b).text.length ∧
      c.text.take i = (c.take 0).text ∧ (c.cut 0 b).text.drop j = (c.cut 1 b).text := by
  cases c with
  | last t => simp [count] at h
  | more t q r =>
    have hcut : (more t q r).cut 0 b = more t q (((more t q r).cut 0 b).drop 1) := by
      have hn : (more t q r).count - 0 - b = r.count - b + 1 := by
        simp only [count] at h ⊢
        omega
      unfold cut
      rw [hn]
      split <;> rfl
    refine ⟨t.length, t.length + q.length, by simp [spansFrom], by simp [text], ?_, by simp [text, take], ?_⟩
    · rw [hcut]
      simp [text]
    · rw [← drop_one_cut (by omega), hcut]
      simp [text, drop, -append_assoc]

end Quoted

open Quoted

/-! ## The pieces of a text -/

/-- The pieces of a text, by the rules of `quoteSpansFrom`. -/
def quotedFrom (raw : Bool) : Bool → List Char → Quoted
  | _, [] => .last []
  | behind, '\'' :: rest =>
    if behind then (quotedFrom raw false rest).push ['\''] else .more [] ['\''] (quotedFrom raw false rest)
  | behind, '\\' :: '\'' :: rest =>
    if raw || behind then (quotedFrom raw false rest).push ['\\', '\'']
    else .more [] ['\\', '\''] (quotedFrom raw false rest)
  | _, c :: rest => (quotedFrom raw (c == '\\') rest).push [c]

def quoted (raw : Bool) (cs : List Char) : Quoted := quotedFrom raw false cs

@[simp] theorem text_quotedFrom (raw behind : Bool) (cs : List Char) : (quotedFrom raw behind cs).text = cs := by
  fun_induction quotedFrom raw behind cs <;> simp_all [Quoted.text]

lemma quoteSpansFrom_eq (raw : Bool) (i : Nat) (behind : Bool) (cs : List Char) :
    quoteSpansFrom raw i behind cs = (quotedFrom raw behind cs).spansFrom i := by
  fun_induction quoteSpansFrom raw i behind cs <;>
    simp_all [quotedFrom, spansFrom_push, Quoted.spansFrom]

lemma quoteSpans_eq : quoteSpans raw cs = (quoted raw cs).spansFrom 0 := quoteSpansFrom_eq raw 0 false cs

lemma split_eq (h : k < (quoted raw cs).count) : ((quoteSpans raw cs)[k]?.map fun (i, j) => (cs.take i, cs.drop j)) =
    some (((quoted raw cs).take k).text, ((quoted raw cs).drop (k + 1)).text) := by
  obtain ⟨_, q, _, _, hq, hspan⟩ := exists_span 0 h
  rw [quoteSpans_eq, hspan, map_some]
  exact congrArg some (split_at_span (by rw [← hq]; simp [quoted]))

lemma splitFirst?_eq (h : 0 < (quoted raw cs).count) : splitFirst? raw cs =
    some (((quoted raw cs).take 0).text, ((quoted raw cs).drop 1).text) := by
  rw [splitFirst?, head?_eq_getElem?, split_eq h]

lemma splitLast?_eq (h : 0 < (quoted raw cs).count) : splitLast? raw cs =
    some (((quoted raw cs).take ((quoted raw cs).count - 1)).text, ((quoted raw cs).drop (quoted raw cs).count).text) := by
  rw [splitLast?, getLast?_eq_getElem?, quoteSpans_eq, length_spansFrom, ← quoteSpans_eq, split_eq (Nat.sub_lt h Nat.one_pos),
    Nat.sub_add_cancel h]

/-! ## Cutting keeps the other quotes -/

/-- Are these the pieces of their text, if `behind` tells whether a backslash stands in front? -/
def Exact (raw behind : Bool) (c : Quoted) : Prop := quotedFrom raw behind c.text = c

lemma exact_quotedFrom (raw behind : Bool) (cs : List Char) : Exact raw behind (quotedFrom raw behind cs) := by
  rw [Exact, text_quotedFrom]

lemma quotedFrom_cons {c : Char} (hc : c ≠ '\'') (hrest : c = '\\' → rest.head? ≠ some '\'') :
    quotedFrom raw behind (c :: rest) = (quotedFrom raw (c == '\\') rest).push [c] := by
  rw [quotedFrom]
  · rintro rfl
    exact hc rfl
  · rintro r rfl rfl
    exact hrest rfl rfl

lemma of_more (h : quotedFrom raw behind cs = .more t q r) : '\'' ∈ q ∧ Exact raw false r := by
  fun_induction quotedFrom raw behind cs generalizing t with
  | case1 => cases h
  | case2 rest ih | case4 _ rest _ ih | case6 _ c rest _ _ ih =>
    obtain ⟨t', ht⟩ := eq_more_of_push h
    exact ih ht
  | case3 _ rest | case5 _ rest =>
    cases h
    exact ⟨by simp, exact_quotedFrom raw false rest⟩

lemma Exact.drop (h : Exact raw false c) (a : Nat) : Exact raw false (c.drop a) := by
  fun_induction Quoted.drop a c with
  | case1 | case2 => exact h
  | case3 a t q r ih => exact ih (of_more h).2

lemma text_take_isPrefix (n : Nat) (c : Quoted) : (c.take n).text <+: c.text := by
  fun_induction Quoted.take n c with
  | case1 => simp
  | case2 => simp [text]
  | case3 n t q r ih =>
    simp only [text, append_assoc, prefix_append_right_inj]
    exact ih

lemma exact_take_quotedFrom (h : n < (quotedFrom raw behind cs).count) :
    Exact raw behind (((quotedFrom raw behind cs).take n).snoc '?') := by
  fun_induction quotedFrom raw behind cs generalizing n with
  | case1 => simp [Quoted.count] at h
  | case2 rest ih =>
    have hx : Exact raw false _ := ih (by simpa using h)
    rw [take_push, snoc_push, Exact, text_push, singleton_append, quotedFrom, if_pos rfl, hx]
  | case4 behind rest hb ih =>
    have hx : Exact raw false _ := ih (by simpa using h)
    rw [take_push, snoc_push, Exact, text_push, cons_append, singleton_append, quotedFrom, if_pos hb, hx]
  | case3 behind rest hb ih | case5 behind rest hb ih =>
    cases n with
    | zero => rfl
    | succ n =>
      have hx : Exact raw false _ := ih (by simpa [Quoted.count] using h)
      simp only [Quoted.take, Quoted.snoc, Exact, Quoted.text, nil_append, cons_append]
      rw [quotedFrom, if_neg hb, hx]
  | case6 behind c rest hc hrest ih =>
    have hx : Exact raw (c == '\\') _ := ih (by simpa using h)
    rw [take_push, snoc_push, Exact, text_push, singleton_append, quotedFrom_cons hc, hx]
    -- what follows the character is the question mark or what followed it before
    rintro rfl hhead
    obtain ⟨tail, htail⟩ := text_take_isPrefix n (quotedFrom raw ('\\' == '\\') rest)
    rw [text_quotedFrom] at htail
    rw [text_snoc] at hhead
    cases hfront : ((quotedFrom raw ('\\' == '\\') rest).take n).text with
    | nil =>
      rw [hfront] at hhead
      simp at hhead
    | cons d ds =>
      rw [hfront, cons_append, head?_cons, some.injEq] at hhead
      rw [hfront, hhead] at htail
      exact hrest (ds ++ tail) rfl htail.symm

lemma Exact.cut (h : Exact raw false c) (hab : a + b ≤ c.count) : Exact raw false (c.cut a b) := by
  have hd : quotedFrom raw false (c.drop a).text = c.drop a := h.drop a
  have hcount : (c.drop a).count = c.count - a := count_drop a c
  unfold Quoted.cut
  split
  case isTrue hb =>
    rw [take_eq_self (by omega)]
    exact hd
  case isFalse hb =>
    have hx : Exact raw false (((quotedFrom raw false (c.drop a).text).take (c.count - a - b)).snoc '?') :=
      exact_take_quotedFrom (by rw [hd]; omega)
    rwa [hd] at hx

lemma exact_quoted (cs : List Char) : Exact raw false (quoted raw cs) := exact_quotedFrom raw false cs

section

variable (h : Exact raw false c)
include h

lemma splitFirst?_cut (hab : a + b < c.count) :
    splitFirst? raw (c.cut a b).text = some (((c.drop a).take 0).text, (c.cut (a + 1) b).text) := by
  have hx : quoted raw (c.cut a b).text = c.cut a b := h.cut (Nat.le_of_lt hab)
  have hcount := count_cut (Nat.le_of_lt hab)
  rw [splitFirst?_eq (by rw [hx]; omega), hx, drop_one_cut hab, take_cut (by omega)]

lemma splitLast?_cut (hab : a + b < c.count) :
    ∃ before, splitLast? raw (c.cut a b).text = some (before, ((c.cut a b).drop (c.count - a - b)).text) ∧
      before ++ ['?'] = (c.cut a (b + 1)).text := by
  have hx : quoted raw (c.cut a b).text = c.cut a b := h.cut (Nat.le_of_lt hab)
  have hcount := count_cut (Nat.le_of_lt hab)
  refine ⟨((c.cut a b).take (c.count - a - b - 1)).text, ?_, ?_⟩
  · rw [splitLast?_eq (by rw [hx]; omega), hx, hcount]
  · rw [← text_snoc, take_cut_snoc hab]

lemma split_cut_eq_none (hab : a + b = c.count) :
    splitFirst? raw (c.cut a b).text = none ∧ splitLast? raw (c.cut a b).text = none := by
  have hx : quoted raw (c.cut a b).text = c.cut a b := h.cut (Nat.le_of_eq hab)
  have hcount : (c.cut a b).count = 0 := by
    rw [count_cut (Nat.le_of_eq hab)]
    omega
  rw [splitFirst?, splitLast?, quoteSpans_eq, hx, length_eq_zero_iff.1 ((length_spansFrom 0 _).trans hcount)]
  exact ⟨rfl, rfl⟩

end

/-! ## Cutting makes texts lighter -/

/-- A single quote weighs two and any other character one. Hence a question mark weighs less than any quote. -/
def weight (cs : List Char) : Nat := cs.length + cs.count '\''

@[simp] theorem weight_append (cs ds : List Char) : weight (cs ++ ds) = weight cs + weight ds := by
  simp only [weight, length_append, count_append]
  omega

lemma two_le_weight (h : '\'' ∈ q) : 2 ≤ weight q := by
  have hlength := length_pos_of_mem h
  have hcount := count_pos_iff.2 h
  simp only [weight]
  omega

section

variable (h : Exact raw false c)
include h

lemma exists_quote (hk : k < c.count) : ∃ q, '\'' ∈ q ∧ c.text = (c.take k).text ++ q ++ (c.drop (k + 1)).text := by
  obtain ⟨t, q, r, hdrop, htext, _⟩ := exists_span 0 hk
  exact ⟨q, (of_more ((h.drop k).trans hdrop)).1, htext⟩

lemma weight_cut_front (hab : a + b < c.count) : weight (c.cut (a + 1) b).text < weight (c.cut a b).text := by
  have hcount := count_cut (Nat.le_of_lt hab)
  obtain ⟨q, hq, htext⟩ := exists_quote (h.cut (Nat.le_of_lt hab)) (k := 0) (by omega)
  have := two_le_weight hq
  rw [htext, weight_append, weight_append, Nat.zero_add, drop_one_cut hab]
  omega

lemma weight_cut_end (hab : a + b < c.count) : weight (c.cut a (b + 1)).text < weight (c.cut a b).text := by
  have hcount := count_cut (Nat.le_of_lt hab)
  obtain ⟨q, hq, htext⟩ := exists_quote (h.cut (Nat.le_of_lt hab)) (k := c.count - a - b - 1) (by omega)
  have := two_le_weight hq
  have hmark : weight ['?'] = 1 := rfl
  rw [htext, ← take_cut_snoc hab, text_snoc, weight_append, weight_append, weight_append, hmark]
  omega

lemma weight_cut_add {x y : Nat} (hle : a + x + (b + y) ≤ c.count) :
    weight (c.cut (a + x) (b + y)).text + x + y ≤ weight (c.cut a b).text := by
  induction x with
  | zero =>
    induction y with
    | zero => exact Nat.le_refl _
    | succ y ih =>
      have hstep := weight_cut_end h (a := a) (b := b + y) (by omega)
      have hrest := ih (by omega)
      simp only [Nat.add_zero, ← Nat.add_assoc] at hstep hrest ⊢
      omega
  | succ x ih =>
    have hstep := weight_cut_front h (a := a + x) (b := b + y) (by omega)
    have hrest := ih (by omega)
    rw [← Nat.add_assoc a x 1]
    omega

end

/-! ## Quotes and their pattern -/

section

/-- Does a match of the pattern for quotes begin at a place? It is a quote, or in a text that is not raw a quote with a
backslash, and no backslash stands in front of it. -/
def isMatchAt (raw : Bool) (text : List Char) (i : Nat) : Bool :=
  ! (0 < i && text[i - 1]? == some '\\') &&
    (text[i]? == some '\'' || ! raw && text[i]? == some '\\' && text[i + 1]? == some '\'')

/-- How many matches begin in the rest of a text. -/
def matchCount (raw : Bool) (before rest : List Char) : Nat :=
  (range rest.length).countP fun k => isMatchAt raw (before ++ rest) (before.length + k)

variable {before rest : List Char} {c : Char}

lemma matchCount_cons (h : behind = (before.getLast? == some '\\')) :
    matchCount raw before (c :: rest) = matchCount raw (before ++ [c]) rest +
      if ! behind && (c == '\'' || ! raw && c == '\\' && rest.head? == some '\'') then 1 else 0 := by
  have hlast : (0 < before.length && (before ++ c :: rest)[before.length - 1]? == some '\\') = behind := by
    cases before with
    | nil => exact h.symm
    | cons d ds =>
      rw [h, getLast?_eq_getElem?, getElem?_append_left (by simp)]
      simp
  simp only [matchCount, length_cons, range_succ_eq_map, countP_cons, countP_map, Nat.add_zero,
    append_assoc, singleton_append, length_append, length_nil, Nat.zero_add]
  congr 2
  · funext k
    simp only [Function.comp_apply, Nat.succ_eq_add_one, Nat.add_assoc, Nat.add_comm 1]
  · rw [isMatchAt, hlast, getElem?_append_right (Nat.le_refl _), getElem?_append_right (Nat.le_add_right _ 1),
      Nat.sub_self, Nat.add_sub_cancel_left]
    simp [head?_eq_getElem?]

lemma length_quoteSpansFrom (i : Nat) (h : behind = (before.getLast? == some '\\')) :
    (quoteSpansFrom raw i behind rest).length = matchCount raw before rest := by
  have hsnoc (c : Char) (before : List Char) : (c == '\\') = ((before ++ [c]).getLast? == some '\\') := by simp
  fun_induction quoteSpansFrom raw i behind rest generalizing before with
  | case1 => rfl
  | case2 i rest ih =>
    rw [matchCount_cons h, ih (hsnoc '\'' before)]
    rfl
  | case3 i behind rest hb ih =>
    obtain rfl : behind = false := Bool.eq_false_iff.2 hb
    rw [matchCount_cons h, length_cons, ih (hsnoc '\'' before)]
    rfl
  | case4 i behind rest hb ih =>
    rw [matchCount_cons h, matchCount_cons (hsnoc '\\' before), ih (hsnoc '\'' (before ++ ['\\']))]
    rcases Bool.or_eq_true_iff.1 hb with rfl | rfl <;> simp
  | case5 i behind rest hb ih =>
    obtain ⟨rfl, rfl⟩ := Bool.or_eq_false_iff.1 (Bool.eq_false_iff.2 hb)
    rw [matchCount_cons h, matchCount_cons (hsnoc '\\' before), length_cons, ih (hsnoc '\'' (before ++ ['\\']))]
    rfl
  | case6 i behind c rest hc hrest ih =>
    have hnot : (c == '\'' || ! raw && c == '\\' && rest.head? == some '\'') = false := by
      cases rest <;> simp_all
    rw [matchCount_cons h, ih (hsnoc c before), hnot, Bool.and_false]
    rfl

lemma length_quoteSpans (text : List Char) : (quoteSpans raw text).length = matchCount raw [] text :=
  length_quoteSpansFrom 0 rfl

end

end Mender.Sql
