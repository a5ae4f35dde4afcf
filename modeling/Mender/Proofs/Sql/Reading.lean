import Mathlib.Data.List.Basic
import Mathlib.Data.List.Flatten
import Mender.Proofs.Sql.Extents
import Mender.Sql.Query

/-!
# Reading a query

What a query says is a sequence of characters, where its leaves are texts, and of values that are known only when the
program runs. An SQL literal is a stretch of it: from the last quote of the leaf in which it begins through the
first quote of the leaf in which it ends.

* `splice_eq` — how a query reads with a mark for each literal, leaf by leaf.
-/

namespace Mender.Sql

open Syntax List

variable {l start stop : Leaf} {k i j n k' b : Nat} {e : Extent} {query before middle later ls : List Leaf}
  {es : List Extent}

/-- What a query reads, item by item: a character, or the value of an expression. -/
inductive Item where
  | char (c : Char)
  | value (n : Node)

/-- What a leaf reads. -/
def readingOf (n : Node) : List Item :=
  match n.kind with
  | .simpleString => (Literal.parts n.text).raw.toList.map .char
  | .formattedStringText => n.text.toList.map .char
  | _ => [.value n]

section

variable (query : List Leaf)

/-- What a query reads. -/
def reading : List Item := query.flatMap fun l => readingOf l.node

/-- Where the leaf at a place begins in the reading. -/
def offset (k : Nat) : Nat := (reading (query.take k)).length

/-- The quotes of a leaf, by where they begin and end. -/
def Leaf.quotes (l : Leaf) : List (Nat × Nat) :=
  match l.text with
  | some (mark, raw) => if l.isText then quoteSpans (isRaw mark) raw else []
  | none => []

/-- The quotes of the leaf at a place, by where they stand in the reading. -/
def quotesAt (k : Nat) : List (Nat × Nat) :=
  match query[k]? with
  | some l => l.quotes.map fun (i, j) => (offset query k + i, offset query k + j)
  | none => []

namespace Extent

/-- The quote that begins a literal. -/
def openQuote (e : Extent) : Nat × Nat := (quotesAt query e.start).getLastD (0, 0)

/-- The quote that ends a literal. -/
def closeQuote (e : Extent) : Nat × Nat := (quotesAt query e.stop).headD (0, 0)

/-- The stretch of a literal with its quotes. -/
def outer (e : Extent) : Nat × Nat := ((e.openQuote query).1, (e.closeQuote query).2)

/-- The stretch between the quotes. -/
def inner (e : Extent) : Nat × Nat := ((e.openQuote query).2, (e.closeQuote query).1)

end Extent

end

/-- The items of a stretch. -/
def between (items : List Item) (stretch : Nat × Nat) : List Item := (items.take stretch.2).drop stretch.1

/-- A question mark in the place of each stretch; the stretches come in order. -/
def splice (items : List Item) : List (Nat × Nat) → List Item
  | [] => items
  | (i, j) :: rest => (splice items rest).take i ++ .char '?' :: (splice items rest).drop j

/-! ## Leaves by their pieces -/

namespace Leaf

def pieces (l : Leaf) : Quoted :=
  match l.text with
  | some (mark, raw) => if l.isText then quoted (isRaw mark) raw else .last raw
  | none => .last []

def IsRead (l : Leaf) : Prop := ∀ mark raw, l.text = some (mark, raw) → readingOf l.node = raw.map .char

/-- What is left of a leaf: nothing if it is taken out, else what `a` cuts at the front and `b` cuts at the end
leave. -/
def rest (l : Leaf) (gone : Bool) (a b : Nat) : List Item :=
  if gone then [] else if a = 0 ∧ b = 0 then readingOf l.node else (l.pieces.cut a b).text.map .char

lemma quotes_eq (l : Leaf) : l.quotes = l.pieces.spansFrom 0 := by
  rcases htext : l.text with _ | ⟨mark, raw⟩
  · simp only [pieces, quotes, htext, Quoted.spansFrom]
  · by_cases hl : l.isText = true
    · simp only [pieces, quotes, htext, if_pos hl, quoteSpans_eq]
    · simp only [pieces, quotes, htext, if_neg hl, Quoted.spansFrom]

lemma count_pieces (l : Leaf) : l.pieces.count = l.quoteCount := by
  rw [← Quoted.length_spansFrom 0, ← quotes_eq, quotes, quoteCount]
  cases l.text with
  | none => rfl
  | some text =>
    dsimp only
    split <;> rfl

lemma exists_text (h : 0 < l.quoteCount) : ∃ mark raw, l.text = some (mark, raw) ∧ l.pieces = quoted (isRaw mark) raw := by
  revert h
  fun_cases quoteCount l with
  | case1 mark raw htext hl => exact fun _ => ⟨mark, raw, htext, by simp only [pieces, htext, if_pos hl]⟩
  | _ => rintro ⟨⟩

lemma IsRead.readingOf_eq (h : l.IsRead) (hl : 0 < l.quoteCount) : readingOf l.node = l.pieces.text.map .char := by
  obtain ⟨mark, raw, htext, hpieces⟩ := exists_text hl
  rw [h mark raw htext, hpieces, quoted, text_quotedFrom]

lemma IsRead.rest_eq (h : l.IsRead) (hl : 0 < l.quoteCount) (a b : Nat) :
    l.rest false a b = (l.pieces.cut a b).text.map .char := by
  unfold rest
  split
  case isTrue hgone => cases hgone
  case isFalse =>
    split
    case isTrue hab =>
      obtain ⟨rfl, rfl⟩ := hab
      rw [Quoted.cut_zero, h.readingOf_eq hl]
    case isFalse => rfl

@[simp] lemma rest_zero : l.rest false 0 0 = readingOf l.node := rfl

@[simp] lemma rest_gone (a b : Nat) : l.rest true a b = [] := rfl

end Leaf

/-! ## Splicing leaf by leaf -/

/-- What is left of the leaf at place `k` when the literals at the given extents are cut out. -/
def restAt (es : List Extent) (l : Leaf) (k : Nat) : List Item :=
  l.rest (es.any (·.covers k)) (es.countP (·.stop == k)) (es.countP (·.start == k))

def restOf (query : List Leaf) (es : List Extent) : List Item := query.zipIdx.flatMap fun x => restAt es x.1 x.2

def restFrom (es : List Extent) (i : Nat) (ls : List Leaf) : List Item := (ls.zipIdx i).flatMap fun x => restAt es x.1 x.2

lemma countP_place {f : Extent → Nat} (h : ∀ e ∈ es, k < f e) : es.countP (f · == k) = 0 :=
  countP_eq_zero.2 fun e he => mt beq_iff_eq.1 (Nat.ne_of_gt (h e he))

lemma no_role_of_le (h : ∀ e ∈ es, k ≤ e.start ∧ e.start < e.stop) :
    es.any (·.covers k) = false ∧ es.countP (·.stop == k) = 0 := by
  refine ⟨any_eq_false.2 fun e he => ?_, countP_place fun e he => Nat.lt_of_le_of_lt (h e he).1 (h e he).2⟩
  rw [Extent.covers_iff]
  exact fun hk => Nat.not_lt.2 (h e he).1 hk.1

lemma restAt_of_lt (h : ∀ e ∈ es, k < e.start ∧ e.start < e.stop) : restAt es l k = readingOf l.node := by
  obtain ⟨hgone, hstop⟩ := no_role_of_le fun e he => ⟨Nat.le_of_lt (h e he).1, (h e he).2⟩
  rw [restAt, hgone, hstop, countP_place fun e he => (h e he).1, Leaf.rest_zero]

lemma flatMap_zipIdx (ls : List Leaf) (i : Nat) (g : Leaf → List Item) :
    (ls.zipIdx i).flatMap (fun x => g x.1) = ls.flatMap g := by
  rw [← flatMap_map Prod.fst, zipIdx_map_fst]

lemma restFrom_of_le (h : ∀ e ∈ es, i + ls.length ≤ e.start ∧ e.start < e.stop) : restFrom es i ls = reading ls := by
  have hcongr : ∀ x ∈ ls.zipIdx i, restAt es x.1 x.2 = readingOf x.1.node := by
    intro x hx
    refine restAt_of_lt fun e he => ?_
    have := h e he
    have := snd_lt_of_mem_zipIdx hx
    omega
  rw [restFrom, flatMap_congr hcongr, reading]
  exact flatMap_zipIdx ls i fun l => readingOf l.node

lemma restAt_cons : restAt (e :: es) l k =
      l.rest (e.covers k || es.any (·.covers k)) (es.countP (·.stop == k) + if e.stop = k then 1 else 0)
        (es.countP (·.start == k) + if e.start = k then 1 else 0) := by
  simp only [restAt, any_cons, countP_cons, beq_iff_eq]

lemma restAt_cons_of_gt (he : e.start < e.stop) (hk : e.stop < k) : restAt (e :: es) l k = restAt es l k := by
  have hcovers : e.covers k = false := by
    rw [Bool.eq_false_iff, Ne, Extent.covers_iff]
    omega
  rw [restAt_cons, hcovers, if_neg (by omega), if_neg (by omega), Bool.false_or, Nat.add_zero, Nat.add_zero, restAt]

lemma restOf_append : restOf (before ++ start :: (middle ++ stop :: later)) es = restFrom es 0 before ++
        (restAt es start before.length ++ (restFrom es (before.length + 1) middle ++
            (restAt es stop (before.length + 1 + middle.length) ++
              restFrom es (before.length + 1 + middle.length + 1) later))) := by
  simp only [restOf, restFrom, zipIdx_append, zipIdx_cons, flatMap_append, flatMap_cons, Nat.zero_add]

lemma Extent.openQuote_eq (hl : query[e.start]? = some l) (h : l.quotes.getLast? = some (i, j)) :
    e.openQuote query = (offset query e.start + i, offset query e.start + j) := by
  simp only [Extent.openQuote, quotesAt, hl, getLastD_eq_getLast?, getLast?_map, h, Option.map_some, Option.getD_some]

lemma Extent.closeQuote_eq (hl : query[e.stop]? = some l) (h : l.quotes.head? = some (i, j)) :
    e.closeQuote query = (offset query e.stop + i, offset query e.stop + j) := by
  simp only [Extent.closeQuote, quotesAt, hl, headD_eq_head?_getD, head?_map, h, Option.map_some, Option.getD_some]

lemma offset_start (before rest : List Leaf) : offset (before ++ rest) before.length = (reading before).length := by
  rw [offset, take_left]

lemma offset_stop : offset (before ++ start :: (middle ++ stop :: later)) (before.length + 1 + middle.length) =
      (reading (before ++ start :: middle)).length := by
  rw [append_upTo, ← length_upTo, offset_start]

lemma Extent.quotes_append (before middle later : List Leaf) {i' j' : Nat}
    (hlast : start.quotes.getLast? = some (i, j)) (hfirst : stop.quotes.head? = some (i', j')) :
    let query := before ++ start :: (middle ++ stop :: later)
    let e : Extent := ⟨before.length, before.length + 1 + middle.length⟩
    e.openQuote query = ((reading before).length + i, (reading before).length + j) ∧ e.closeQuote query =
        ((reading (before ++ start :: middle)).length + i', (reading (before ++ start :: middle)).length + j') := by
  intro query e
  have hopen := e.openQuote_eq (getElem?_start before middle later start stop) hlast
  have hclose := e.closeQuote_eq (getElem?_stop before middle later start stop) hfirst
  rw [offset_start] at hopen
  rw [offset_stop] at hclose
  exact ⟨hopen, hclose⟩

lemma reading_append (ls ls' : List Leaf) : reading (ls ++ ls') = reading ls ++ reading ls' := by
  simp [reading]

lemma reading_cons (ls : List Leaf) : reading (l :: ls) = readingOf l.node ++ reading ls := by
  simp [reading]

/-- Cutting one literal out: its first leaf is cut at the end, the leaves inside go, and its last leaf is cut at the
front, whatever has been cut from its end already. -/
lemma splice_one (tail : List Item) (hstart : start.IsRead) (hstop : stop.IsRead)
    (hopen : 0 < start.quoteCount) (hclose : b < stop.quoteCount) :
    let query := before ++ start :: (middle ++ stop :: later)
    let stretch := Extent.outer query ⟨before.length, before.length + 1 + middle.length⟩
    let items := reading (before ++ start :: middle) ++ (stop.rest false 0 b ++ tail)
    items.take stretch.1 ++ .char '?' :: items.drop stretch.2 =
      reading before ++ (start.rest false 0 1 ++ (stop.rest false 1 b ++ tail)) := by
  intro query stretch items
  obtain ⟨i, j, hlast, hij, hj, hcut, -⟩ := Quoted.exists_lastSpan (start.count_pieces.symm ▸ hopen)
  obtain ⟨i', j', hfirst, -, hj', -, hcut'⟩ := Quoted.exists_firstSpan (stop.count_pieces.symm ▸ hclose)
  have hquotes := Extent.quotes_append before middle later
    (start.quotes_eq.symm ▸ hlast) (stop.quotes_eq.symm ▸ hfirst)
  have hstretch : stretch = ((reading before).length + i, (reading (before ++ start :: middle)).length + j') := by
    simp only [stretch, query, Extent.outer, hquotes]
  have htake : items.take ((reading before).length + i) = reading before ++ (start.pieces.text.take i).map .char := by
    have hitems : items = reading before ++ (start.pieces.text.map .char ++ (reading middle ++
        (stop.rest false 0 b ++ tail))) := by
      simp only [items, reading_append, reading_cons, hstart.readingOf_eq hopen, append_assoc]
    rw [hitems, take_length_add_append, take_append_of_le_length (by rw [length_map]; omega), map_take]
  have hdrop : items.drop ((reading (before ++ start :: middle)).length + j') =
      ((stop.pieces.cut 0 b).text.drop j').map .char ++ tail := by
    simp only [items]
    rw [drop_length_add_append, hstop.rest_eq (by omega), drop_append_of_le_length (by rw [length_map]; omega), map_drop]
  rw [hstretch, htake, hdrop, hstart.rest_eq hopen, hstop.rest_eq (by omega), ← hcut, hcut']
  simp

lemma Placed.start_lt (h : Placed query (e :: es)) : ∀ e' ∈ es, e.stop ≤ e'.start ∧ e'.start < e'.stop := fun e' he' =>
  ⟨(pairwise_cons.1 h.apart).1 e' he', (h.bounds e' (.tail _ he')).1⟩

lemma Placed.countP_start_le_one (h : Placed query es) (k : Nat) : es.countP (·.start == k) ≤ 1 := by
  induction es with
  | nil => exact Nat.zero_le 1
  | cons e es ih =>
    rw [countP_cons]
    split
    case isFalse => exact ih h.tail
    case isTrue hk =>
      have hlt : ∀ e' ∈ es, k < e'.start := by
        intro e' he'
        have := h.start_lt e' he'
        have := h.bounds e (.head _)
        rw [beq_iff_eq] at hk
        omega
      exact Nat.le_of_eq (congrArg (· + 1) (countP_place hlt))

lemma Placed.countP_start_lt (h : Placed query (e :: es)) (hl : query[e.stop]? = some l) :
    es.countP (·.start == e.stop) < l.quoteCount := by
  have hpos := h.ends e (.head _) e.stop l (.inr rfl) hl
  have hle := h.tail.countP_start_le_one e.stop
  rcases Nat.eq_zero_or_pos (es.countP (·.start == e.stop)) with hzero | hone
  · omega
  · obtain ⟨e', he', heq⟩ := countP_pos_iff.1 hone
    have := h.shared e (.head _) e' (.tail _ he') (beq_iff_eq.1 heq).symm l hl
    omega

section

variable (hlater : ∀ e ∈ es, before.length + 1 + middle.length ≤ e.start ∧ e.start < e.stop)
include hlater

lemma restOf_later : restOf (before ++ start :: (middle ++ stop :: later)) es = reading (before ++ start :: middle) ++
        (stop.rest false 0 (es.countP (·.start == before.length + 1 + middle.length)) ++
          restFrom es (before.length + 1 + middle.length + 1) later) := by
  obtain ⟨hgone, hstops⟩ := no_role_of_le hlater
  have hbefore : restFrom es 0 before = reading before :=
    restFrom_of_le fun e he => by have := hlater e he; omega
  have hstart : restAt es start before.length = readingOf start.node :=
    restAt_of_lt fun e he => by have := hlater e he; omega
  have hmiddle : restFrom es (before.length + 1) middle = reading middle :=
    restFrom_of_le fun e he => by have := hlater e he; omega
  rw [restOf_append, hbefore, hstart, hmiddle, reading_append, reading_cons, restAt, hgone, hstops]
  simp only [append_assoc]

lemma restOf_cons (he : e = ⟨before.length, before.length + 1 + middle.length⟩) :
    restOf (before ++ start :: (middle ++ stop :: later)) (e :: es) = reading before ++ (start.rest false 0 1 ++
        (stop.rest false 1 (es.countP (·.start == before.length + 1 + middle.length)) ++
          restFrom es (before.length + 1 + middle.length + 1) later)) := by
  obtain ⟨hes, het⟩ : e.start = before.length ∧ e.stop = before.length + 1 + middle.length := by simp [he]
  have hall : ∀ e' ∈ e :: es, before.length ≤ e'.start ∧ e'.start < e'.stop :=
    forall_mem_cons.2 ⟨by omega, fun e' he' => by have := hlater e' he'; omega⟩
  have hbefore : restFrom (e :: es) 0 before = reading before :=
    restFrom_of_le fun e' he' => by have := hall e' he'; omega
  have hstart : restAt (e :: es) start before.length = start.rest false 0 1 := by
    obtain ⟨hgone, hstops⟩ := no_role_of_le hall
    have hstarts : es.countP (·.start == before.length) = 0 :=
      countP_place fun e' he' => by have := hlater e' he'; omega
    rw [restAt, hgone, hstops, countP_cons, hstarts, if_pos (beq_iff_eq.2 hes)]
  have hmiddle : restFrom (e :: es) (before.length + 1) middle = [] := by
    rw [restFrom, flatMap_eq_nil_iff]
    intro x hx
    have hlt := snd_lt_of_mem_zipIdx hx
    have hle := le_snd_of_mem_zipIdx hx
    rw [restAt_cons, Extent.covers_iff.2 (by omega), Bool.true_or, Leaf.rest_gone]
  have hstop : restAt (e :: es) stop (before.length + 1 + middle.length) =
      stop.rest false 1 (es.countP (·.start == before.length + 1 + middle.length)) := by
    obtain ⟨hgone, hstops⟩ := no_role_of_le hlater
    have hcovers : e.covers (before.length + 1 + middle.length) = false := by
      rw [Bool.eq_false_iff, Ne, Extent.covers_iff]
      omega
    rw [restAt_cons, hcovers, hgone, hstops, if_pos het, if_neg (by omega), Bool.or_false, Nat.zero_add, Nat.add_zero]
  have hrest : restFrom (e :: es) (before.length + 1 + middle.length + 1) later =
      restFrom es (before.length + 1 + middle.length + 1) later := by
    refine flatMap_congr fun x hx => restAt_cons_of_gt (by omega) ?_
    have := le_snd_of_mem_zipIdx hx
    omega
  rw [restOf_append, hbefore, hstart, hmiddle, hstop, hrest, nil_append]

end

lemma splice_eq (hplaced : Placed query es) (hread : ∀ l ∈ query, l.IsRead) :
    splice (reading query) (es.map (·.outer query)) = restOf query es := by
  induction es with
  | nil => exact (restFrom_of_le (i := 0) (by simp)).symm
  | cons e es ih =>
    obtain ⟨before, start, middle, stop, later, rfl, rfl⟩ := exists_split (hplaced.bounds e (.head _))
    have hopen : 0 < start.quoteCount := hplaced.ends _ (.head _) before.length start (.inl rfl) (getElem?_start ..)
    have hclose := hplaced.countP_start_lt (getElem?_stop before middle later start stop)
    rw [map_cons, splice, ih hplaced.tail, restOf_later hplaced.start_lt, restOf_cons hplaced.start_lt rfl]
    exact splice_one _ (hread start (by simp)) (hread stop (by simp)) hopen hclose

/-! ## What the stretches hold -/

/-- Between its quotes a literal holds what stands behind the last quote of its first leaf, the leaves inside, and
what stands in front of the first quote of its last leaf. -/
lemma between_inner (hstart : start.IsRead) (hstop : stop.IsRead) (hopen : 0 < start.quoteCount)
    (hclose : 0 < stop.quoteCount) :
    let query := before ++ start :: (middle ++ stop :: later)
    between (reading query) (Extent.inner query ⟨before.length, before.length + 1 + middle.length⟩) =
      (start.pieces.drop start.pieces.count).text.map .char ++
        (reading middle ++ (stop.pieces.take 0).text.map .char) := by
  intro query
  obtain ⟨i, j, hlast, hij, hj, -, hdrop⟩ := Quoted.exists_lastSpan (start.count_pieces.symm ▸ hopen)
  obtain ⟨i', j', hfirst, hi', -, htake, -⟩ := Quoted.exists_firstSpan (stop.count_pieces.symm ▸ hclose)
  have hquery : reading query =
      reading (before ++ start :: middle) ++ (stop.pieces.text.map .char ++ reading later) := by
    simp only [query, reading_append, reading_cons, hstop.readingOf_eq hclose, append_assoc]
  have hfront : reading (before ++ start :: middle) ++ (stop.pieces.text.take i').map .char =
      reading before ++ (start.pieces.text.map .char ++ (reading middle ++ (stop.pieces.text.take i').map .char)) := by
    simp only [reading_append, reading_cons, hstart.readingOf_eq hopen, append_assoc]
  have hquotes := Extent.quotes_append before middle later
    (start.quotes_eq.symm ▸ hlast) (stop.quotes_eq.symm ▸ hfirst)
  simp only [between, Extent.inner, query, hquotes]
  rw [hquery, take_length_add_append, take_append_of_le_length (by rw [length_map]; omega),
    ← map_take, hfront, drop_length_add_append,
    drop_append_of_le_length (by rw [length_map]; omega), ← map_drop, hdrop, htake]

def InOrder (size : Nat) (stretches : List (Nat × Nat)) : Prop :=
  (∀ s ∈ stretches, s.1 ≤ s.2 ∧ s.2 ≤ size) ∧ stretches.Pairwise fun s s' => s.2 ≤ s'.1

variable {stretches : List (Nat × Nat)} {items : List Item}

lemma take_splice
    (h : ∀ s ∈ stretches, n ≤ s.1) (hn : n ≤ items.length) : (splice items stretches).take n = items.take n := by
  induction stretches with
  | nil => rfl
  | cons s rest ih =>
    obtain ⟨hs, hrest⟩ := forall_mem_cons.1 h
    have htake := ih hrest
    have hlength : n ≤ (splice items rest).length := by
      have := congrArg length htake
      simp only [length_take] at this
      omega
    rw [splice, take_append_of_le_length (by rw [length_take]; omega), take_take, Nat.min_eq_left hs, htake]

lemma countP_splice (h : InOrder items.length stretches) {p : Item → Bool} (hp : p (.char '?') = true) :
    (splice items stretches).countP p + (stretches.flatMap (between items)).countP p =
      items.countP p + stretches.length := by
  induction stretches with
  | nil => simp [splice]
  | cons s rest ih =>
    obtain ⟨hs, hbounds⟩ := forall_mem_cons.1 h.1
    obtain ⟨hfirst, hpair⟩ := pairwise_cons.1 h.2
    have hrest := ih ⟨hbounds, hpair⟩
    have hbetween : between items s = between (splice items rest) s := by
      rw [between, between, take_splice hfirst hs.2]
    have hparts : (splice items rest).countP p = ((splice items rest).take s.1).countP p +
        (between (splice items rest) s).countP p + ((splice items rest).drop s.2).countP p := by
      have htake : ((splice items rest).take s.2).take s.1 = (splice items rest).take s.1 := by
        rw [take_take, Nat.min_eq_left hs.1]
      rw [between, ← htake, ← countP_append, take_append_drop, ← countP_append, take_append_drop]
    rw [splice, flatMap_cons, countP_append, countP_append, countP_cons, if_pos hp, hbetween, length_cons]
    omega

lemma offset_succ (h : query[k]? = some l) : offset query (k + 1) = offset query k + (readingOf l.node).length := by
  rw [offset, offset, take_add_one, h, reading_append, length_append]
  simp [reading]

lemma offset_le (h : k ≤ k') : offset query k ≤ offset query k' := ((take_sublist_take_left h).flatMap _).length_le

lemma offset_le_length (query : List Leaf) (k : Nat) : offset query k ≤ (reading query).length :=
  ((take_sublist k query).flatMap _).length_le

lemma Leaf.exists_quotes (hread : l.IsRead) (hpos : 0 < l.quoteCount) :
    ∃ i j i' j', l.quotes.getLast? = some (i, j) ∧ l.quotes.head? = some (i', j') ∧
      i ≤ (readingOf l.node).length ∧ j' ≤ (readingOf l.node).length ∧ (2 ≤ l.quoteCount → j' ≤ i) := by
  obtain ⟨i, j, hlast, hij, hj, -⟩ := Quoted.exists_lastSpan (l.count_pieces.symm ▸ hpos)
  obtain ⟨i', j', hfirst, -, hj', -⟩ := Quoted.exists_firstSpan (l.count_pieces.symm ▸ hpos)
  rw [Quoted.cut_zero] at hj'
  rw [hread.readingOf_eq hpos, length_map, l.quotes_eq]
  refine ⟨i, j, i', j', hlast, hfirst, by omega, hj', fun htwo => ?_⟩
  have hpairs := Quoted.pairwise_spansFrom 0 l.pieces
  have hlength := Quoted.length_spansFrom 0 l.pieces
  rw [l.count_pieces] at hlength
  match hspans : l.pieces.spansFrom 0 with
  | [] => simp [hspans] at hlength; omega
  | [s] => simp [hspans] at hlength; omega
  | s :: s' :: rest =>
    rw [hspans] at hfirst hlast hpairs
    rw [getLast?_cons_cons] at hlast
    cases hfirst
    exact (pairwise_cons.1 hpairs).1 _ (mem_of_getLast? hlast)

lemma inOrder_outer (hplaced : Placed query es) (hread : ∀ l ∈ query, l.IsRead) :
    InOrder (reading query).length (es.map (·.outer query)) := by
  -- the leaf at either end of a literal, with its quotes
  have hleaf : ∀ e ∈ es, ∀ k, k = e.start ∨ k = e.stop → ∃ l, query[k]? = some l ∧ l.IsRead ∧ 0 < l.quoteCount := by
    intro e he k hk
    have hbounds := hplaced.bounds e he
    obtain ⟨l, hl⟩ : ∃ l, query[k]? = some l := ⟨query[k], getElem?_eq_getElem (by omega)⟩
    exact ⟨l, hl, hread l (mem_of_getElem? hl), hplaced.ends e he k l hk hl⟩
  refine ⟨forall_mem_map.2 fun e he => ?_, pairwise_map.2 (hplaced.apart.imp_of_mem ?_)⟩
  · obtain ⟨l, hl, hlread, hlpos⟩ := hleaf e he e.start (.inl rfl)
    obtain ⟨l', hl', hlread', hlpos'⟩ := hleaf e he e.stop (.inr rfl)
    obtain ⟨i, j, -, -, hlast, -, hi, -⟩ := Leaf.exists_quotes hlread hlpos
    obtain ⟨-, -, i', j', -, hfirst, -, hj', -⟩ := Leaf.exists_quotes hlread' hlpos'
    rw [Extent.outer, e.openQuote_eq hl hlast, e.closeQuote_eq hl' hfirst]
    have := offset_succ hl
    have := offset_succ hl'
    have : offset query (e.start + 1) ≤ offset query e.stop := offset_le (hplaced.bounds e he).1
    have := offset_le_length query (e.stop + 1)
    simp only
    omega
  · intro e e' he he' hle
    obtain ⟨l, hl, hlread, hlpos⟩ := hleaf e he e.stop (.inr rfl)
    obtain ⟨l', hl', hlread', hlpos'⟩ := hleaf e' he' e'.start (.inl rfl)
    obtain ⟨-, -, i, j, -, hfirst, -, hj, -⟩ := Leaf.exists_quotes hlread hlpos
    obtain ⟨i', j', i₂, j₂, hlast, hfirst', -, -, htwo⟩ := Leaf.exists_quotes hlread' hlpos'
    rw [Extent.outer, Extent.outer, e.closeQuote_eq hl hfirst, e'.openQuote_eq hl' hlast]
    simp only
    rcases Nat.eq_or_lt_of_le hle with heq | hlt
    · -- one leaf ends the first literal and begins the second
      have hshared := hplaced.shared e he e' he' heq l hl
      rw [heq] at hl ⊢
      cases hl.symm.trans hl'
      cases hfirst.symm.trans hfirst'
      have := htwo hshared
      omega
    · have := offset_succ hl
      have : offset query (e.stop + 1) ≤ offset query e'.start := offset_le hlt
      omega

end Mender.Sql
