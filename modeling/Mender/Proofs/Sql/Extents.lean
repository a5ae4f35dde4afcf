import Mathlib.Tactic.NthRewrite
import Mender.Proofs.Sql.Quotes
import Mender.Sql.Injection

/-!
# Where SQL literals stand in a query

`injections` gives the SQL literals of a query by the leaves they consist of. A query can hold one and the same leaf
twice, so proofs need to know more: an `Extent` tells at which places of the query a literal begins and ends.

* `extents_spec` — where a literal stands;
* `placed_extents` — they follow one another;
* `injections_exact` — these literals are found, and no others.
-/

namespace Mender.Sql

open List Leaf

variable (q : Leaf → Nat)

/-- Where an SQL literal stands: the places of the leaves in which it begins and ends. -/
structure Extent where
  start : Nat
  stop : Nat
  deriving DecidableEq, Repr

namespace Extent

/-- Is a place between those where a literal begins and ends? -/
def covers (e : Extent) (k : Nat) : Bool := e.start < k && k < e.stop

/-- The literal that stands at these places of a query. -/
def injection? (leaves : List Leaf) (e : Extent) : Option Injection :=
  match leaves[e.start]?, leaves[e.stop]? with
  | some start, some stop => some ⟨start, (leaves.take e.stop).drop (e.start + 1), stop⟩
  | _, _ => none

end Extent

variable {rest query later ls : List Leaf} {l start stop : Leaf} {parity i k : Nat} {e : Extent}

/-- The places of the literals that `injectionsFrom` finds in leaves from place `i` of a query on. -/
def extentsFrom (parity i : Nat) : List Leaf → List Extent
  | [] => []
  | start :: rest =>
    if ! start.opens parity then extentsFrom parity (i + 1) rest
    else
      let middle := rest.takeWhile (! ·.closes)
      match h : rest.drop middle.length with
      | [] => []
      | stop :: later =>
        let found := if middle.any (·.isInjectable) then [⟨i, i + 1 + middle.length⟩] else []
        found ++ if stop.opens 0 then extentsFrom 0 (i + 1 + middle.length) (stop :: later)
          else extentsFrom 1 (i + 1 + middle.length + 1) later
termination_by leaves => leaves.length
decreasing_by
  · simp
  all_goals
    have := congrArg length h
    simp only [length_drop, length_cons] at this ⊢
    omega

/-- The places of the SQL literals of a query with content that can be anything. -/
def extents (query : List Leaf) : List Extent := extentsFrom 1 0 query

lemma eq_append_takeWhile (h : rest.drop (rest.takeWhile (! ·.closes)).length = stop :: later) :
    rest = rest.takeWhile (! ·.closes) ++ stop :: later ∧ stop.closes = true := by
  have hsplit := takeWhile_append_dropWhile (p := fun l : Leaf => ! l.closes) (l := rest)
  have hdrop := congrArg (drop (rest.takeWhile (! ·.closes)).length) hsplit
  rw [drop_left, h] at hdrop
  have hhead := head?_dropWhile_not (! ·.closes) rest
  rw [hdrop] at hsplit hhead
  exact ⟨hsplit.symm, by simpa using hhead⟩

section

variable (before middle later : List Leaf) (start stop : Leaf)

lemma length_upTo : (before ++ start :: middle).length = before.length + 1 + middle.length := by
  rw [length_append, Nat.add_right_comm]
  rfl

lemma append_upTo : before ++ start :: (middle ++ stop :: later) = before ++ start :: middle ++ stop :: later := by simp

lemma getElem?_start : (before ++ start :: (middle ++ stop :: later))[before.length]? = some start := by
  simp

lemma getElem?_stop : (before ++ start :: (middle ++ stop :: later))[before.length + 1 + middle.length]? = some stop := by
  rw [append_upTo, ← length_upTo before middle start]
  simp

lemma take_drop_middle : ((before ++ start :: (middle ++ stop :: later)).take (before.length + 1 + middle.length)).drop
      (before.length + 1) = middle := by
  have hlist : before ++ start :: (middle ++ stop :: later) = (before ++ [start]) ++ (middle ++ stop :: later) := by
    simp
  have hlength : before.length + 1 = (before ++ [start]).length := by simp
  rw [hlist, hlength, take_length_add_append, drop_left, take_left]

lemma injection?_append : Extent.injection? (before ++ start :: (middle ++ stop :: later))
      ⟨before.length, before.length + 1 + middle.length⟩ = some ⟨start, middle, stop⟩ := by
  simp only [Extent.injection?, getElem?_start, getElem?_stop, take_drop_middle]

lemma mem_middle_iff : l ∈ middle ↔ ∃ k, (Extent.mk before.length (before.length + 1 + middle.length)).covers k = true ∧
      (before ++ start :: (middle ++ stop :: later))[k]? = some l := by
  have hmiddle : ∀ j < middle.length,
      middle[j]? = (before ++ start :: (middle ++ stop :: later))[before.length + 1 + j]? := by
    intro j hj
    nth_rewrite 1 [← take_drop_middle before middle later start stop]
    rw [List.getElem?_drop, List.getElem?_take_of_lt (by omega)]
  simp only [Extent.covers, Bool.and_eq_true, decide_eq_true_eq]
  constructor
  · intro hl
    obtain ⟨j, hj⟩ := List.mem_iff_getElem?.1 hl
    have hlt := (List.getElem?_eq_some_iff.1 hj).1
    exact ⟨before.length + 1 + j, by omega, by rw [← hmiddle j hlt, hj]⟩
  · rintro ⟨k, hk, hl⟩
    obtain ⟨j, rfl⟩ := Nat.exists_eq_add_of_le (by omega : before.length + 1 ≤ k)
    exact List.mem_of_getElem? ((hmiddle j (by omega)).trans hl)

end

lemma injectionsFrom_eq_extentsFrom (before rest : List Leaf) (hi : i = before.length) :
    (extentsFrom parity i rest).map (Extent.injection? (before ++ rest)) = (injectionsFrom parity rest).map some := by
  fun_induction extentsFrom parity i rest generalizing before with
  | case1 => rw [injectionsFrom, map_nil, map_nil]
  | case2 parity i start rest hopens ih =>
    rw [injectionsFrom, if_pos hopens]
    simpa using ih (before ++ [start]) (by simp [hi])
  | case3 parity i start rest hopens middle hrest =>
    rw [injectionsFrom, if_neg hopens]
    dsimp only
    split
    case h_1 => rfl
    case h_2 hlater => cases hrest.symm.trans hlater
  | case4 parity i start rest hopens middle stop later hrest found ih₀ ih₁ =>
    subst hi
    obtain ⟨hsplit, -⟩ := eq_append_takeWhile hrest
    have hleaves : before ++ start :: rest = before ++ start :: (middle ++ stop :: later) := by
      rw [← hsplit]
    generalize hextents : map _ (found ++ _) = list
    rw [injectionsFrom, if_neg hopens]
    dsimp only
    split
    case h_1 hnil => cases hrest.symm.trans hnil
    case h_2 stop' later' hlater =>
      cases hrest.symm.trans hlater
      rw [← hextents, hleaves, map_append, map_append]
      congr 1
      · have hfound := injection?_append before middle later start stop
        cases hany : middle.any (·.isInjectable) <;> simp [found, hany, hfound, middle] at hfound ⊢
      · split
        · have hnext := ih₀ (before ++ start :: middle) (length_upTo ..).symm
          rwa [← append_upTo] at hnext
        · have hnext := ih₁ (before ++ start :: middle ++ [stop]) (by rw [length_append, length_upTo]; rfl)
          rwa [append_assoc, singleton_append, ← append_upTo] at hnext

lemma injections_eq_extents (query : List Leaf) :
    (extents query).map (Extent.injection? query) = (injections query).map some :=
  injectionsFrom_eq_extentsFrom [] query rfl

/-! ## Which places they have -/

lemma exists_at {α : Type} {l : List α} (h : k < l.length) :
    ∃ front x back, l = front ++ x :: back ∧ front.length = k :=
  ⟨l.take k, l[k], l.drop (k + 1), by simp, by simp only [length_take]; omega⟩

lemma exists_split (h : e.start < e.stop ∧ e.stop < query.length) :
    ∃ before start middle stop later, query = before ++ start :: (middle ++ stop :: later) ∧
      e = ⟨before.length, before.length + 1 + middle.length⟩ := by
  obtain ⟨before, start, rest, rfl, hbefore⟩ := exists_at (l := query) (k := e.start) (by omega)
  have hrest : e.stop - e.start - 1 < rest.length := by
    have := h.2
    simp only [length_append, length_cons] at this
    omega
  obtain ⟨middle, stop, later, rfl, hmiddle⟩ := exists_at hrest
  refine ⟨before, start, middle, stop, later, rfl, ?_⟩
  obtain ⟨i, j⟩ := e
  simp only [Extent.mk.injEq] at hbefore hmiddle h ⊢
  omega

/-- How many quotes the leaves have together. -/
def quotesIn (leaves : List Leaf) : Nat := leaves.foldr (fun l n => q l + n) 0

lemma quotesIn_singleton : quotesIn q [l] = q l := rfl

@[simp] lemma quotesIn_append (ls ls' : List Leaf) : quotesIn q (ls ++ ls') = quotesIn q ls + quotesIn q ls' := by
  induction ls with
  | nil => exact (Nat.zero_add _).symm
  | cons l ls ih => exact (congrArg (q l + ·) ih).trans (Nat.add_assoc ..).symm

lemma quotesIn_eq_zero {q : Leaf → Nat} (h : ∀ l ∈ ls, q l = 0) : quotesIn q ls = 0 := by
  induction ls with
  | nil => rfl
  | cons l ls ih =>
    obtain ⟨hl, hls⟩ := forall_mem_cons.1 h
    rw [show quotesIn q (l :: ls) = q l + quotesIn q ls from rfl, hl, ih hls]

/-- Does an SQL literal with content that can be anything stand at these places, if `q` tells how many quotes a leaf has?
The quotes up to the place where it begins are odd in number, so the last one of them begins a literal. -/
structure Encloses (q : Leaf → Nat) (query : List Leaf) (e : Extent) : Prop where
  bounds : e.start < e.stop ∧ e.stop < query.length
  ends : ∀ k l, k = e.start ∨ k = e.stop → query[k]? = some l → 0 < q l
  inside : ∀ k l, e.covers k → query[k]? = some l → q l = 0
  opened : quotesIn q (query.take (e.start + 1)) % 2 = 1
  injectable : ∃ k l, e.covers k ∧ query[k]? = some l ∧ l.isInjectable = true

lemma Encloses.exists_end {q : Leaf → Nat} (h : Encloses q query e) (hk : k = e.start ∨ k = e.stop) :
    ∃ l, query[k]? = some l ∧ 0 < q l := by
  have hlength : k < query.length := by
    have := h.bounds
    omega
  exact ⟨_, getElem?_eq_getElem hlength, h.ends k _ hk (getElem?_eq_getElem hlength)⟩

lemma Extent.covers_iff : e.covers k = true ↔ e.start < k ∧ k < e.stop := by
  rw [covers, Bool.and_eq_true, decide_eq_true_eq, decide_eq_true_eq]

section

variable {before middle later : List Leaf} {start stop : Leaf}

lemma quotesIn_upTo (h : ∀ l ∈ middle, l.quoteCount = 0) :
    quotesIn quoteCount (before ++ start :: middle) = quotesIn quoteCount before + start.quoteCount := by
  rw [append_cons, quotesIn_append, quotesIn_append, quotesIn_eq_zero h, quotesIn_singleton, Nat.add_zero]

lemma take_start : (before ++ start :: rest).take (before.length + 1) = before ++ [start] := by
  rw [take_length_add_append]
  rfl

lemma encloses_iff (hstart : 0 < start.quoteCount) (hmiddle : ∀ l ∈ middle, l.quoteCount = 0)
    (hstop : 0 < stop.quoteCount) (hodd : (quotesIn quoteCount before + start.quoteCount) % 2 = 1) :
    before.length ≤ e.start ∧ Encloses quoteCount (before ++ start :: (middle ++ stop :: later)) e ↔
      (middle.any (·.isInjectable) = true ∧ e = ⟨before.length, before.length + 1 + middle.length⟩) ∨
        before.length + 1 + middle.length ≤ e.start ∧
          Encloses quoteCount (before ++ start :: (middle ++ stop :: later)) e := by
  have hinside {k : Nat} {l : Leaf} (hk : before.length < k ∧ k < before.length + 1 + middle.length)
      (hl : (before ++ start :: (middle ++ stop :: later))[k]? = some l) : l ∈ middle :=
    (mem_middle_iff before middle later start stop).2 ⟨k, Extent.covers_iff.2 hk, hl⟩
  constructor
  · rintro ⟨hle, h⟩
    have hends {k : Nat} (hk : k = e.start ∨ k = e.stop) (hlt : before.length < k) :
        before.length + 1 + middle.length ≤ k := by
      refine Nat.le_of_not_lt fun hgt => ?_
      obtain ⟨l, hl, hpos⟩ := h.exists_end hk
      rw [hmiddle l (hinside ⟨hlt, hgt⟩ hl)] at hpos
      cases hpos
    rcases Nat.eq_or_lt_of_le hle with heq | hlt
    · -- the literal ends where the next quote is
      have hstop' : e.stop = before.length + 1 + middle.length := by
        refine Nat.le_antisymm (Nat.le_of_not_lt fun hgt => ?_) (hends (.inr rfl) (heq ▸ h.bounds.1))
        have := h.inside _ _ (Extent.covers_iff.2 ⟨by omega, hgt⟩) (getElem?_stop before middle later start stop)
        omega
      obtain rfl : e = ⟨before.length, before.length + 1 + middle.length⟩ := by rw [← hstop', heq]
      obtain ⟨k, l, hk, hl, hinjectable⟩ := h.injectable
      exact .inl ⟨any_eq_true.2 ⟨l, (mem_middle_iff ..).2 ⟨k, hk, hl⟩, hinjectable⟩, rfl⟩
    · exact .inr ⟨hends (.inl rfl) hlt, h⟩
  · rintro (⟨hany, rfl⟩ | ⟨hle, h⟩)
    · obtain ⟨l, hl, hinjectable⟩ := any_eq_true.1 hany
      obtain ⟨k, hk, hlk⟩ := (mem_middle_iff before middle later start stop).1 hl
      refine ⟨Nat.le_refl _, ⟨by simp only [length_append, length_cons]; omega, ?_, ?_, ?_, k, l, hk, hlk, hinjectable⟩⟩
      · rintro k l (rfl | rfl) hl
        · rw [getElem?_start] at hl
          cases hl
          exact hstart
        · rw [getElem?_stop] at hl
          cases hl
          exact hstop
      · exact fun k l hk hl => hmiddle l ((mem_middle_iff ..).2 ⟨k, hk, hl⟩)
      · rw [take_start, quotesIn_append]
        exact hodd
    · exact ⟨by omega, h⟩

/-- No literal begins in a leaf behind which the quotes are even in number. -/
lemma encloses_next (heven : (quotesIn quoteCount before + start.quoteCount) % 2 = 0) :
    before.length ≤ e.start ∧ Encloses quoteCount (before ++ start :: rest) e ↔
      before.length + [start].length ≤ e.start ∧ Encloses quoteCount (before ++ [start] ++ rest) e := by
  rw [append_assoc]
  refine and_congr_left fun h => ⟨fun hle => Nat.lt_of_le_of_ne hle fun heq => ?_, Nat.le_of_succ_le⟩
  have hopened := h.opened
  rw [← heq, take_start, quotesIn_append, quotesIn_singleton] at hopened
  omega

end

lemma Leaf.opens_iff (h : parity = 1 ∨ l.closes = true) : l.opens parity = true ↔ l.quoteCount % 2 = parity := by
  have htext : l.quoteCount ≠ 0 → l.isText = true := by
    rw [quoteCount]
    split
    · split
      · exact fun _ => ‹_›
      · exact fun hne => absurd rfl hne
    · exact fun hne => absurd rfl hne
  rw [opens, Bool.and_eq_true, beq_iff_eq, and_iff_right_iff_imp]
  intro hmod
  refine htext fun hzero => ?_
  rcases h with rfl | h
  · rw [hzero] at hmod
    cases hmod
  · exact bne_iff_ne.1 h hzero

/-- The literals from a place on are those of the whole query that begin there or later. A literal that begins in a leaf
with an even number of quotes begins with the last one of them, the first one having ended another. -/
lemma extentsFrom_spec (before rest : List Leaf) (hi : i = before.length) (hodd : (quotesIn quoteCount before + parity) % 2 = 1)
    (hparity : parity = 1 ∨ ∃ l later, rest = l :: later ∧ l.opens parity = true ∧ l.closes = true) :
    (extentsFrom parity i rest).Pairwise (fun e e' => e.start < e'.start) ∧
      ∀ e, e ∈ extentsFrom parity i rest ↔ before.length ≤ e.start ∧ Encloses quoteCount (before ++ rest) e := by
  fun_induction extentsFrom parity i rest generalizing before with
  | case1 =>
    refine ⟨.nil, fun e => ⟨nofun, fun h => ?_⟩⟩
    have := h.2.bounds
    rw [append_nil] at this
    omega
  | case2 parity i start rest hopens ih =>
    obtain rfl : parity = 1 := by
      rcases hparity with rfl | ⟨l, later, heq, hl, -⟩
      · rfl
      · cases heq
        simp [hl] at hopens
    have heven : ¬ start.quoteCount % 2 = 1 := by
      rw [← opens_iff (.inl rfl)]
      simpa using hopens
    obtain ⟨hpairwise, hmem⟩ := ih (before ++ [start]) (by simp [hi]) (by rw [quotesIn_append, quotesIn_singleton]; omega)
      (.inl rfl)
    rw [length_append] at hmem
    exact ⟨hpairwise, fun e => (hmem e).trans (encloses_next (by omega)).symm⟩
  | case3 parity i start rest hopens middle hrest =>
    refine ⟨.nil, fun e => ⟨nofun, fun ⟨hle, h⟩ => ?_⟩⟩
    obtain ⟨l, hl, hpos⟩ := h.exists_end (.inr rfl)
    have hafter : before.length + 1 ≤ e.stop := Nat.lt_of_le_of_lt hle h.bounds.1
    rw [append_cons, getElem?_append_right (by simpa using hafter)] at hl
    have hall := ( takeWhile_prefix fun l : Leaf => ! l.closes).eq_of_length_le (drop_eq_nil_iff.1 hrest)
    have hnot := all_eq_true.1 all_takeWhile _ (hall ▸ mem_of_getElem? hl)
    simp only [closes, Bool.not_eq_true', bne_eq_false_iff_eq] at hnot
    omega
  | case4 parity i start rest hopens middle stop later hrest found ih₀ ih₁ =>
    subst hi
    obtain ⟨hsplit, hcloses⟩ := eq_append_takeWhile hrest
    have hstop : 0 < stop.quoteCount := Nat.pos_of_ne_zero (bne_iff_ne.1 hcloses)
    have hmiddle : ∀ l ∈ middle, l.quoteCount = 0 := by
      intro l hl
      have := all_eq_true.1 all_takeWhile l hl
      simpa [closes] using this
    have hstart : 0 < start.quoteCount ∧ start.quoteCount % 2 = parity := by
      rcases hparity with rfl | ⟨l, later', heq, -, hl⟩
      · have := (opens_iff (.inl rfl)).1 (by simpa using hopens)
        omega
      · cases heq
        exact ⟨Nat.pos_of_ne_zero (bne_iff_ne.1 hl), (opens_iff (.inr hl)).1 (by simpa using hopens)⟩
    have hodd' : (quotesIn quoteCount before + start.quoteCount) % 2 = 1 := by omega
    have hleaves : before ++ start :: rest = before ++ start :: (middle ++ stop :: later) := by rw [← hsplit]
    rw [hleaves]
    generalize hnext : ite (stop.opens 0 = true) _ _ = next
    have hlater : next.Pairwise (fun e e' => e.start < e'.start) ∧ ∀ e, e ∈ next ↔
        before.length + 1 + middle.length ≤ e.start ∧
          Encloses quoteCount (before ++ start :: (middle ++ stop :: later)) e := by
      have hlength := length_upTo before middle start
      have hquotes : quotesIn quoteCount (before ++ start :: middle) = _ := quotesIn_upTo hmiddle
      subst hnext
      rw [append_upTo]
      split
      case isTrue hagain =>
        have hnext := ih₀ _ hlength.symm (by rw [hquotes]; exact hodd') (.inr ⟨stop, later, rfl, hagain, hcloses⟩)
        rwa [hlength] at hnext
      case isFalse hagain =>
        rw [opens_iff (.inr hcloses)] at hagain
        obtain ⟨hpairwise, hmem⟩ := ih₁ (before ++ start :: middle ++ [stop]) (by rw [length_append, hlength]; rfl)
          (by rw [quotesIn_append, quotesIn_singleton]; omega) (.inl rfl)
        rw [length_append, hlength] at hmem
        refine ⟨hpairwise, fun e => (hmem e).trans ?_⟩
        have heven : (quotesIn quoteCount (before ++ start :: middle) + stop.quoteCount) % 2 = 0 := by
          omega
        rw [← hlength]
        exact (encloses_next heven).symm
    obtain ⟨hpairwise, hmem⟩ := hlater
    dsimp only [found]
    refine ⟨?_, fun e => ?_⟩
    · split
      · exact pairwise_cons.2 ⟨fun e he => by have := ((hmem e).1 he).1; dsimp only; omega, hpairwise⟩
      · exact hpairwise
    · rw [encloses_iff hstart.1 hmiddle hstop hodd', mem_append, hmem e]
      refine or_congr_left ?_
      split
      case isTrue hany => exact mem_singleton.trans (and_iff_right hany).symm
      case isFalse hany => exact ⟨nofun, fun h => absurd h.1 hany⟩

/-- The quotes of a leaf by the patterns for them: none in bytes and in what is no text. -/
def Leaf.matchCount (l : Leaf) : Nat :=
  match l.text with
  | some (mark, raw) => if mark.toList.contains 'b' then 0 else Sql.matchCount (isRaw mark) [] raw
  | none => 0

lemma Leaf.quoteCount_eq : l.quoteCount = l.matchCount := by
  rw [quoteCount, matchCount, isText]
  cases l.text with
  | none => rfl
  | some text =>
    dsimp only
    rw [length_quoteSpans]
    by_cases hbytes : text.1.toList.contains 'b' = true
    · rw [if_pos hbytes, if_neg (by simpa using hbytes)]
    · rw [if_neg hbytes, if_pos (by simpa using hbytes)]

lemma extents_spec (query : List Leaf) : (extents query).Pairwise (fun e e' => e.start < e'.start) ∧
      ∀ e, e ∈ extents query ↔ Encloses quoteCount query e := by
  obtain ⟨hpairwise, hmem⟩ := extentsFrom_spec [] query rfl rfl (.inl rfl)
  exact ⟨hpairwise, fun e => (hmem e).trans (and_iff_right (Nat.zero_le _))⟩

/-! ## How they lie to each other -/

structure Placed (query : List Leaf) (es : List Extent) : Prop where
  /-- every literal begins in one leaf and ends in a later one -/
  bounds : ∀ e ∈ es, e.start < e.stop ∧ e.stop < query.length
  /-- no literal begins before the one in front of it has ended -/
  apart : es.Pairwise fun e e' => e.stop ≤ e'.start
  ends : ∀ e ∈ es, ∀ k l, k = e.start ∨ k = e.stop → query[k]? = some l → 0 < l.quoteCount
  inside : ∀ e ∈ es, ∀ k l, e.covers k → query[k]? = some l → l.quoteCount = 0
  /-- a leaf in which one literal ends and another begins has a quote for each -/
  shared : ∀ e ∈ es, ∀ e' ∈ es, e.stop = e'.start → ∀ l, query[e.stop]? = some l → 2 ≤ l.quoteCount

lemma Placed.tail {es : List Extent} (h : Placed query (e :: es)) : Placed query es where
  bounds e' he' := h.bounds e' (.tail _ he')
  apart := h.apart.tail
  ends e' he' := h.ends e' (.tail _ he')
  inside e' he' := h.inside e' (.tail _ he')
  shared e₁ he₁ e₂ he₂ := h.shared e₁ (.tail _ he₁) e₂ (.tail _ he₂)

lemma placed_extents (query : List Leaf) : Placed query (extents query) := by
  obtain ⟨hpairwise, hmem⟩ := extents_spec query
  refine ⟨fun e he => ((hmem e).1 he).bounds, hpairwise.imp_of_mem fun {e e'} he he' hlt => ?_,
    fun e he => ((hmem e).1 he).ends, fun e he => ((hmem e).1 he).inside, fun e he e' he' heq l hl => ?_⟩
  · refine Nat.le_of_not_lt fun hgt => ?_
    obtain ⟨l, hl, hpos⟩ := ((hmem e').1 he').exists_end (.inl rfl)
    rw [((hmem e).1 he).inside _ l (Extent.covers_iff.2 ⟨hlt, hgt⟩) hl] at hpos
    cases hpos
  · -- both literals begin with a quote of odd number, and there are none between these leaves
    have h := (hmem e).1 he
    have hopened' := ((hmem e').1 he').opened
    have hpos := h.ends _ _ (.inr rfl) hl
    obtain ⟨before, start, middle, stop, later, hquery, rfl⟩ := exists_split h.bounds
    subst hquery
    obtain rfl : l = stop := Option.some.inj (hl.symm.trans (getElem?_stop ..))
    have hmiddle : ∀ l' ∈ middle, l'.quoteCount = 0 := by
      intro l' hl'
      obtain ⟨k, hk, hlk⟩ := (mem_middle_iff before middle later start l).1 hl'
      exact h.inside k l' hk hlk
    have hopened := h.opened
    rw [take_start, quotesIn_append, quotesIn_singleton] at hopened
    rw [← heq, append_upTo, ← length_upTo, take_start, quotesIn_append, quotesIn_upTo hmiddle, quotesIn_singleton] at hopened'
    omega

/-! ## Literals and their leaves -/

lemma mem_injections {i : Injection} : i ∈ injections query ↔ ∃ e ∈ extents query, e.injection? query = some i := by
  have h : some i ∈ (injections query).map some ↔ some i ∈ (extents query).map (·.injection? query) := by
    rw [← injections_eq_extents]
  simpa using h

lemma exists_injection (h : e ∈ extents query) :
    ∃ start middle stop, e.injection? query = some ⟨start, middle, stop⟩ ∧ query[e.start]? = some start ∧
      query[e.stop]? = some stop ∧ ∀ l, l ∈ middle ↔ ∃ k, e.covers k = true ∧ query[k]? = some l := by
  obtain ⟨before, start, middle, stop, later, hquery, rfl⟩ := exists_split ((placed_extents query).bounds e h)
  subst hquery
  exact ⟨start, middle, stop, injection?_append .., getElem?_start .., getElem?_stop .., fun l => mem_middle_iff ..⟩

lemma mem_of_mem_injections {i : Injection} (hi : i ∈ injections query) :
    i.start ∈ query ∧ (∀ l ∈ i.middle, l ∈ query) ∧ i.stop ∈ query := by
  obtain ⟨e, he, hie⟩ := mem_injections.1 hi
  obtain ⟨start, middle, stop, hinj, hstart, hstop, hmiddle⟩ := exists_injection he
  cases hinj.symm.trans hie
  refine ⟨mem_of_getElem? hstart, fun l hl => ?_, mem_of_getElem? hstop⟩
  obtain ⟨k, -, hk⟩ := (hmiddle l).1 hl
  exact mem_of_getElem? hk

/-- **The SQL literals of a query.** What `injections` finds are, in the order of the query, the literals that begin in
one leaf and end in a later one, both of them with quotes and all between them without, if the number of quotes up to the
leaf where it begins is odd and if some leaf between can be anything. -/
theorem injections_exact (query : List Leaf) :
    ∃ es : List Extent, (injections query).map some = es.map (·.injection? query) ∧
      es.Pairwise (fun e e' => e.start < e'.start) ∧ ∀ e, e ∈ es ↔ Encloses Leaf.matchCount query e := by
  have hcount : Leaf.quoteCount = Leaf.matchCount := funext fun _ => Leaf.quoteCount_eq
  exact ⟨extents query, (injections_eq_extents query).symm, hcount ▸ extents_spec query⟩

end Mender.Sql
