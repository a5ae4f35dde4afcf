import Mathlib.Algebra.GroupWithZero.Nat
import Mathlib.Algebra.Order.BigOperators.Group.List
import Mathlib.Algebra.Order.Group.Nat
import Mender.Proofs.Lists
import Mender.Proofs.Sql.Rework

/-!
# Queries get their values as parameters

Cutting SQL literals out of a query is meant to lose and invent nothing: the query says what it said before, with a
question mark in the place of each literal, and what the literals held is handed over in the same order. A query can
hold one node at several places, though: `a = b = value` makes both `a` and `b` stand for the same nodes. A cut is then
made for one place and shows at all of them.

* `faithful_iff_unshared` — when the new query reads as it should.
-/

namespace Mender.Codemod

open Syntax Scope Sql List

variable (query : List Leaf) {α : Type}

/-- Is it the mark for a parameter? -/
def isMark : Item → Bool
  | .char c => c == '?'
  | .value _ => false

/-- The query says what it said before with a question mark for each SQL literal, and the content of the literals is
handed over. -/
structure Faithful (f : Facts) (query : List Leaf) (w : Rework) (handed : List (List Node)) : Prop where
  /-- each literal, quotes and all, is a question mark now, and nothing else has changed -/
  reads : query.flatMap (fun l => w.readingOf l.node) = splice (reading query) ((extents query).map (·.outer query))
  /-- there is one more question mark for each literal, the literals' own ones not counted -/
  marks : (query.flatMap fun l => w.readingOf l.node).countP isMark +
      ((extents query).flatMap fun e => between (reading query) (e.outer query)).countP isMark =
    (reading query).countP isMark + (injections query).length
  elements : (((parameterArg (handed.map (parameter f))).get .value).list .elements).length = (injections query).length
  content : handed.map (·.flatMap readingOf) = (extents query).map fun e => between (reading query) (e.inner query)

/-- If one node stands at two places, then no literal begins or ends at them, and if one of them lies inside a literal,
then so does the other, or it says nothing. -/
def Unshared : Prop :=
  ∀ k k' l l', query[k]? = some l → query[k']? = some l' → k ≠ k' → l.node.mark = l'.node.mark →
    (∀ e ∈ extents query, k ≠ e.start ∧ k ≠ e.stop) ∧ ((∃ e ∈ extents query, e.covers k = true) →
        (∃ e ∈ extents query, e.covers k' = true) ∨ readingOf l'.node = [])

/-! ## What a query weighs -/

def weightOf (items : List Item) : Nat :=
  (items.map fun
    | .char c => weight [c]
    | .value _ => 1).sum

lemma weightOf_append (items items' : List Item) : weightOf (items ++ items') = weightOf items + weightOf items' := by
  simp [weightOf]

lemma weightOf_chars (cs : List Char) : weightOf (cs.map .char) = weight cs := by
  induction cs with
  | nil => rfl
  | cons c cs ih =>
    have hsplit : weight (c :: cs) = weight [c] + weight cs := weight_append [c] cs
    rw [hsplit, ← ih]
    rfl

lemma eq_nil_of_weightOf {items : List Item} (h : weightOf items = 0) : items = [] := by
  have hle : (items.map _).length ≤ weightOf items := length_le_sum_of_one_le _ (forall_mem_map.2 fun i _ => by
    cases i with
    | char c => exact Nat.le_add_right 1 _
    | value n => exact Nat.le_refl 1)
  rw [h, length_map] at hle
  exact length_eq_zero_iff.1 (Nat.le_zero.1 hle)

/-- More cuts leave less of a leaf, and they leave as much only if they are no more. -/
lemma weightOf_rest_le {l : Leaf} (hread : l.IsRead) {gone gone' : Bool} {a a' b b' : Nat}
    (hgone : gone = true → gone' = true) (ha : a ≤ a') (hb : b ≤ b') (hle : a' + b' ≤ l.quoteCount)
    (hgone' : gone' = true → a' = 0 ∧ b' = 0) :
    weightOf (l.rest gone' a' b') ≤ weightOf (l.rest gone a b) ∧
      (weightOf (l.rest gone' a' b') = weightOf (l.rest gone a b) →
        a = a' ∧ b = b' ∧ (gone' = true → gone = true ∨ readingOf l.node = [])) := by
  cases gone' with
  | true =>
    obtain ⟨rfl, rfl⟩ := hgone' rfl
    obtain rfl : a = 0 := Nat.le_zero.1 ha
    obtain rfl : b = 0 := Nat.le_zero.1 hb
    refine ⟨Nat.zero_le _, fun heq => ⟨rfl, rfl, fun _ => ?_⟩⟩
    cases gone with
    | true => exact .inl rfl
    | false => exact .inr (eq_nil_of_weightOf heq.symm)
  | false =>
    obtain rfl : gone = false := by
      cases gone with
      | true => cases hgone rfl
      | false => rfl
    rcases Nat.eq_zero_or_pos l.quoteCount with hzero | hpos
    · obtain ⟨rfl, rfl, rfl, rfl⟩ : a = 0 ∧ a' = 0 ∧ b = 0 ∧ b' = 0 := by omega
      exact ⟨Nat.le_refl _, fun _ => ⟨rfl, rfl, fun hfalse => absurd hfalse Bool.false_ne_true⟩⟩
    · obtain ⟨mark, raw, -, hpieces⟩ := Leaf.exists_text hpos
      have hexact : Exact (Leaf.isRaw mark) false l.pieces := hpieces ▸ exact_quoted raw
      obtain ⟨x, rfl⟩ := Nat.exists_eq_add_of_le ha
      obtain ⟨y, rfl⟩ := Nat.exists_eq_add_of_le hb
      rw [← Leaf.count_pieces] at hle
      have hweight := weight_cut_add hexact hle
      rw [hread.rest_eq hpos, hread.rest_eq hpos, weightOf_chars, weightOf_chars]
      exact ⟨by omega, fun heq => ⟨by omega, by omega, fun hfalse => absurd hfalse Bool.false_ne_true⟩⟩

lemma weightOf_flatMap (xs : List α) (g : α → List Item) :
    weightOf (xs.flatMap g) = (xs.map fun x => weightOf (g x)).sum := by
  induction xs with
  | nil => rfl
  | cons x xs ih => rw [flatMap_cons, weightOf_append, ih, map_cons, sum_cons]

lemma weightOf_eq_of_flatMap {xs : List α} {g g' : α → List Item}
    (hle : ∀ x ∈ xs, weightOf (g x) ≤ weightOf (g' x)) (heq : xs.flatMap g = xs.flatMap g') :
    ∀ x ∈ xs, weightOf (g x) = weightOf (g' x) := by
  have hsum := congrArg weightOf heq
  rw [weightOf_flatMap, weightOf_flatMap] at hsum
  clear heq
  induction xs with
  | nil => exact nofun
  | cons x xs ih =>
    obtain ⟨hx, hxs⟩ := forall_mem_cons.1 hle
    have hrest : (xs.map fun x => weightOf (g x)).sum ≤ (xs.map fun x => weightOf (g' x)).sum := sum_le_sum hxs
    simp only [map_cons, sum_cons] at hsum
    exact forall_mem_cons.2 ⟨by omega, ih hxs (by omega)⟩

/-! ## Deeds by places -/

/-- The mark of the leaf at a place. -/
def markAt (k : Nat) : Option Nat := query[k]?.map markOf

lemma count_deeds (is : List Injection) (m : Nat) : (is.flatMap deedsOf).count (.back m) = is.countP (markOf ·.start == m) ∧
      (is.flatMap deedsOf).count (.front m) = is.countP (markOf ·.stop == m) := by
  induction is with
  | nil => exact ⟨rfl, rfl⟩
  | cons i is ih =>
    have hback : (i.middle.map fun l => Deed.out (markOf l)).count (.back m) = 0 := by simp [count_eq_zero]
    have hfront : (i.middle.map fun l => Deed.out (markOf l)).count (.front m) = 0 := by simp [count_eq_zero]
    simp only [flatMap_cons, count_append, ih.1, ih.2, countP_cons, deedsOf, hback, hfront]
    simp [count_cons, Nat.add_comm]

lemma out_mem_deeds (is : List Injection) (m : Nat) :
    .out m ∈ is.flatMap deedsOf ↔ ∃ i ∈ is, ∃ l ∈ i.middle, markOf l = m := by
  simp [mem_flatMap, deedsOf]

lemma countP_injections (p : Injection → Bool) :
    (injections query).countP p = (extents query).countP fun e => (e.injection? query).any p := by
  have h : (injections query).countP p = ((injections query).map some).countP fun o => o.any p := by
    rw [countP_map]
    rfl
  rw [h, ← injections_eq_extents, countP_map]
  rfl

lemma isLiteralOf_of_mem {f : Facts} {query : List Node} (hknown : ∀ n ∈ query, Known f n) {i : Injection}
    (hi : i ∈ injections (query.map (leaf f))) : IsLiteralOf f i := by
  obtain ⟨e, he, hie⟩ := mem_injections.1 hi
  obtain ⟨start, middle, stop, hinj, hstart, hstop, hmiddle⟩ := exists_injection he
  cases hinj.symm.trans hie
  have hleaf : ∀ (k : Nat) l, (query.map (leaf f))[k]? = some l → ∃ n, Known f n ∧ l = leaf f n := by
    intro k l hl
    obtain ⟨n, hn, rfl⟩ := mem_map.1 (mem_of_getElem? hl)
    exact ⟨n, hknown n hn, rfl⟩
  have hplaced := placed_extents (query.map (leaf f))
  refine ⟨?_, fun l hl => ?_, ?_⟩
  · obtain ⟨n, hn, heq⟩ := hleaf _ _ hstart
    exact ⟨n, hn, heq, hplaced.ends e he _ _ (.inl rfl) hstart⟩
  · obtain ⟨k, hk, hlk⟩ := (hmiddle l).1 hl
    obtain ⟨n, hn, heq⟩ := hleaf _ _ hlk
    exact ⟨n, hn, heq, hplaced.inside e he k l hk hlk⟩
  · obtain ⟨n, hn, heq⟩ := hleaf _ _ hstop
    exact ⟨n, hn, heq, hplaced.ends e he _ _ (.inr rfl) hstop⟩

lemma deeds_eq (m : Nat) : (.out m ∈ (injections query).flatMap deedsOf ↔
        ∃ e ∈ extents query, ∃ k, e.covers k = true ∧ markAt query k = some m) ∧
      ((injections query).flatMap deedsOf).count (.front m) = (extents query).countP (markAt query ·.stop == some m) ∧
      ((injections query).flatMap deedsOf).count (.back m) =
        (extents query).countP (markAt query ·.start == some m) := by
  refine ⟨?_, ?_, ?_⟩
  · rw [out_mem_deeds]
    constructor
    · rintro ⟨i, hi, l, hl, rfl⟩
      obtain ⟨e, he, hie⟩ := mem_injections.1 hi
      obtain ⟨start, middle, stop, hinj, -, -, hmiddle⟩ := exists_injection he
      cases hinj.symm.trans hie
      obtain ⟨k, hk, hlk⟩ := (hmiddle l).1 hl
      exact ⟨e, he, k, hk, by rw [markAt, hlk]; rfl⟩
    · rintro ⟨e, he, k, hk, hm⟩
      obtain ⟨start, middle, stop, hinj, -, -, hmiddle⟩ := exists_injection he
      obtain ⟨l, hl, rfl⟩ := Option.map_eq_some_iff.1 hm
      exact ⟨_, mem_injections.2 ⟨e, he, hinj⟩, l, (hmiddle l).2 ⟨k, hk, hl⟩, rfl⟩
  · rw [(count_deeds _ _).2, countP_injections]
    refine countP_congr fun e he => ?_
    obtain ⟨start, middle, stop, hinj, -, hstop, -⟩ := exists_injection he
    simp [hinj, markAt, hstop]
  · rw [(count_deeds _ _).1, countP_injections]
    refine countP_congr fun e he => ?_
    obtain ⟨start, middle, stop, hinj, hstart, -, -⟩ := exists_injection he
    simp [hinj, markAt, hstart]

section

variable {f : Facts} {query : List Node} (hknown : ∀ n ∈ query, Known f n) {w : Rework} {l l' : Leaf} {k : Nat}
include hknown

lemma markOf_eq_iff (hl : l ∈ query.map (leaf f)) (hl' : l' ∈ query.map (leaf f)) :
    markOf l = markOf l' ↔ l.node.mark = l'.node.mark := by
  obtain ⟨n, hn, rfl⟩ := mem_map.1 hl
  obtain ⟨n', hn', rfl⟩ := mem_map.1 hl'
  have hmark : (leaf f n).node.mark = some (markOf (leaf f n)) := (hknown n hn).mark_eq
  have hmark' : (leaf f n').node.mark = some (markOf (leaf f n')) := (hknown n' hn').mark_eq
  rw [hmark, hmark', Option.some.injEq]

def IsOwn (query : List Leaf) (k : Nat) (l : Leaf) : Prop :=
  (∀ place ∈ [Extent.start, Extent.stop],
    (extents query).countP (place · == k) = (extents query).countP fun e => markAt query (place e) == some (markOf l)) ∧
    ((∃ e ∈ extents query, ∃ k', e.covers k' = true ∧ markAt query k' = some (markOf l)) →
      (extents query).any (·.covers k) = true ∨ readingOf l.node = [])

lemma isOwn_of_unshared (h : Unshared (query.map (leaf f)))
    (hl : (query.map (leaf f))[k]? = some l) : IsOwn (query.map (leaf f)) k l := by
  -- a place with the same mark that is not this one
  have hother : ∀ k', markAt (query.map (leaf f)) k' = some (markOf l) → k' ≠ k →
      (∀ e ∈ extents (query.map (leaf f)), k' ≠ e.start ∧ k' ≠ e.stop) ∧
        ((∃ e ∈ extents (query.map (leaf f)), e.covers k' = true) →
          (∃ e ∈ extents (query.map (leaf f)), e.covers k = true) ∨ readingOf l.node = []) := by
    intro k' hk' hne
    obtain ⟨l', hl', hmark⟩ := Option.map_eq_some_iff.1 hk'
    exact h k' k l' l hl' hl hne
      ((markOf_eq_iff hknown (mem_of_getElem? hl') (mem_of_getElem? hl)).1 hmark)
  have hself : markAt (query.map (leaf f)) k = some (markOf l) := by rw [markAt, hl]; rfl
  refine ⟨fun place hplace => countP_congr fun e he => ?_, ?_⟩
  · rw [beq_iff_eq, beq_iff_eq]
    refine ⟨fun heq => heq ▸ hself, fun hmark => ?_⟩
    by_contra hne
    obtain ⟨hstart, hstop⟩ := (hother _ hmark hne).1 e he
    rcases mem_pair.1 hplace with rfl | rfl
    · exact hstart rfl
    · exact hstop rfl
  · rintro ⟨e, he, k', hk', hmark⟩
    by_cases hne : k' = k
    · exact .inl (any_eq_true.2 ⟨e, he, hne ▸ hk'⟩)
    · rcases (hother k' hmark hne).2 ⟨e, he, hk'⟩ with ⟨e', he', hcovers⟩ | hnil
      · exact .inl (any_eq_true.2 ⟨e', he', hcovers⟩)
      · exact .inr hnil

lemma unshared_of_isOwn (h : ∀ (k : Nat) l, (query.map (leaf f))[k]? = some l → IsOwn (query.map (leaf f)) k l) :
    Unshared (query.map (leaf f)) := by
  intro k k' l l' hl hl' hne hmark
  have hself : markAt (query.map (leaf f)) k = some (markOf l') := by
    rw [markAt, hl, Option.map_some, (markOf_eq_iff hknown (mem_of_getElem? hl) (mem_of_getElem? hl')).2 hmark]
  have hself' : markAt (query.map (leaf f)) k' = some (markOf l') := by rw [markAt, hl']; rfl
  obtain ⟨hcount, hout⟩ := h k' l' hl'
  have hplace (place : Extent → Nat) (hmem : place ∈ [Extent.start, Extent.stop]) :
      ∀ e ∈ extents (query.map (leaf f)), k ≠ place e := by
    rintro e he rfl
    have := of_countP_eq (fun e' _ heq => ?_) (hcount place hmem) e he (beq_iff_eq.2 hself)
    · exact hne (beq_iff_eq.1 this)
    · rw [beq_iff_eq] at heq ⊢
      exact heq ▸ hself'
  refine ⟨fun e he => ⟨hplace _ (by simp) e he, hplace _ (by simp) e he⟩, ?_⟩
  · rintro ⟨e, he, hcovers⟩
    rcases hout ⟨e, he, k, hcovers, hself⟩ with hany | hnil
    · obtain ⟨e', he', hcovers'⟩ := any_eq_true.1 hany
      exact .inl ⟨e', he', hcovers'⟩
    · exact .inr hnil

section

variable (hstate : Reworked f ((injections (query.map (leaf f))).flatMap deedsOf) w)
include hstate

/-- What a place says after the rework, against what it should say: it never says more, and it says the same just if
all that was done to its leaf was done for this place. -/
lemma rest_eq_restAt_iff (hl : (query.map (leaf f))[k]? = some l) :
    weightOf (w.readingOf l.node) ≤ weightOf (restAt (extents (query.map (leaf f))) l k) ∧
      (weightOf (w.readingOf l.node) = weightOf (restAt (extents (query.map (leaf f))) l k) →
        IsOwn (query.map (leaf f)) k l) ∧
      (IsOwn (query.map (leaf f)) k l → w.readingOf l.node = restAt (extents (query.map (leaf f))) l k) := by
  have hself : markAt (query.map (leaf f)) k = some (markOf l) := by rw [markAt, hl]; rfl
  obtain ⟨n, hn, rfl⟩ := mem_map.1 (mem_of_getElem? hl)
  have hleaf := hstate n _ (hknown n hn) (hknown n hn).mark_eq
  have hread := hleaf.readingOf_eq
  have hle := hleaf.count_le
  have hzero := hleaf.count_eq_zero
  obtain ⟨hout, hfront, hback⟩ := deeds_eq (query.map (leaf f)) (markOf (leaf f n))
  have hcovers : (extents (query.map (leaf f))).any (·.covers k) = true →
      .out (markOf (leaf f n)) ∈ (injections (query.map (leaf f))).flatMap deedsOf := by
    intro hany
    obtain ⟨e, he, hk⟩ := any_eq_true.1 hany
    exact hout.2 ⟨e, he, k, hk, hself⟩
  have hcount (place : Extent → Nat) : (extents (query.map (leaf f))).countP (place · == k) ≤
      (extents (query.map (leaf f))).countP fun e => markAt (query.map (leaf f)) (place e) == some (markOf (leaf f n)) :=
    countP_mono_left fun e _ heq => beq_iff_eq.2 (beq_iff_eq.1 heq ▸ hself)
  rw [hfront, hback] at hread hle hzero
  have hnode : w.readingOf (leaf f n).node = w.readingOf n := rfl
  obtain ⟨hweight, hequal⟩ := weightOf_rest_le (isRead_leaf f n) (fun h => decide_eq_true (hcovers h)) (hcount _) (hcount _) hle
    (fun h => hzero (of_decide_eq_true h))
  rw [← hread] at hweight hequal
  refine ⟨hweight, fun heq => ?_, fun hown => ?_⟩
  · obtain ⟨ha, hb, hgone⟩ := hequal heq
    exact ⟨forall_mem_cons.2 ⟨hb, forall_mem_singleton.2 ha⟩, fun hmem => hgone (decide_eq_true (hout.2 hmem))⟩
  · obtain ⟨hown, hgone⟩ := hown
    rw [hnode, hread, restAt, hown Extent.start (by simp), hown Extent.stop (by simp)]
    by_cases hmem : .out (markOf (leaf f n)) ∈ (injections (query.map (leaf f))).flatMap deedsOf
    · obtain ⟨hnoFront, hnoBack⟩ := hzero hmem
      rw [hnoFront, hnoBack, decide_eq_true hmem, Leaf.rest_gone]
      rcases hgone (hout.1 hmem) with hany | hnil
      · rw [hany, Leaf.rest_gone]
      · cases (extents (query.map (leaf f))).any (·.covers k) with
        | true => rfl
        | false => exact hnil.symm
    · have hany : (extents (query.map (leaf f))).any (·.covers k) = false :=
        Bool.eq_false_iff.2 fun h => hmem (hcovers h)
      rw [hany, decide_eq_false hmem]

/-- When all cuts succeed, the query says what it should just if it is unshared. -/
lemma reads_iff_unshared : (query.map (leaf f)).flatMap (fun l => w.readingOf l.node) =
        splice (reading (query.map (leaf f))) ((extents (query.map (leaf f))).map (·.outer (query.map (leaf f)))) ↔
      Unshared (query.map (leaf f)) := by
  have hread : ∀ l ∈ query.map (leaf f), l.IsRead := by
    intro l hl
    obtain ⟨n, -, rfl⟩ := mem_map.1 hl
    exact isRead_leaf f n
  rw [splice_eq (placed_extents _) hread, ← flatMap_zipIdx _ 0 fun l => w.readingOf l.node, restOf]
  constructor
  · intro heq
    have hweights := weightOf_eq_of_flatMap
      (fun x hx => (rest_eq_restAt_iff hknown hstate (mem_zipIdx_iff_getElem?.1 hx)).1) heq
    refine unshared_of_isOwn hknown fun k l hl => ?_
    exact (rest_eq_restAt_iff hknown hstate hl).2.1 (hweights (l, k) (mem_zipIdx_iff_getElem?.2 hl))
  · intro hunshared
    refine flatMap_congr fun x hx => ?_
    have hl := mem_zipIdx_iff_getElem?.1 hx
    exact (rest_eq_restAt_iff hknown hstate hl).2.2 (isOwn_of_unshared hknown hunshared hl)

end

lemma pairwise_of_unshared (h : Unshared (query.map (leaf f))) : (injections (query.map (leaf f))).Pairwise fun i i' =>
      markOf i.start ≠ markOf i'.start ∧ markOf i.stop ≠ markOf i'.stop := by
  -- the literals are numbered by their extents, which lie apart
  have hsome : ((injections (query.map (leaf f))).map some).Pairwise fun o o' =>
      ∀ i i', o = some i → o' = some i' → markOf i.start ≠ markOf i'.start ∧ markOf i.stop ≠ markOf i'.stop := by
    rw [← injections_eq_extents]
    refine pairwise_map.2 ((placed_extents _).apart.imp_of_mem ?_)
    intro e e' he he' hle i i' hi hi'
    obtain ⟨start, middle, stop, hinj, hstart, hstop, -⟩ := exists_injection he
    obtain ⟨start', middle', stop', hinj', hstart', hstop', -⟩ := exists_injection he'
    cases hinj.symm.trans hi
    cases hinj'.symm.trans hi'
    have hbounds := (placed_extents _).bounds e he
    have hbounds' := (placed_extents _).bounds e' he'
    constructor
    · intro hmark
      rw [markOf_eq_iff hknown (mem_of_getElem? hstart) (mem_of_getElem? hstart')] at hmark
      exact ((h e.start e'.start _ _ hstart hstart' (by omega) hmark).1 e he).1 rfl
    · intro hmark
      rw [markOf_eq_iff hknown (mem_of_getElem? hstop) (mem_of_getElem? hstop')] at hmark
      exact ((h e.stop e'.stop _ _ hstop hstop' (by omega) hmark).1 e he).2 rfl
  exact (pairwise_map.1 hsome).imp fun hR => hR _ _ rfl rfl

end

lemma length_extents : (extents query).length = (injections query).length := by
  have := congrArg length (injections_eq_extents query)
  rwa [length_map, length_map] at this

lemma content_eq {query : List Leaf} (hread : ∀ l ∈ query, l.IsRead) :
    (injections query).map contentOf = (extents query).map fun e => between (reading query) (e.inner query) := by
  have h : ((injections query).map some).map (fun o => o.elim [] contentOf) = (injections query).map contentOf := by
    rw [map_map]
    rfl
  rw [← h, ← injections_eq_extents, map_map]
  refine map_congr_left fun e he => ?_
  have hplaced := placed_extents query
  have hends := hplaced.ends e he
  obtain ⟨before, start, middle, stop, later, hquery, rfl⟩ := exists_split (hplaced.bounds e he)
  generalize extents query = es at *
  subst hquery
  rw [Function.comp_apply, injection?_append, between_inner (hread start (by simp)) (hread stop (by simp))
    (hends _ _ (.inl rfl) (getElem?_start ..)) (hends _ _ (.inr rfl) (getElem?_stop ..))]
  rfl

lemma length_elements (parameters : List Node) :
    (((parameterArg parameters).get .value).list .elements).length = parameters.length := by
  have h : ((parameterArg parameters).get .value).list .elements = parameters.map fun p =>
      Node.make .element [(.value, p), (.comma, Node.make .comma [(.after, Node.blank " ")])] := by
    rfl
  rw [h, length_map]

/-- **Queries lose and invent nothing just if they are unshared.** Let the leaves of a query be nodes of a module, and
let all cuts of its SQL literals succeed. Then the query says what it said with a question mark for each literal, and
what the literals held is handed over in order, if and only if no node of the query that is cut or taken out at one
place stands at another as well. -/
theorem faithful_iff_unshared {f : Facts} {query : List Node} {w : Rework} {handed : List (List Node)}
    (hknown : ∀ n ∈ query, Known f n)
    (hok : fixInjections f [] (injections (query.map (leaf f))) = .ok (w, handed)) :
    Faithful f (query.map (leaf f)) w handed ↔ Unshared (query.map (leaf f)) := by
  obtain ⟨hstate, hlength, hcontent⟩ := (reworked_nil f).fixInjections (fun i hi => isLiteralOf_of_mem hknown hi) hok
  rw [nil_append] at hstate
  have hread : ∀ l ∈ query.map (leaf f), l.IsRead := forall_mem_map.2 fun n _ => isRead_leaf f n
  have hreads := reads_iff_unshared hknown hstate
  refine ⟨fun h => hreads.1 h.reads, fun h => ⟨hreads.2 h, ?_, ?_, ?_⟩⟩
  · have hcount := countP_splice (inOrder_outer (placed_extents _) hread) (p := isMark) rfl
    rw [flatMap_map, length_map, length_extents] at hcount
    rw [hreads.2 h]
    exact hcount
  · rw [length_elements, length_map, hlength]
  · rw [hcontent (by simp) (pairwise_of_unshared hknown h), content_eq hread]

/-- A query that reaches one variable at two places. -/
def chainedQuery : List Node :=
  [.mk .simpleString "\"select * from t where n = '\"" [] (some 0), .mk .name "y" [] (some 1),
    .mk .simpleString "\"' or m = \"" [] (some 2), .mk .name "y" [] (some 1)]

def chainedFacts : Facts where
  module := Node.absent
  nodes := (chainedQuery.take 3).toArray
  spans := #[]
  parents := #[]
  scopes := ⟨#[], #[], #[], #[]⟩
  fault := none

/-- The value of a chained assignment is taken out where it is not meant to be. -/
theorem chainedQuery_not_faithful : (∀ n ∈ chainedQuery, Known chainedFacts n) ∧
      ∃ w handed, fixInjections chainedFacts [] (injections (chainedQuery.map (leaf chainedFacts))) = .ok (w, handed) ∧
        ¬ Faithful chainedFacts (chainedQuery.map (leaf chainedFacts)) w handed := by
  have hknown : ∀ n ∈ chainedQuery, Known chainedFacts n := by
    have hmark : ∀ n ∈ chainedQuery, ∃ m, n.mark = some m ∧ chainedFacts.node? m = some n := by
      simp [chainedQuery, chainedFacts, Node.mark, Facts.node?]
    have hliteral : ∀ n ∈ chainedQuery, n.kind = .simpleString → Literal.IsLiteral n.text := by
      unfold Literal.IsLiteral
      decide +kernel
    exact fun n hn => ⟨hmark n hn, hliteral n hn⟩
  have hextents : extents (chainedQuery.map (leaf chainedFacts)) = [⟨0, 2⟩] := by decide +kernel
  have hok : (fixInjections chainedFacts [] (injections (chainedQuery.map (leaf chainedFacts)))).isOk = true := by
    decide +kernel
  refine ⟨hknown, ?_⟩
  cases hfix : fixInjections chainedFacts [] (injections (chainedQuery.map (leaf chainedFacts))) with
  | error e =>
    rw [hfix] at hok
    cases hok
  | ok r =>
    obtain ⟨w, handed⟩ := r
    refine ⟨w, handed, rfl, fun hfaithful => ?_⟩
    have hunshared := (faithful_iff_unshared hknown hfix).1 hfaithful
    -- the second leaf lies inside the literal, and it is the fourth leaf too
    obtain ⟨-, hinside⟩ := hunshared 1 3 _ _ rfl rfl (by decide) rfl
    rw [hextents] at hinside
    rcases hinside ⟨⟨0, 2⟩, by simp, rfl⟩ with ⟨e, he, hcovers⟩ | hnil
    · rw [mem_singleton.1 he] at hcovers
      cases hcovers
    · cases hnil

end Mender.Codemod
