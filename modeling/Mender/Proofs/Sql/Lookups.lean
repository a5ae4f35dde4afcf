import Mender.Proofs.Sql.Parameters
import Mender.Proofs.Sql.Rounds

/-!
# Quotes that are looked up

Cutting an SQL literal out looks for the last quote of the leaf where it begins and for the first one of the leaf where it
ends, in what earlier cuts have left of these leaves. Of a text of an f-string a cut leaves something that stands in no
f-string, so nothing is known about it and no quote is found in it again.

* `lookups_succeed_iff` — all quotes are found just if no leaf is cut more often than it has `room` for.
-/

namespace Mender.Codemod

open Syntax Scope Sql List

variable {f : Facts} {n n' : Node} {w : Rework} {ds : List Deed} {i : Injection} {is : List Injection} {e : Fault}

/-- How often a leaf with quotes can be cut. -/
def room (l : Leaf) : Nat := if l.node.kind = .formattedStringText then 1 else l.quoteCount

def cuts (ds : List Deed) (m : Nat) : Nat := ds.count (.front m) + ds.count (.back m)

def Within (f : Facts) (ds : List Deed) : Prop := ∀ n, Known f n → cuts ds (markOf (leaf f n)) ≤ room (leaf f n)

lemma cuts_append (ds ds' : List Deed) (m : Nat) : cuts (ds ++ ds') m = cuts ds m + cuts ds' m := by
  simp only [cuts, count_append]
  omega

lemma cuts_outs (ls : List Leaf) (m : Nat) : cuts (ls.map fun l => .out (markOf l)) m = 0 := by
  simp [cuts, count_eq_zero]

lemma cuts_deedsOf (m : Nat) :
    cuts (deedsOf i) m = (if markOf i.start = m then 1 else 0) + if markOf i.stop = m then 1 else 0 := by
  rw [deedsOf, cuts_append, cuts_outs]
  simp [cuts, count_cons, Nat.add_comm]

lemma Reworked.cutLeaf_isOk_iff (h : Reworked f ds w) (hn : Known f n) (hquotes : 0 < (leaf f n).quoteCount) (s : Side) :
    (Codemod.cutLeaf f s.cut w (leaf f n)).isOk = true ↔ cuts ds (markOf (leaf f n)) < room (leaf f n) := by
  have hroom : room (leaf f n) = if n.kind = .formattedStringText then 1 else (leaf f n).quoteCount := rfl
  rw [hroom]
  rcases (h n _ hn hn.mark_eq).currentText_eq hquotes with
    ⟨hnone, hkind, hpos⟩ | ⟨mark, raw, now, hpieces, hnow, -, hle, -, -, hwhole⟩
  · rw [cutLeaf_of_none hnone, if_pos hkind]
    exact ⟨nofun, fun hlt => absurd hlt (Nat.not_lt.2 hpos)⟩
  · have hexact : Exact (Leaf.isRaw mark) false (leaf f n).pieces := hpieces ▸ exact_quoted raw
    rw [← Leaf.count_pieces] at hle
    simp only [Codemod.cutLeaf, hnow, Option.getD_some, s.cut_eq hexact hle, Leaf.count_pieces]
    rw [Leaf.count_pieces] at hle
    rw [cuts]
    split
    next hcut =>
      split at hcut
      next heq =>
        refine ⟨nofun, fun hlt => ?_⟩
        split at hlt
        next hkind => have := hwhole hkind; omega
        next => omega
      next => cases hcut
    next hcut =>
      split at hcut
      next => cases hcut
      next hne =>
        refine ⟨fun _ => ?_, fun _ => rfl⟩
        split
        next hkind => have := hwhole hkind; omega
        next => omega

lemma Known.eq_of_markOf (hn : Known f n) (hn' : Known f n') (h : markOf (leaf f n) = markOf (leaf f n')) :
    n = n' := hn.eq_of_mark hn' (by rw [hn.mark_eq, hn'.mark_eq, h])

lemma Reworked.fixInjection_isOk_iff (h : Reworked f ds w) (hi : IsLiteralOf f i) (hwithin : Within f ds) :
    (Codemod.fixInjection f w i).isOk = true ↔ Within f (ds ++ deedsOf i) := by
  obtain ⟨start, middle, stop⟩ := i
  obtain ⟨⟨n, hn, rfl, hquotes⟩, hmiddle, ⟨n', hn', rfl, hquotes'⟩⟩ := hi
  have hout := h.takeOuts hmiddle
  have hback := hout.cutLeaf_isOk_iff hn hquotes .back
  rw [cuts_append, cuts_outs] at hback
  have hfront {w₁ : Rework} {first : Option Node} (hstart : Codemod.cutLeaf f Side.back.cut
      (middle.foldl Rework.takeOut w) (leaf f n) = .ok (w₁, first)) :
      (Codemod.cutLeaf f Side.front.cut w₁ (leaf f n')).isOk = true ↔ cuts ds (markOf (leaf f n')) +
        (if markOf (leaf f n) = markOf (leaf f n') then 1 else 0) < room (leaf f n') := by
    have hone : cuts [Side.back.deed (markOf (leaf f n))] (markOf (leaf f n')) =
        if markOf (leaf f n) = markOf (leaf f n') then 1 else 0 := by simp [cuts, Side.deed, count_cons]
    rw [(hout.cutLeaf hn hn.mark_eq hquotes .back hstart).1.cutLeaf_isOk_iff hn' hquotes' .front, cuts_append, cuts_append,
      cuts_outs, hone, Nat.add_zero]
  constructor
  · intro hok x hx
    obtain ⟨⟨w₁, first⟩, hstart, hok⟩ := bind_isOk_iff.1 hok
    obtain ⟨r, hstop, -⟩ := bind_isOk_iff.1 hok
    have hroom := hback.1 (isOk_iff_exists.2 ⟨_, hstart⟩)
    have hroom' := (hfront hstart).1 (isOk_iff_exists.2 ⟨_, hstop⟩)
    have hle := hwithin x hx
    rw [cuts_append, cuts_deedsOf]
    dsimp only
    split
    next heq =>
      cases hn.eq_of_markOf hx heq
      split
      next heq' =>
        cases hn'.eq_of_markOf hx heq'
        rw [if_pos rfl] at hroom'
        omega
      next => omega
    next =>
      split
      next heq' =>
        cases hn'.eq_of_markOf hx heq'
        omega
      next => omega
  · intro hall
    have hle := hall n hn
    have hle' := hall n' hn'
    rw [cuts_append, cuts_deedsOf] at hle hle'
    dsimp only at hle hle'
    rw [if_pos rfl] at hle hle'
    obtain ⟨⟨w₁, first⟩, hstart⟩ := exists_of_isOk (hback.2 (by omega))
    obtain ⟨r, hstop⟩ := exists_of_isOk ((hfront hstart).2 (by omega))
    exact bind_isOk_iff.2 ⟨_, hstart, bind_isOk_iff.2 ⟨r, hstop, rfl⟩⟩

lemma Reworked.fixInjections_isOk_iff (h : Reworked f ds w) (his : ∀ i ∈ is, IsLiteralOf f i) (hwithin : Within f ds) :
    (Codemod.fixInjections f w is).isOk = true ↔ Within f (ds ++ is.flatMap deedsOf) := by
  induction is generalizing ds w with
  | nil =>
    rw [flatMap_nil, append_nil]
    exact ⟨fun _ => hwithin, fun _ => rfl⟩
  | cons i is ih =>
    obtain ⟨hi, his⟩ := forall_mem_cons.1 his
    rw [flatMap_cons, ← append_assoc]
    constructor
    · intro hok
      obtain ⟨⟨w₁, first, last⟩, hstep, hok⟩ := bind_isOk_iff.1 hok
      have hwithin' := (h.fixInjection_isOk_iff hi hwithin).1 (isOk_iff_exists.2 ⟨_, hstep⟩)
      obtain ⟨r, hr, -⟩ := bind_isOk_iff.1 hok
      exact (ih (h.fixInjection hi hstep).1 his hwithin').1 (isOk_iff_exists.2 ⟨r, hr⟩)
    · intro hall
      have hwithin' : Within f (ds ++ deedsOf i) := by
        intro n hn
        have := hall n hn
        rw [cuts_append] at this
        omega
      obtain ⟨⟨w₁, first, last⟩, hstep⟩ := exists_of_isOk ((h.fixInjection_isOk_iff hi hwithin).2 hwithin')
      obtain ⟨r, hr⟩ := exists_of_isOk ((ih (h.fixInjection hi hstep).1 his hwithin').2 hall)
      exact bind_isOk_iff.2 ⟨_, hstep, bind_isOk_iff.2 ⟨r, hr, rfl⟩⟩

lemma outOfRange_of_bind {α β : Type} {x : Except Fault α} {g : α → Except Fault β} (h : x >>= g = .error e)
    (hx : ∀ e, x = .error e → e = .outOfRange) (hg : ∀ a e, g a = .error e → e = .outOfRange) : e = .outOfRange := by
  cases x with
  | error e' =>
    cases h
    exact hx _ rfl
  | ok a => exact hg a e h

lemma outOfRange_of_cutLeaf {cut : Cut} {l : Leaf} (e : Fault) (h : cutLeaf f cut w l = .error e) : e = .outOfRange := by
  rw [cutLeaf] at h
  dsimp only at h
  split at h
  · cases h
    rfl
  · cases h

lemma outOfRange_of_fixInjections (h : fixInjections f w is = .error e) : e = .outOfRange := by
  induction is generalizing w e with
  | nil => cases h
  | cons i is ih =>
    refine outOfRange_of_bind h (fun e h => ?_) fun r e h => outOfRange_of_bind h (fun e h => ih h) nofun
    exact outOfRange_of_bind h outOfRange_of_cutLeaf fun r e h => outOfRange_of_bind h outOfRange_of_cutLeaf nofun

/-! ## Lookups of quotes are all that can go out of range -/

namespace Task

open Edit Pass

variable {t : Task} {module : Node} {notes : Notes} {qs : List (Node × List Leaf)}

lemma inRange_placeChange (c : PlaceChange) (n : Node) : InRange (c.apply n) := by
  have hextend (s : Slot) (g : List Node → List Node) : InRange (PlaceChange.apply.extend n s g) := by
    rw [PlaceChange.apply.extend]
    split_ifs <;> exact fun h => by cases h
  cases c with
  | set s part =>
    rw [PlaceChange.apply]
    split_ifs <;> exact fun h => by cases h
  | append s items =>
    rw [PlaceChange.apply]
    exact hextend s _
  | insertFirst s items =>
    rw [PlaceChange.apply]
    exact hextend s _

lemma inRange_replaceAll (rs : List (Nat × Replacement)) (n : Node) : InRange (replaceAll rs n) := by
  refine inRange_apply (replacing_goesIn rs) (fun old new => ?_) n
  have hchanges (cs : List PlaceChange) (n : Node) : InRange (cs.foldlM (fun n c => c.apply n) n) := by
    induction cs generalizing n with
    | nil => exact .ok n
    | cons c cs ih => exact (inRange_placeChange c n).bind fun n _ => ih n
  rw [replacing_leaving]
  split
  · exact .ok _
  · exact .ok _
  · exact (hchanges _ new).bind fun n _ => (inRange_sound n).bind fun _ _ => .ok _

lemma inRange_dropEmptyTexts (n : Node) : InRange (dropEmptyTexts n) := by
  refine inRange_apply emptyTexts_goesIn (fun old new => ?_) n
  rw [emptyTexts_leaving]
  exact .ok _

lemma inRange_joinTextParts (n : Node) : InRange (joinTextParts n) := by
  refine inRange_apply textParts_goesIn (fun old new => ?_) n
  rw [textParts_leaving]
  split
  · exact (inRange_sound _).bind fun _ _ => .ok _
  · exact .ok _

lemma inRange_span (f : Facts) (n : Node) : InRange (f.span n) := by
  rw [Facts.span]
  split
  · exact .ok _
  · exact fun h => by cases h

lemma inRange_lift_bind {α β : Type} {x : Except Fault α} {g : α → Work β} {s : Notes} (hx : InRange x)
    (hg : ∀ a, x = .ok a → InRange ((g a).run s)) : InRange ((liftM x >>= g).run s) := by
  cases x with
  | error e => exact fun h => hx (congrArg Except.error (Except.error.inj h))
  | ok a => exact hg a rfl

lemma mem_reached_cons {q q' : Node × List Leaf} (hq : t.allowsCall q = true) : q' ∈ t.reached (q :: qs) ↔
    q' = q ∧ injections q.2 ≠ [] ∨ q' ∈ t.reached qs := by
  rw [reached, takeWhile_cons, if_pos hq, due, filter_cons, hq]
  cases hnone : (injections q.2).isEmpty <;> simp_all [reached, due]

lemma inRange_fixQueries (hlookups : ∀ q ∈ t.reached qs, (fixInjections t.facts [] (injections q.2)).isOk = true) :
    InRange ((t.fixQueries qs module).run notes) := by
  induction qs generalizing module notes with
  | nil => exact .ok _
  | cons q qs ih =>
    obtain ⟨call, query⟩ := q
    rw [fixQueries]
    refine inRange_lift_bind ((inRange_span _ _).bind fun _ _ => .ok _) fun allowed hallowed => ?_
    have hcall : t.allowsCall (call, query) = allowed := allowsCall_of_ok hallowed
    cases allowed with
    | false => exact .ok _
    | true =>
      have hrest (module : Node) (notes : Notes) : InRange ((t.fixQueries qs module).run notes) :=
        ih fun q hq => hlookups q ((mem_reached_cons hcall).2 (.inr hq))
      refine inRange_lift_bind ?_ fun r _ => ?_
      · -- a query without literals has nothing to look up
        rcases eq_or_ne (injections query) [] with hnone | hsome
        · rw [hnone]
          exact .ok _
        · obtain ⟨r, hr⟩ := exists_of_isOk (hlookups (call, query) ((mem_reached_cons hcall).2 (.inl ⟨rfl, hsome⟩)))
          rw [hr]
          exact .ok r
      · obtain ⟨work, contents⟩ := r
        cases contents with
        | nil => exact hrest module notes
        | cons content contents =>
          have hreport : InRange ((t.report call).run notes) :=
            inRange_lift_bind ((inRange_span _ _).bind fun _ _ => .ok _) fun _ _ => .ok _
          refine inRange_lift_bind (inRange_replaceAll _ _) fun m₁ _ => ?_
          rw [StateT.run_bind]
          refine hreport.bind fun r _ => ?_
          refine inRange_lift_bind (inRange_dropEmptyTexts m₁) fun m₂ _ => ?_
          exact inRange_lift_bind (inRange_joinTextParts m₂) fun m₃ _ => hrest m₃ r.2

end Task

/-- How many SQL literals of a query begin or end in the node with a mark. -/
def endsIn (query : List Leaf) (m : Nat) : Nat :=
  (extents query).countP (markAt query ·.start == some m) + (extents query).countP (markAt query ·.stop == some m)

lemma cuts_injections (query : List Leaf) (m : Nat) : cuts ((injections query).flatMap deedsOf) m = endsIn query m := by
  obtain ⟨-, hfront, hback⟩ := deeds_eq query m
  rw [cuts, hfront, hback, endsIn, Nat.add_comm]

lemma within_iff {query : List Node} (hknown : ∀ n ∈ query, Known f n) :
    Within f ([] ++ (injections (query.map (leaf f))).flatMap deedsOf) ↔
      ∀ n ∈ query, endsIn (query.map (leaf f)) (markOf (leaf f n)) ≤ room (leaf f n) := by
  rw [nil_append]
  refine ⟨fun h n hn => cuts_injections _ _ ▸ h n (hknown n hn), fun h x hx => ?_⟩
  rw [cuts_injections]
  have hmem {k : Nat} (hk : (markAt (query.map (leaf f)) k == some (markOf (leaf f x))) = true) : x ∈ query := by
    obtain ⟨l, hl, hmark⟩ := Option.map_eq_some_iff.1 (beq_iff_eq.1 hk)
    obtain ⟨n, hn, rfl⟩ := mem_map.1 (mem_of_getElem? hl)
    exact (hknown n hn).eq_of_markOf hx hmark ▸ hn
  rcases Nat.eq_zero_or_pos (endsIn (query.map (leaf f)) (markOf (leaf f x))) with hzero | hpos
  · exact hzero ▸ Nat.zero_le _
  · rcases Nat.add_pos_iff_pos_or_pos.1 hpos with hpos | hpos <;> obtain ⟨e, -, he⟩ := countP_pos_iff.1 hpos
    · exact h x (hmem he)
    · exact h x (hmem he)

/-- **Quotes are found just if no leaf is cut too often.** Let the leaves of a query be nodes of a module. All the quotes
that are looked up to cut its SQL literals out are found if and only if a text of an f-string is the beginning or the end of
one literal at most, and another text of as many as it has quotes. Otherwise the lookup of a quote fails, and with it the
mending of a module in which the query is reached. Where the lookups for all queries that are reached succeed, mending the
module never goes out of range. -/
theorem lookups_succeed_iff {query : List Node} (hknown : ∀ n ∈ query, Known f n) :
    ((fixInjections f [] (injections (query.map (leaf f)))).isOk = true ↔
      ∀ n ∈ query, endsIn (query.map (leaf f)) (markOf (leaf f n)) ≤
        if n.kind = .formattedStringText then 1 else (leaf f n).quoteCount) ∧
    ((fixInjections f [] (injections (query.map (leaf f)))).isOk = false →
      fixInjections f [] (injections (query.map (leaf f))) = .error .outOfRange ∧
      ∀ (t : Task) (qs : List (Node × List Leaf)) (call : Node), t.facts = f → queries f = .ok qs →
        (call, query.map (leaf f)) ∈ t.reached qs → t.parameterizeQueries.isOk = false) ∧
    ∀ (t : Task) (qs : List (Node × List Leaf)), t.facts = f → f.fault = none → queries f = .ok qs →
      (∀ q ∈ t.reached qs, (fixInjections f [] (injections q.2)).isOk = true) →
      t.parameterizeQueries ≠ .error .outOfRange := by
  have hiff := (reworked_nil f).fixInjections_isOk_iff (fun i hi => isLiteralOf_of_mem hknown hi)
    fun n _ => Nat.zero_le _
  refine ⟨hiff.trans (within_iff hknown), fun hfail => ⟨?_, fun t qs call hfacts hqs hmem => ?_⟩,
    fun t qs hfacts hfault hqs hlookups => ?_⟩
  · cases hfix : fixInjections f [] (injections (query.map (leaf f))) with
    | error e => rw [outOfRange_of_fixInjections hfix]
    | ok r =>
      rw [hfix] at hfail
      cases hfail
  · subst hfacts
    rw [Bool.eq_false_iff]
    intro hok
    obtain ⟨⟨out, notes⟩, hrun⟩ := exists_of_isOk hok
    obtain ⟨rs, hrounds, -⟩ := Task.exists_rounds_of_parameterizeQueries hqs hrun
    rw [← Task.map_source_rounds hrounds] at hmem
    obtain ⟨r, hr, heq⟩ := mem_map.1 hmem
    have hquery : r.query = query.map (leaf t.facts) := congrArg Prod.snd heq
    rw [← hquery, Task.fixInjections_of_mem hrounds hr] at hfail
    cases hfail
  · subst hfacts
    rw [Task.parameterizeQueries, Task.withScopes, hfault, hqs]
    exact Task.inRange_fixQueries hlookups

/-- The leaves of an f-string with two fields, each in quotes. -/
def twoFields : List Node :=
  [.mk .formattedStringText "select '" [] (some 0), .mk .name "x" [] (some 1),
    .mk .formattedStringText "' or '" [] (some 2), .mk .name "y" [] (some 3),
    .mk .formattedStringText "'" [] (some 4)]

def twoFieldsFacts : Facts where
  module := Node.absent
  nodes := (twoFields ++ [Node.mk .formattedString "" [] (some 5)]).toArray
  spans := #[]
  parents := #[some 5, none, some 5, none, some 5]
  scopes := ⟨#[], #[], #[], #[]⟩
  fault := none

/-- The text between two fields of an f-string ends one literal and begins another, and its second quote is not found. -/
theorem twoFields_not_found : (∀ n ∈ twoFields, Known twoFieldsFacts n) ∧
      fixInjections twoFieldsFacts [] (injections (twoFields.map (leaf twoFieldsFacts))) = .error .outOfRange := by
  have hknown : ∀ n ∈ twoFields, Known twoFieldsFacts n := by
    have hmark : ∀ n ∈ twoFields, ∃ m, n.mark = some m ∧ twoFieldsFacts.node? m = some n := by
      simp [twoFields, twoFieldsFacts, Node.mark, Facts.node?]
    have hkind : ∀ n ∈ twoFields, n.kind ≠ .simpleString := by decide
    exact fun n hn => ⟨hmark n hn, fun h => absurd h (hkind n hn)⟩
  refine ⟨hknown, ((lookups_succeed_iff hknown).2.1 (Bool.eq_false_iff.2 fun hok => ?_)).1⟩
  have hends := (lookups_succeed_iff hknown).1.1 hok (.mk .formattedStringText "' or '" [] (some 2)) (by simp [twoFields])
  revert hends
  decide +kernel

end Mender.Codemod
