import Mathlib.Algebra.Order.BigOperators.Group.List
import Mathlib.Algebra.Order.Group.Multiset
import Mathlib.Algebra.Order.Group.Nat
import Mathlib.Data.List.Flatten
import Mathlib.Tactic.Abel
import Mender.Proofs.Edit.Standing
import Mender.Proofs.Edit.Steps

/-!
# Putting a block in the place of another

What a tree holds is counted here without regard to order, by sums over its nodes: over those that stand in blocks
(`standingSum`) or over all that a pass meets (`metSum`). One block put in the place of another changes these sums in the
way one expects (`swapped_of_makes`), and no node outside the new block keeps its mark.

* `exists_swapped` — a block can be put in the place of another one, and what the tree is like then.
-/

namespace Mender.Edit

open Syntax Node List

variable {f g : Node → Nat} {ns ms ps : List Node} {c : Node} {fs : List Fill}

/-! ## Sums over trees -/

section

variable {A : Type} [AddCommMonoid A] (v : Node → A)

def standingSum (n : Node) : A := ((standing n).map v).sum

/-- The sum over the nodes that a pass meets in a tree. -/
def metSum (n : Node) : A := (n.met.map v).sum

lemma sum_map_flatMap (f : Node → List Node) : ((ns.flatMap f).map v).sum = (ns.map fun n => ((f n).map v).sum).sum := by
  induction ns with
  | nil => rfl
  | cons n ns ih => rw [flatMap_cons, map_append, sum_append, ih, map_cons, sum_cons]

lemma standingSum_eq (n : Node) : standingSum v n = v n + ((framed n).map (standingSum v)).sum := by
  rw [standingSum, standing_eq, map_cons, sum_cons, sum_map_flatMap]
  rfl

lemma metSum_eq (n : Node) : metSum v n = v n + (n.visited.map (metSum v)).sum := by
  rw [metSum, met_eq, map_cons, sum_cons, sum_map_flatMap]
  rfl

end

lemma sum_visitedOf_set (f : Node → Nat) {i : Nat} (hfs : i < fs.length) (hps : i < ps.length) (part : Node) :
    ((visitedOf fs (ps.set i part)).map f).sum + ((ps.getD i absent).opened.map f).sum =
      ((visitedOf fs ps).map f).sum + (part.opened.map f).sum := by
  induction fs generalizing ps i with
  | nil => cases hfs
  | cons fill fs ih =>
    cases ps with
    | nil => cases hps
    | cons p ps =>
      cases i with
      | zero =>
        rw [set_cons_zero, visitedOf, visitedOf, map_append, map_append, sum_append, sum_append]
        change _ + (p.opened.map f).sum = _
        omega
      | succ i =>
        have hrest := ih (Nat.lt_of_succ_lt_succ hfs) (Nat.lt_of_succ_lt_succ hps)
        rw [set_cons_succ, visitedOf, visitedOf, map_append, map_append, sum_append, sum_append, getD_cons_succ]
        omega

variable {n : Node}

lemma sum_visited_set (f : Node → Nat) {s : Slot} (h : (n.get s).kind ≠ .absent) (part : Node) :
    ((n.set s part).visited.map f).sum + ((n.get s).opened.map f).sum = (n.visited.map f).sum + (part.opened.map f).sum := by
  cases hi : n.kind.slots.idxOf? s with
  | none =>
    rw [Node.get, hi] at h
    exact absurd rfl h
  | some i =>
    have hlt : i < n.parts.length := by
      by_contra hge
      rw [get_eq_getD hi, getD_eq_default _ _ (Nat.not_lt.1 hge)] at h
      exact h rfl
    obtain ⟨hslots, -⟩ := idxOf?_eq_some_iff.1 hi
    have hfs : i < (n.kind.shape.map Prod.snd).length := by simpa [Kind.slots] using hslots
    rw [set_eq hi, get_eq_getD hi]
    exact sum_visitedOf_set f hfs hlt part

lemma standing_sublist_met (n : Node) : (standing n).Sublist n.met := by
  induction n using framedInduction with
  | h n ih =>
    rw [standing_eq, met_eq]
    exact ((Sublist.flatMap_right _ ih).trans ((framed_sublist n).flatMap _)).cons_cons n

lemma mem_of_sum_le (h : ns.Sublist ms) (hsum : (ms.map f).sum ≤ (ns.map f).sum) (hc : c ∈ ms) (hf : 0 < f c) : c ∈ ns := by
  induction h with
  | slnil => cases hc
  | @cons ns ms d hsub ih =>
    have hle := (hsub.map f).sum_le_sum fun _ _ => Nat.zero_le _
    rw [map_cons, sum_cons] at hsum
    rcases mem_cons.1 hc with rfl | hc
    · omega
    · exact ih (by omega) hc
  | @cons_cons ns ms d hsub ih =>
    rw [map_cons, sum_cons, map_cons, sum_cons] at hsum
    rcases mem_cons.1 hc with rfl | hc
    · exact mem_cons_self ..
    · exact mem_cons_of_mem _ (ih (by omega) hc)

lemma le_of_sum_le (hle : ∀ c ∈ ns, f c ≤ g c) (hsum : (ns.map g).sum ≤ (ns.map f).sum) : ∀ c ∈ ns, g c ≤ f c := by
  induction ns with
  | nil => exact nofun
  | cons n ns ih =>
    rw [forall_mem_cons] at hle
    rw [map_cons, sum_cons, map_cons, sum_cons] at hsum
    have hrest : (ns.map f).sum ≤ (ns.map g).sum := sum_le_sum hle.2
    exact forall_mem_cons.2 ⟨by omega, ih hle.2 (by omega)⟩

/-! ## Marks that are met -/

variable {m k : Nat} {b : Node}

def atMark (m : Nat) (n : Node) : Nat := if n.mark = some m then 1 else 0

def hits (m : Nat) (n : Node) : Nat := metSum (atMark m) n

def standingHits (m : Nat) (n : Node) : Nat := standingSum (atMark m) n

lemma standingHits_le (m : Nat) (n : Node) : standingHits m n ≤ hits m n :=
  ((standing_sublist_met n).map _).sum_le_sum fun _ _ => Nat.zero_le _

lemma hits_eq_zero_iff : hits m n = 0 ↔ ∀ c ∈ n.met, c.mark ≠ some m := by
  rw [hits, metSum, sum_eq_zero_iff]
  simp [atMark]

/-- Places for statements and all other places hold different nodes. -/
lemma sum_framedOf_le (f : Node → Nat) {places : List (Slot × Fill)} {s : Slot} {i : Nat} (ps : List Node)
    (hi : (places.map Prod.fst)[i]? = some s) (hs : isBlockPlace s = false) :
    ((framedOf places ps).map f).sum + ((ps.getD i absent).opened.map f).sum ≤
      ((visitedOf (places.map Prod.snd) ps).map f).sum := by
  induction places generalizing ps i with
  | nil => cases hi
  | cons place places ih =>
    cases ps with
    | nil => exact Nat.zero_le _
    | cons p ps =>
      obtain ⟨s', fill⟩ := place
      rw [map_cons, framedOf, visitedOf, map_append, map_append, sum_append, sum_append]
      cases i with
      | zero =>
        cases hi
        have hle := ((framedOf_sublist places ps).map f).sum_le_sum fun _ _ => Nat.zero_le _
        have hnone : framedAt s' fill p = [] := by rw [framedAt, hs]; rfl
        rw [hnone, getD_cons_zero, map_nil, sum_nil]
        omega
      | succ i =>
        have hle := ((framedAt_sublist s' fill p).map f).sum_le_sum fun _ _ => Nat.zero_le _
        have hrest := ih ps hi
        rw [getD_cons_succ]
        omega

lemma sum_framed_le (f : Node → Nat) {s : Slot} {i : Nat} (hi : n.kind.slots.idxOf? s = some i)
    (hs : isBlockPlace s = false) :
    ((framed n).map f).sum + ((n.get s).opened.map f).sum ≤ (n.visited.map f).sum := by
  obtain ⟨hlt, hslot, -⟩ := findIdx?_eq_some_iff_getElem.1 hi
  have hplace : (n.kind.shape.map Prod.fst)[i]? = some s := by
    rw [← Kind.slots, getElem?_eq_getElem hlt, beq_iff_eq.1 hslot]
  rw [get_eq_getD hi, framed]
  split
  · exact sum_framedOf_le f n.parts hplace hs
  · rw [map_nil, sum_nil, Nat.zero_add]
    exact Nat.le_trans (Nat.le_add_left ..) (sum_framedOf_le f n.parts hplace hs)

structure Sees (m : Nat) (b n : Node) : Prop where
  only : ∀ c ∈ n.met, c.mark = some m → c = b
  stands : hits m n ≤ standingHits m n

lemma sees_of_hits_eq_zero (h : hits m n = 0) : Sees m b n where
  only c hc hmark := absurd hmark (hits_eq_zero_iff.1 h c hc)
  stands := by omega

namespace Sees

lemma eq_of_mark (h : Sees m b n) (hmark : n.mark = some m) : n = b := h.only n (self_mem_met n) hmark

section

variable (h : Sees m b n) (hmark : n.mark ≠ some m)
include h hmark

lemma sums_eq : hits m n = ((framed n).map (hits m)).sum ∧ (n.visited.map (hits m)).sum = ((framed n).map (hits m)).sum ∧
    ((framed n).map (hits m)).sum = ((framed n).map (standingHits m)).sum := by
  have hle : ((framed n).map (standingHits m)).sum ≤ ((framed n).map (hits m)).sum :=
    sum_le_sum fun c _ => standingHits_le m c
  have hle' : ((framed n).map (hits m)).sum ≤ (n.visited.map (hits m)).sum :=
    ((framed_sublist n).map _).sum_le_sum fun _ _ => Nat.zero_le _
  have hmet : hits m n = 0 + (n.visited.map (hits m)).sum := by
    rw [hits, metSum_eq, atMark, if_neg hmark]
    rfl
  have hstanding : standingHits m n = 0 + ((framed n).map (standingHits m)).sum := by
    rw [standingHits, standingSum_eq, atMark, if_neg hmark]
    rfl
  have := h.stands
  omega

lemma of_visited (hc : c ∈ n.visited) : Sees m b c := by
  obtain ⟨-, hvisited, hframed⟩ := sums_eq h hmark
  rcases Nat.eq_zero_or_pos (hits m c) with hzero | hpos
  · exact sees_of_hits_eq_zero hzero
  · have hmem := mem_of_sum_le (framed_sublist n) hvisited.le hc hpos
    exact ⟨fun d hd => h.only d (mem_met_of_mem_visited hc hd),
      le_of_sum_le (fun c _ => standingHits_le m c) hframed.le c hmem⟩

lemma hits_eq_zero_of_beside {s : Slot} (hs : isBlockPlace s = false) : ∀ c ∈ (n.get s).opened, hits m c = 0 := by
  intro c hc
  cases hi : n.kind.slots.idxOf? s with
  | none =>
    rw [get_eq_absent hi] at hc
    cases hc
  | some i =>
    obtain ⟨-, hvisited, -⟩ := sums_eq h hmark
    have hle := sum_framed_le (hits m) hi hs
    have := single_le_sum (l := (n.get s).opened.map (hits m)) (fun _ _ => Nat.zero_le _) _ (mem_map_of_mem hc)
    omega

lemma hits_eq_zero_of_visited (hframe : isFrame n.kind = false) (hc : c ∈ n.visited) : hits m c = 0 := by
  obtain ⟨-, hvisited, -⟩ := sums_eq h hmark
  have hnone : framed n = [] := by rw [framed, hframe]; rfl
  have := single_le_sum (l := n.visited.map (hits m)) (fun _ _ => Nat.zero_le _) _ (mem_map_of_mem hc)
  rw [hnone, map_nil, sum_nil] at hvisited
  omega

end

end Sees

/-! ## The swap -/

def withItems (n : Node) : Multiset (List Node) := if n.kind = .withStatement then {(n.list .items).map cleared} else 0

/-- What becomes of a tree in which the block `b` is replaced by the block `b'`. -/
structure Swapped (m : Nat) (b b' n n' : Node) : Prop where
  kind : n'.kind = n.kind
  isSpentLine : n'.isSpentLine = n.isSpentLine
  cleared : hits m n = 0 → n'.cleared = n.cleared
  items : standingSum withItems n' + hits m n • standingSum withItems b =
    standingSum withItems n + hits m n • standingSum withItems b'
  standingHits (j : Nat) : standingHits j n' = hits m n * standingHits j b'
  hits (j : Nat) : hits j n' = hits m n * hits j b'
  own : ∀ c ∈ n'.met, c.mark.isSome = true → c ∈ b'.met

lemma steady_swapped (m : Nat) (b b' : Node) : Steady (Swapped m b b') := steady_of_kind Swapped.kind Swapped.isSpentLine

variable {b' n' module : Node} {R : Node → Edit → Prop} {e : Edit}

section

variable (h : Forall₂ (Swapped m b b') ns ms)
include h

lemma items_of_forall₂ : (ms.map (standingSum withItems)).sum + (ns.map (hits m)).sum • standingSum withItems b =
      (ns.map (standingSum withItems)).sum + (ns.map (hits m)).sum • standingSum withItems b' := by
  induction h with
  | nil => simp
  | @cons n n' ns ms hn _ ih =>
    simp only [map_cons, sum_cons, add_nsmul]
    calc _ = (standingSum withItems n' + hits m n • standingSum withItems b) +
          ((ms.map (standingSum withItems)).sum + (ns.map (hits m)).sum • standingSum withItems b) := by abel
      _ = _ := by
        rw [hn.items, ih]
        abel

lemma sum_of_forall₂
    (hf : ∀ {c c' : Node}, Swapped m b b' c c' → f c' = hits m c * k) : (ms.map f).sum = (ns.map (hits m)).sum * k := by
  induction h with
  | nil => simp
  | cons hn _ ih => rw [map_cons, sum_cons, hf hn, ih, map_cons, sum_cons, Nat.add_mul]

end

lemma forall_mem_of_forall₂ {Q : Node → Node → Prop} {P : Node → Prop} (h : Forall₂ Q ns ms)
    (hP : ∀ {c c' : Node}, Q c c' → P c') : ∀ c' ∈ ms, P c' := by
  induction h with
  | nil => exact nofun
  | cons hn _ ih => exact forall_mem_cons.2 ⟨hP hn, ih⟩

lemma items_sublist_opened (p : Node) : p.items.Sublist p.opened := by
  rw [Node.items]
  split
  next hseq => rw [opened_run hseq]
  next => exact nil_sublist _

lemma map_cleared_of_swapped (h : Forall₂ (Swapped m b b') ns ms) (hzero : ∀ c ∈ ns, hits m c = 0) :
    ms.map cleared = ns.map cleared := by
  induction h with
  | nil => rfl
  | cons hc _ ih =>
    rw [forall_mem_cons] at hzero
    rw [map_cons, map_cons, hc.cleared hzero.1, ih hzero.2]

lemma swapped_of_rebuilt (h : Sees m b n) (hmark : n.mark ≠ some m) (hnew : RebuiltTo R n n')
    (hkeep : KeepsIn R (Swapped m b b') n.visited) : Swapped m b b' n n' := by
  obtain ⟨hhits, hvisited, -⟩ := h.sums_eq hmark
  have hframed := forall₂_framed (steady_swapped m b b') hnew hkeep
  have hinside := hnew.visited (steady_swapped m b b') hkeep
  have hown (j : Nat) : atMark j n' = 0 := if_neg (by rw [hnew.mark]; exact nofun)
  have hwith : withItems n' = withItems n := by
    rw [withItems, withItems, hnew.kind]
    split
    next hkind =>
      have hzero := h.hits_eq_zero_of_beside hmark (s := .items) rfl
      rw [map_cleared_of_swapped (hnew.list (steady_swapped m b b') hkeep .items) fun c hc =>
        hzero c ((items_sublist_opened _).subset hc)]
    next => rfl
  refine ⟨hnew.kind, hnew.isSpentLine_eq (steady_swapped m b b') hkeep, ?_, ?_, fun j => ?_, fun j => ?_, ?_⟩
  · intro hzero
    have hnone : ∀ c ∈ n.visited, hits m c = 0 := by
      rw [hhits, ← hvisited, sum_eq_zero_iff, forall_mem_map] at hzero
      exact hzero
    refine hnew.unchanged fun c hc e he => ?_
    obtain ⟨c', rfl, hc'⟩ := hkeep c hc e he
    exact ⟨c', rfl, hc'.cleared (hnone c hc)⟩
  · rw [standingSum_eq, standingSum_eq _ n, hwith, hhits, add_assoc, items_of_forall₂ hframed, add_assoc]
  · rw [standingHits, standingSum_eq, hown, hhits, zero_add]
    exact sum_of_forall₂ hframed fun h => h.standingHits j
  · rw [hits, metSum_eq, hown, hhits, zero_add, ← hvisited]
    exact sum_of_forall₂ hinside fun h => h.hits j
  · intro c hc hmarked
    rcases mem_met.1 hc with rfl | ⟨d', hd', hc⟩
    · rw [hnew.mark] at hmarked
      cases hmarked
    · exact forall_mem_of_forall₂ hinside (fun h => h.own) d' hd' c hc hmarked

lemma sizeOf_le_of_mem_met (h : c ∈ n.met) : sizeOf c ≤ sizeOf n :=
  of_met (P := (sizeOf · ≤ sizeOf n)) (fun _ h _ hc => Nat.le_trans (Nat.le_of_lt (sizeOf_lt_of_mem_parts hc)) h)
    (Nat.le_refl _) h

lemma Sees.hits_inside (h : Sees m b b) (hc : c ∈ b.visited) : hits m c = 0 := by
  refine hits_eq_zero_iff.2 fun d hd hmark => ?_
  have hself : d = b := h.only d (mem_met_of_mem_visited hc hd) hmark
  have hle := sizeOf_le_of_mem_met hd
  rw [hself] at hle
  exact Nat.not_le.2 (sizeOf_lt_of_mem_visited hc) hle

lemma Sees.hits_self (h : Sees m b b) (hmark : b.mark = some m) : hits m b = 1 := by
  have hzero : (b.visited.map (hits m)).sum = 0 := by
    rw [sum_eq_zero_iff, forall_mem_map]
    exact fun c => h.hits_inside
  rw [hits, metSum_eq, atMark, if_pos hmark]
  exact congrArg (1 + ·) hzero

lemma replacementOf?_singleton (r : Replacement) :
    replacementOf? [(m, r)] n = if n.mark = some m then some r else none := by
  rw [replacementOf?]
  cases n.mark with
  | none => rfl
  | some k =>
    simp only [reverse_singleton, find?_singleton, Option.bind_some, Option.some.injEq, beq_iff_eq, @eq_comm _ k]
    split <;> rfl

lemma leaving_swap (n new : Node) :
    (replacing [(m, .whole (.keep b'))]).leaving n new = .ok (.keep (if n.mark = some m then b' else new)) := by
  rw [replacing_leaving, replacementOf?_singleton]
  by_cases hmark : n.mark = some m
  · rw [if_pos hmark, if_pos hmark]
  · rw [if_neg hmark, if_neg hmark]

lemma eq_of_leaves_replacing {old new : Node}
    (h : (replacing [(m, .whole (.keep b'))]).Leaves old new e) : e = .keep (if old.mark = some m then b' else new) := by
  obtain ⟨s, s', hleave⟩ := h
  have hresult : (replacing [(m, .whole (.keep b'))]).leaving old new = .ok e := by rw [Pass.leaving, Step.result, hleave]; rfl
  rw [leaving_swap] at hresult
  exact (Except.ok.inj hresult).symm

lemma swapped_of_makes (hkind : b'.kind = b.kind) (hspent : b'.isSpentLine = b.isSpentLine)
    (h : Sees m b n) (hmakes : (replacing [(m, .whole (.keep b'))]).Makes n e) :
    ∃ n', e = .keep n' ∧ Swapped m b b' n n' := by
  induction n generalizing e with
  | h n ih =>
    obtain ⟨new, hnew, hleave⟩ := Pass.exists_rebuiltTo (fun _ => rfl) hmakes
    obtain rfl := eq_of_leaves_replacing hleave
    by_cases hmark : n.mark = some m
    · obtain rfl := h.eq_of_mark hmark
      rw [if_pos hmark]
      refine ⟨b', rfl, hkind, hspent, fun hzero => ?_, ?_, fun j => ?_, fun j => ?_, fun c hc _ => hc⟩
      · rw [h.hits_self hmark] at hzero
        cases hzero
      · rw [h.hits_self hmark, one_nsmul, one_nsmul, add_comm]
      · rw [h.hits_self hmark, Nat.one_mul]
      · rw [h.hits_self hmark, Nat.one_mul]
    · rw [if_neg hmark]
      exact ⟨new, rfl, swapped_of_rebuilt h hmark hnew fun c hc e he => ih c hc (h.of_visited hmark hc) he⟩

/-! ## Trees in order -/

lemma makes_of_editing {p : Pass Unit} (h : p.editing n = .ok e) : p.Makes n e := by
  rw [Pass.editing, Step.result] at h
  obtain ⟨⟨e', u⟩, hrun, rfl⟩ := of_map h
  exact ⟨(), u, hrun⟩

/-- Are all nodes that a pass meets in order? -/
def InOrder (n : Node) : Prop := ∀ c ∈ n.met, c.flaw? = none

lemma inOrder_iff : InOrder n ↔ n.flaw? = none ∧ ∀ c ∈ n.visited, InOrder c := forall_met

lemma inOrder_of_whole (h : Whole n) : InOrder n := fun _ hc => (h.of_mem_met hc).flaw?

lemma flaw?_of_swapped {qs : List Node} (h : Sees m b n) (hmark : n.mark ≠ some m)
    (hparts : PartsTo R (n.kind.shape.map Prod.snd) n.parts qs) (hkeep : KeepsIn R (Swapped m b b') n.visited) :
    (Node.mk n.kind n.text qs none).flaw? = n.flaw? := by
  have hunchanged {cs : List Node} (hsub : cs ⊆ n.visited) (hzero : ∀ c ∈ cs, hits m c = 0) : KeepsIn R Unchanged cs := by
    intro c hc e he
    obtain ⟨c', rfl, hc'⟩ := hkeep c (hsub hc) e he
    exact ⟨c', rfl, hc'.cleared (hzero c hc)⟩
  cases hframe : isFrame n.kind with
  | true =>
    refine flaw?_of_beside rfl hframe fun s hs => ?_
    have hnew : PartsTo R (n.kind.shape.map Prod.snd) n.parts (Node.mk n.kind n.text qs none).parts := hparts
    obtain ⟨f, hpart⟩ := hnew.partTo_get rfl s
    exact (keptPart_of_partTo steady_unchanged hpart
      (hunchanged (opened_get_sublist n s).subset (h.hits_eq_zero_of_beside hmark hs))).unchanged
  | false =>
    have hmap := hparts.map_cleared (hunchanged (fun _ => id) fun c => h.hits_eq_zero_of_visited hmark hframe)
    rw [← flaw?_cleared, cleared_mk, hmap, ← cleared_mk n.mark, flaw?_cleared]
    cases n
    rfl

/-- **A block can be put in the place of another** wherever statements stand, and the tree is in order again. -/
theorem exists_swapped (hblock : ∀ qs, (Node.mk b.kind b.text qs none).flaw? = none)
    (hkind : b'.kind = b.kind) (hspent : b'.isSpentLine = b.isSpentLine) (hb' : InOrder b') (h : Sees m b n)
    (hn : InOrder n) : ∃ n', (replacing [(m, .whole (.keep b'))]).editing n = .ok (.keep n') ∧ InOrder n' := by
  induction n with
  | h n ih =>
    obtain ⟨hflaw, hinside⟩ := inOrder_iff.1 hn
    have hsees (c : Node) (hc : c ∈ n.visited) : Sees m b c := by
      by_cases hmark : n.mark = some m
      · obtain rfl := h.eq_of_mark hmark
        exact sees_of_hits_eq_zero (h.hits_inside hc)
      · exact h.of_visited hmark hc
    have hkeep : KeepsIn ((replacing [(m, .whole (.keep b'))]).editing · = .ok ·)
        (fun c c' => Swapped m b b' c c' ∧ InOrder c') n.visited := by
      intro c hc e he
      obtain ⟨c', hc', horder⟩ := ih c hc (hsees c hc) (hinside c hc)
      cases hc'.symm.trans he
      obtain ⟨_, hsame, hswapped⟩ := swapped_of_makes hkind hspent (hsees c hc) (makes_of_editing hc')
      cases hsame
      exact ⟨c', rfl, hswapped, horder⟩
    obtain ⟨qs, hqs⟩ := exists_rebuildParts fun c hc =>
      (ih c hc (hsees c hc) (hinside c hc)).elim fun c' hc' => ⟨_, hc'.1, fun _ => ⟨c', rfl⟩⟩
    have hparts := partsTo_of_rebuildParts hqs
    have hflaw' : (Node.mk n.kind n.text qs none).flaw? = none := by
      by_cases hmark : n.mark = some m
      · obtain rfl := h.eq_of_mark hmark
        exact hblock qs
      · have hswaps : KeepsIn _ (Swapped m b b') n.visited := fun c hc e he =>
          (hkeep c hc e he).imp fun _ => .imp_right And.left
        exact (flaw?_of_swapped h hmark hparts hswaps).trans hflaw
    have hnew : n.rebuild (replacing [(m, .whole (.keep b'))]).editing = .ok (.mk n.kind n.text qs none) := by
      rw [rebuild, hqs]
      show sound _ = _
      rw [sound, hflaw']
    refine ⟨_, by rw [Pass.editing_eq (replacing_goesIn _), hnew]; exact leaving_swap n _, ?_⟩
    split
    · exact hb'
    · have hsteady : Steady fun c c' => Swapped m b b' c c' ∧ InOrder c' :=
        steady_of_kind (fun h => h.1.kind) fun h => h.1.isSpentLine
      exact inOrder_iff.2 ⟨hflaw', forall_mem_of_forall₂ ((rebuiltTo_of_rebuild hnew).visited hsteady hkeep) And.right⟩

/-! ## Numbered trees -/

lemma marks_sublist (h : Orderly n) : ((n.met.map mark).filter Option.isSome).Sublist (n.nodes.map mark) := by
  induction n with
  | h n ih =>
    have hrest : (((n.visited.flatMap met).map mark).filter Option.isSome).Sublist ((nodesOf n.parts).map mark) := by
      refine .trans ?_ ((nodesOf_visited_sublist n).map mark)
      rw [nodesOf_eq, map_flatMap, filter_flatMap, map_flatMap]
      exact Sublist.flatMap_right _ fun c hc => ih c hc (h.of_mem_met (visited_subset hc))
    rw [met_eq, map_cons, filter_cons]
    split
    next hmark =>
      have hnode : n.kind.isFiller = false := by
        rw [Bool.eq_false_iff]
        intro hfill
        rw [h.mark_of_isFiller hfill] at hmark
        cases hmark
      rw [nodes_eq, hnode]
      exact hrest.cons_cons _
    next => exact hrest.trans ((nodesOf_parts_sublist n).map mark)

lemma sum_atMark : (ns.map (atMark m)).sum = (ns.map mark).count (some m) := by
  induction ns with
  | nil => rfl
  | cons n ns ih =>
    rw [map_cons, sum_cons, ih, map_cons, count_cons, atMark, Nat.add_comm]
    simp only [beq_iff_eq]

lemma hits_le_one (h : Numbered n) (m : Nat) : hits m n ≤ 1 := by
  have hcount : (n.met.map mark).count (some m) = ((n.met.map mark).filter Option.isSome).count (some m) :=
    (count_filter rfl).symm
  rw [hits, metSum, sum_atMark, hcount]
  exact ((marks_sublist h.orderly).count_le _).trans (nodup_iff_count_le_one.1 h.nodup _)

lemma standingHits_pos (hc : c ∈ standing n) (hmark : c.mark = some m) : 0 < standingHits m n := by
  rw [standingHits, standingSum, sum_atMark, count_pos_iff]
  exact hmark ▸ mem_map_of_mem hc

lemma hits_of_mem_standing (h : Numbered n) (hc : c ∈ standing n) (hmark : c.mark = some m) :
    hits m n = 1 ∧ standingHits m n = 1 := by
  have hle := hits_le_one h m
  have hpos := standingHits_pos hc hmark
  have := standingHits_le m n
  omega

lemma hits_eq_zero_of_notMem (h : Numbered module) (hc : c ∈ module.nodes) (hmark : c.mark = some m)
    (hn : Orderly n) (hsub : n.nodes ⊆ module.nodes) (hnot : c ∉ n.nodes) : hits m n = 0 := by
  rw [hits_eq_zero_iff]
  intro d hd hmark'
  have hmem : d ∈ n.nodes := mem_nodes_of_mem_met hd ((hn.of_mem_met hd).self_mem_nodes hmark')
  exact hnot (h.eq_of_mark (hsub hmem) hc (hmark'.trans hmark.symm) ▸ hmem)

end Mender.Edit
