import Mender.Proofs.Edit.Replaced
import Mender.Proofs.Import.Blocks

/-!
# Modules with their imports in order

The statements of a module are blocks of imports and other statements between them. Putting some of the blocks in order
changes these blocks and nothing else (`exists_replaceAll`).

* `runsInduction` — induction over the statements along the blocks.
-/

namespace Mender.Import

open Syntax Node Edit Pass List

variable {l module c anchor : Node} {b o rest : List Node} {rs : List (Nat × Replacement)} {g : Node → Except Fault Edit}

/-! ## Runs of neighbours -/

section

variable {α : Type} {test : α → Bool} {x : α} {r : List α}

lemma runsInduction (test : α → Bool) {P : List α → Prop} (nil : P []) (other : ∀ x xs, test x = false → P xs → P (x :: xs))
    (run : ∀ r xs, r ≠ [] → (∀ x ∈ r, test x = true) → (∀ x, xs.head? = some x → test x = false) → P xs → P (r ++ xs))
    (xs : List α) : P xs := by
  match xs with
  | [] => exact nil
  | x :: xs =>
    cases hx : test x with
    | false => exact other x xs hx (runsInduction test nil other run xs)
    | true =>
      rw [← takeWhile_append_dropWhile (p := test) (l := x :: xs)]
      refine run _ _ ?_ (fun _ => mem_takeWhile_imp) (fun y hy => ?_) (runsInduction test nil other run _)
      · rw [takeWhile_cons_of_pos hx]
        exact cons_ne_nil _ _
      · have hhead := head?_dropWhile_not test (x :: xs)
        rwa [hy] at hhead
termination_by xs.length
decreasing_by
  · exact Nat.lt_succ_self _
  · rw [dropWhile_cons_of_pos hx]
    exact Nat.lt_succ_of_le (length_dropWhile_le _ _)

lemma runs_other (hx : test x = false) (xs : List α) : runs test (x :: xs) = runs test xs := by
  rw [runs.eq_def]
  simp [hx]

variable {xs : List α}

lemma runs_append (hr : r ≠ []) (hall : ∀ x ∈ r, test x = true)
    (hhead : ∀ x, xs.head? = some x → test x = false) : runs test (r ++ xs) = r :: runs test xs := by
  induction r with
  | nil => exact absurd rfl hr
  | cons x r ih =>
    rw [cons_append, runs.eq_def]
    simp only [hall x (.head _), if_true]
    cases r with
    | nil =>
      cases xs with
      | nil => rfl
      | cons y ys =>
        rw [nil_append, runs_other (hhead y rfl)]
        cases runs test ys <;> simp [hhead y rfl]
    | cons y r =>
      rw [ih (cons_ne_nil _ _) (forall_mem_cons.1 hall).2]
      exact if_pos (hall y (.tail _ (.head _)))

lemma flatten_runs : (runs test xs).flatten = xs.filter test := by
  induction xs using runsInduction test with
  | nil => rfl
  | other x xs hx ih => rw [runs_other hx, ih, filter_cons_of_neg (by simp [hx])]
  | run r xs hr hall hhead ih => rw [runs_append hr hall hhead, flatten_cons, ih, filter_append, filter_eq_self.2 hall]

lemma ne_nil_of_mem_runs (h : r ∈ runs test xs) : r ≠ [] := by
  induction xs using runsInduction test with
  | nil => cases h
  | other x xs hx ih => exact ih (runs_other hx xs ▸ h)
  | run r' xs hr hall hhead ih =>
    rw [runs_append hr hall hhead] at h
    rcases mem_cons.1 h with rfl | h
    · exact hr
    · exact ih h

lemma mem_of_mem_runs (h : r ∈ runs test xs) (hx : x ∈ r) : x ∈ xs ∧ test x = true := by
  rw [← mem_filter, ← flatten_runs]
  exact mem_flatten.2 ⟨r, h, hx⟩

lemma eq_of_mem_runs {xs r' : List α} (hnodup : (xs.filter test).Nodup) (h : r ∈ runs test xs)
    (h' : r' ∈ runs test xs) (hx : x ∈ r) (hx' : x ∈ r') : r = r' := by
  rw [← flatten_runs, nodup_flatten] at hnodup
  have hsymm : Std.Symm (List.Disjoint (α := α)) := ⟨fun _ _ h _ hb ha => h ha hb⟩
  by_contra hne
  exact hnodup.2.forall h h' hne hx hx'

end

/-! ## Bodies with other blocks -/

/-- A body whose blocks of imports have become others, while all other statements are as they were, marks aside. -/
inductive Reordered (Becomes : List Node → List Node → Prop) : List Node → List Node → Prop
  | nil : Reordered Becomes [] []
  | other {s s' : Node} {rest rest' : List Node} : isImportLine s = false → s'.cleared = s.cleared →
      Reordered Becomes rest rest' → Reordered Becomes (s :: rest) (s' :: rest')
  | block {b b' rest rest' : List Node} : b ≠ [] → (∀ l ∈ b, isImportLine l = true) →
      (∀ s, rest.head? = some s → isImportLine s = false) → Becomes b b' →
      Reordered Becomes rest rest' → Reordered Becomes (b ++ rest) (b' ++ rest')

section

variable {Becomes Becomes' : List Node → List Node → Prop} {xs ys : List Node}

lemma rebuildRun_append (isBody : Bool) (ys : List Node) :
    rebuildRun g isBody (xs ++ ys) = do return (← rebuildRun g isBody xs) ++ (← rebuildRun g isBody ys) := by
  induction xs with
  | nil => simp [rebuildRun]
  | cons x xs ih => simp only [cons_append, rebuildRun, ih, bind_assoc, pure_bind, append_assoc]

lemma Reordered.mono
    (h : ∀ b b', b ∈ runs isImportLine xs → Becomes b b' → Becomes' b b') (hreordered : Reordered Becomes xs ys) :
    Reordered Becomes' xs ys := by
  induction hreordered with
  | nil => exact .nil
  | other hs hcleared _ ih =>
    rw [runs_other hs] at h
    exact .other hs hcleared (ih h)
  | block hb hall hhead hbecomes _ ih =>
    rw [runs_append hb hall hhead] at h
    exact .block hb hall hhead (h _ _ (.head _) hbecomes) (ih fun b b' hb => h b b' (.tail _ hb))

lemma Reordered.refl (h : ∀ b ∈ runs isImportLine xs, Becomes b b) : Reordered Becomes xs xs := by
  induction xs using runsInduction isImportLine with
  | nil => exact .nil
  | other s xs hs ih => exact .other hs rfl (ih (runs_other hs xs ▸ h))
  | run b xs hb hall hhead ih =>
    rw [runs_append hb hall hhead] at h
    exact .block hb hall hhead (h b (.head _)) (ih (forall_mem_cons.1 h).2)

lemma exists_reordered (hother : ∀ s ∈ xs, isImportLine s = false → Stays g s)
    (hblock : ∀ b ∈ runs isImportLine xs, ∃ b', rebuildRun g true b = .ok b' ∧ Becomes b b') :
    ∃ ys, rebuildRun g true xs = .ok ys ∧ Reordered Becomes xs ys := by
  induction xs using runsInduction isImportLine with
  | nil => exact ⟨[], rfl, .nil⟩
  | other s xs hs ih =>
    rw [runs_other hs] at hblock
    obtain ⟨ys, hys, hreordered⟩ := ih (forall_mem_cons.1 hother).2 hblock
    have hstays : ∀ c ∈ [s], Stays g c := forall_mem_singleton.2 (hother s (.head _) hs)
    obtain ⟨ms, hms, hmap⟩ := exists_rebuildRun_of_stays true hstays
    obtain ⟨s', rfl, hcleared⟩ := map_eq_singleton_iff.1 hmap
    refine ⟨s' :: ys, ?_, .other hs hcleared hreordered⟩
    rw [← singleton_append, rebuildRun_append, hms, hys]
    rfl
  | run b xs hb hall hhead ih =>
    rw [runs_append hb hall hhead] at hblock
    obtain ⟨ys, hys, hreordered⟩ := ih (fun c hc => hother c (mem_append_right _ hc)) fun b hb => hblock b (.tail _ hb)
    obtain ⟨b', hb', hbecomes⟩ := hblock b (.head _)
    refine ⟨b' ++ ys, ?_, .block hb hall hhead hbecomes hreordered⟩
    rw [rebuildRun_append, hb', hys]
    rfl

end

/-! ## Lines that are replaced -/

section

variable {n d : Node}

def OnLines (module : Node) (rs : List (Nat × Replacement)) : Prop :=
  ∀ m r, (m, r) ∈ rs → ∃ l ∈ module.list .body, isImportLine l = true ∧ l.mark = some m

lemma isFiller_of_isImportLine (h : isImportLine l = true) : l.kind.isFiller = false := by
  rw [isImportLine, Bool.and_eq_true, beq_iff_eq] at h
  rw [h.1]
  rfl

lemma mem_nodes_of_line (hl : l ∈ module.list .body) (hline : isImportLine l = true) : l ∈ module.nodes :=
  (nodesOf_list_sublist module .body).subset
    (mem_nodesOf.2 ⟨l, hl, Node.self_mem_nodes (isFiller_of_isImportLine hline)⟩)

lemma avoids_of_lines (hrs : OnLines n.numbered rs) (hc : c.nodes ⊆ n.numbered.nodes) (horderly : Orderly c)
    (h : ∀ l ∈ c.nodes, l ∈ n.numbered.list .body → isImportLine l = true → replacementOf? rs l = none) :
    Avoids rs c := by
  intro e he
  cases hr : replacementOf? rs e with
  | none => rfl
  | some r =>
    obtain ⟨m, hm, hmem⟩ := mem_of_replacementOf? hr
    obtain ⟨l, hl, hline, hmark⟩ := hrs m r hmem
    have hec : e ∈ c.nodes := mem_nodes_of_mem_met he ((horderly.of_mem_met he).self_mem_nodes hm)
    obtain rfl : e = l := eq_of_mark_eq (hc hec) (mem_nodes_of_line hl hline) (hm.trans hmark.symm)
    rw [← hr, h e hec hl hline]

lemma nodup_nodesOf_body (n : Node) : (nodesOf (n.numbered.list .body)).Nodup :=
  (nodesOf_list_sublist _ _).nodup (nodup_map_mark_numbered n).of_map

lemma subset_of_mem_body (hc : c ∈ module.list .body) : c.nodes ⊆ module.nodes :=
  ((nodes_sublist_nodesOf hc).trans (nodesOf_list_sublist module .body)).subset

lemma orderly_of_mem_body (hc : c ∈ n.numbered.list .body) : Orderly c := by
  rw [list] at hc
  exact ((orderly_number n 0).get .body).of_mem_parts (mem_items hc)

lemma eq_of_line_mem (hc : c ∈ n.numbered.list .body) (hl : l ∈ n.numbered.list .body) (hline : isImportLine l = true)
    (h : l ∈ c.nodes) : c = l :=
  eq_of_shared (nodup_nodesOf_body n) hc hl h (Node.self_mem_nodes (isFiller_of_isImportLine hline))

lemma avoids_of_body (hrs : OnLines n.numbered rs) (hc : c ∈ n.numbered.list .body)
    (h : isImportLine c = true → replacementOf? rs c = none) : Avoids rs c := by
  refine avoids_of_lines hrs (subset_of_mem_body hc) (orderly_of_mem_body hc) fun l hlc hl hline => ?_
  obtain rfl := eq_of_line_mem hc hl hline hlc
  exact h hline

lemma avoids_inside_body (hrs : OnLines n.numbered rs) (hc : c ∈ n.numbered.list .body)
    (hd : d ∈ c.visited) : Avoids rs d := by
  have hmet : d ∈ c.met := visited_subset hd
  refine avoids_of_lines hrs (List.Subset.trans (mem_nodes_of_mem_met hmet) (subset_of_mem_body hc))
    ((orderly_of_mem_body hc).of_mem_met hmet) fun l hld hl hline => ?_
  obtain rfl := eq_of_line_mem hc hl hline (mem_nodes_of_mem_met hmet hld)
  exact absurd (sizeOf_le_of_mem_nodes hld) (Nat.not_le_of_lt (sizeOf_lt_of_mem_visited hd))

lemma whole_of_mem_body (h : Whole module) (hc : c ∈ module.list .body) : Whole c :=
  fun d hd => h d (subset_of_mem_body hc hd)

end

/-! ## Blocks that are replaced -/

section

variable {n l' : Node} {place : String → Section} {bs os : List (List Node)} {r : Replacement} {m : Nat}

/-- What becomes of a line of a block: the first is replaced by all of the ordered block, and the others go. -/
def EditsLine (bs os : List (List Node)) (b : List Node) (l : Node) (r : Replacement) : Prop :=
  (∃ o, (b, o) ∈ bs.zip os ∧ b.head? = some l ∧ r = .whole (.splice o)) ∨ b ∈ bs ∧ l ∈ b.drop 1 ∧ r = .whole .drop

lemma EditsLine.mem (h : EditsLine bs os b l r) : b ∈ bs ∧ l ∈ b := by
  rcases h with ⟨o, hzip, hhead, -⟩ | ⟨hb, hl, -⟩
  · exact ⟨(of_mem_zip hzip).1, mem_of_mem_head? hhead⟩
  · exact ⟨hb, mem_of_mem_drop hl⟩

lemma mem_blockEdits : (m, r) ∈ blockEdits bs os ↔ ∃ b l, l.mark = some m ∧ EditsLine bs os b l r := by
  rw [blockEdits, mem_append, mem_filterMap, mem_filterMap]
  simp only [Option.map_eq_some_iff, Option.bind_eq_some_iff, Prod.mk.injEq, mem_flatMap, Prod.exists]
  constructor
  · rintro (⟨b, o, hzip, _, ⟨l, hl, hm⟩, rfl, rfl⟩ | ⟨l, ⟨b, hb, hl⟩, _, hm, rfl, rfl⟩)
    · exact ⟨b, l, hm, .inl ⟨o, hzip, hl, rfl⟩⟩
    · exact ⟨b, l, hm, .inr ⟨hb, hl, rfl⟩⟩
  · rintro ⟨b, l, hm, ⟨o, hzip, hl, rfl⟩ | ⟨hb, hl, rfl⟩⟩
    · exact .inl ⟨b, o, hzip, m, ⟨l, hl, hm⟩, rfl, rfl⟩
    · exact .inr ⟨l, ⟨b, hb, hl⟩, m, hm, rfl, rfl⟩

lemma replacementOf?_of_unique (hm : c.mark = some m) (hmem : (m, r) ∈ rs) (hunique : ∀ r', (m, r') ∈ rs → r' = r) :
    replacementOf? rs c = some r := by
  have hfind : (rs.reverse.find? (·.1 == m)).isSome = true := by
    rw [find?_isSome]
    exact ⟨(m, r), mem_reverse.2 hmem, beq_self_eq_true m⟩
  obtain ⟨⟨m', r'⟩, hfind⟩ := Option.isSome_iff_exists.1 hfind
  obtain rfl : m' = m := eq_of_beq (find?_some hfind :)
  rw [replacementOf?, hm, Option.bind_some, hfind, Option.map_some]
  exact congrArg some (hunique r' (mem_reverse.1 (mem_of_find?_eq_some hfind)))

variable (hbs : ∀ b ∈ bs, b ∈ blocks n.numbered)

lemma eq_of_line_mark (hl : l ∈ n.numbered.list .body ∧ isImportLine l = true)
    (hl' : l' ∈ n.numbered.list .body ∧ isImportLine l' = true) (h : l.mark = l'.mark) : l = l' :=
  eq_of_mark_eq (mem_nodes_of_line hl.1 hl.2) (mem_nodes_of_line hl'.1 hl'.2) h

lemma nodup_lines (n : Node) : ((n.numbered.list .body).filter isImportLine).Nodup := by
  have hsub : ((n.numbered.list .body).filter isImportLine).Sublist (nodesOf (n.numbered.list .body)) := by
    generalize n.numbered.list .body = body
    induction body with
    | nil => exact .slnil
    | cons c cs ih =>
      rw [nodesOf]
      cases hc : isImportLine c with
      | false =>
        rw [filter_cons_of_neg (by simp [hc])]
        exact ih.trans (sublist_append_right ..)
      | true =>
        rw [filter_cons_of_pos hc, nodes_eq, isFiller_of_isImportLine hc]
        exact (ih.trans (sublist_append_right ..)).cons_cons c
  exact hsub.nodup (nodup_nodesOf_body n)

lemma nodup_of_mem_blocks (h : b ∈ blocks n.numbered) : b.Nodup := by
  have hnodup := nodup_lines n
  rw [← flatten_runs, nodup_flatten] at hnodup
  exact hnodup.1 b h

include hbs

lemma line_of_mem (hb : b ∈ bs) (hl : l ∈ b) :
    l ∈ n.numbered.list .body ∧ isImportLine l = true := mem_of_mem_runs (hbs b hb) hl

lemma onLines_blockEdits : OnLines n.numbered (blockEdits bs os) := by
  intro m r h
  obtain ⟨b, l, hm, hedits⟩ := mem_blockEdits.1 h
  have hline := line_of_mem hbs hedits.mem.1 hedits.mem.2
  exact ⟨l, hline.1, hline.2, hm⟩

lemma eq_of_shared_line {b' : List Node} (hb : b ∈ bs) (hb' : b' ∈ bs) (hl : l ∈ b) (hl' : l' ∈ b')
    (hmark : l.mark = l'.mark) : l = l' ∧ b = b' := by
  have heq := eq_of_line_mark (line_of_mem hbs hb hl) (line_of_mem hbs hb' hl') hmark
  exact ⟨heq, eq_of_mem_runs (nodup_lines n) (hbs b hb) (hbs b' hb') hl (heq ▸ hl')⟩

lemma replacementOf?_of_unchosen (hl : l ∈ n.numbered.list .body ∧ isImportLine l = true) (h : ∀ b ∈ bs, l ∉ b) :
    replacementOf? (blockEdits bs os) l = none := by
  cases hr : replacementOf? (blockEdits bs os) l with
  | none => rfl
  | some r =>
    obtain ⟨m, hm, hmem⟩ := mem_of_replacementOf? hr
    obtain ⟨b, l', hm', hedits⟩ := mem_blockEdits.1 hmem
    obtain ⟨hb, hl'⟩ := hedits.mem
    exact absurd (eq_of_line_mark hl (line_of_mem hbs hb hl') (hm.trans hm'.symm) ▸ hl') (h b hb)

variable (hos : Forall₂ (fun b o => anchored place b = .ok o) bs os)
include hos

omit hbs in
lemma anchored_of_mem_zip (h : (b, o) ∈ bs.zip os) : anchored place b = .ok o := (forall₂_iff_zip.1 hos).2 h

lemma replacementOf?_of_edits (h : EditsLine bs os b l r) : replacementOf? (blockEdits bs os) l = some r := by
  obtain ⟨hb, hl⟩ := h.mem
  have hline := line_of_mem hbs hb hl
  obtain ⟨m, hm⟩ := exists_mark (mem_nodes_of_line hline.1 hline.2)
  refine replacementOf?_of_unique hm (mem_blockEdits.2 ⟨b, l, hm, h⟩) fun r' hr' => ?_
  obtain ⟨b', l', hm', h'⟩ := mem_blockEdits.1 hr'
  obtain ⟨rfl, rfl⟩ := eq_of_shared_line hbs hb h'.mem.1 hl h'.mem.2 (hm.trans hm'.symm)
  have hnot (hhead : b.head? = some l) : l ∉ b.drop 1 := by
    obtain ⟨rest, rfl⟩ := head?_eq_some_iff.1 hhead
    exact (nodup_cons.1 (nodup_of_mem_blocks (hbs _ hb))).1
  rcases h with ⟨o, hzip, hhead, rfl⟩ | ⟨-, hdrop, rfl⟩ <;> rcases h' with ⟨o', hzip', hhead', rfl⟩ | ⟨-, hdrop', rfl⟩
  · cases (anchored_of_mem_zip hos hzip).symm.trans (anchored_of_mem_zip hos hzip')
    rfl
  · exact absurd hdrop' (hnot hhead)
  · exact absurd hdrop (hnot hhead')
  · rfl

end

/-! ## Lines of ordered blocks -/

section

variable {place : String → Section} {P : Node → Prop}

lemma forall_stacked (hP : ∀ line, P line → P (spaced line)) {ss : List (List Node)}
    (h : ∀ line ∈ ss.flatten, P line) : ∀ line ∈ stacked ss, P line := by
  have hspaced (s : List Node) (hs : ∀ line ∈ s, P line) : ∀ line ∈ spacedSection s, P line := by
    cases s with
    | nil => exact hs
    | cons first rest =>
      rw [spacedSection, forall_mem_cons]
      exact ⟨hP first (hs first (.head _)), (forall_mem_cons.1 hs).2⟩
  have hsections : ∀ s ∈ ss.filter (! ·.isEmpty), ∀ line ∈ s, P line := fun s hs line hline =>
    h line (mem_flatten.2 ⟨s, mem_of_mem_filter hs, hline⟩)
  rw [stacked]
  revert hsections
  cases ss.filter (! ·.isEmpty) with
  | nil => exact fun _ _ hline => absurd hline not_mem_nil
  | cons first rest =>
    intro hsections line hline
    rw [forall_mem_cons] at hsections
    rcases mem_append.1 hline with hline | hline
    · exact hsections.1 line hline
    · obtain ⟨s, hs, hline⟩ := mem_flatMap.1 hline
      exact hspaced s (hsections.2 s hs) line hline

lemma forall_anchored (hP : ∀ line leading, P line → P (line.setList .leadingLines leading))
    (hnew : ∀ leading s, P (lineOf leading s)) (h : anchored place b = .ok o) : ∀ line ∈ o, P line := by
  have hplain : ∀ line ∈ plainImports (plainLines b), P line := by
    intro line hline
    obtain ⟨e, -, rfl⟩ := mem_map.1 hline
    exact hnew ..
  have hfrom {os : List Node} (hos : fromImports (fromLines b) = .ok os) : ∀ line ∈ os, P line := by
    obtain ⟨names, hnames, hos⟩ := of_bind hos
    cases hos
    intro line hline
    rcases mem_append.1 hline with hline | hline
    · obtain ⟨e, -, rfl⟩ := mem_map.1 hline
      exact hnew ..
    · obtain ⟨e, -, hline⟩ := exists_of_mem_mapM hnames hline
      obtain ⟨sorted, -, hline⟩ := of_bind hline
      cases hline
      exact hnew ..
  obtain ⟨anchor, rest, first, os, rfl, hordered, rfl⟩ := exists_of_anchored h
  obtain ⟨froms, hfroms, hordered⟩ := of_bind hordered
  obtain ⟨ps, hps, hordered⟩ := of_bind hordered
  obtain ⟨fs, hfs, hordered⟩ := of_bind hordered
  have hlines : ∀ line ∈ first :: os, P line := by
    rw [← Except.ok.inj hordered]
    refine forall_stacked (fun line => hP line _) fun line hline => ?_
    have hperm := perm_flatten_zipWith ((length_of_inSections hps).trans (length_of_inSections hfs).symm)
    rcases mem_append.1 (hperm.mem_iff.1 hline) with hline | hline
    · exact hplain line ((perm_of_inSections hps).mem_iff.1 hline)
    · exact hfrom hfroms line ((perm_of_inSections hfs).mem_iff.1 hline)
  rw [forall_mem_cons] at hlines ⊢
  exact ⟨hP _ _ hlines.1, hlines.2⟩

lemma isSpentLine_of_anchored (h : anchored place b = .ok o) : ∀ line ∈ o, line.isSpentLine = false := by
  refine forall_anchored (P := fun line => line.isSpentLine = false) (fun line leading hline => ?_) (fun _ _ => rfl) h
  rw [← hline, isSpentLine, isSpentLine, Node.setList, kind_set, Node.list, Node.list, get_set_of_ne (by decide)]

end

/-! ## The module around the blocks -/

section

variable {n p : Node} {place : String → Section} {bs os : List (List Node)}

lemma requests_of_mem_blocks (hwhole : Whole n.numbered) (hb : b ∈ blocks n.numbered) : ∀ line ∈ b, requests line ≠ [] := by
  intro line hl
  obtain ⟨hmem, hline⟩ := mem_of_mem_runs hb hl
  obtain ⟨hbody, hkind⟩ := import_of_isImportLine hline
  have hfiller : (importOf line).kind.isFiller = false := by rcases hkind with hkind | hkind <;> rw [hkind] <;> rfl
  refine requests_ne_nil hline (hwhole _ (subset_of_mem_body hmem ((nodesOf_list_sublist line .body).subset ?_)))
  rw [hbody]
  exact mem_nodesOf.2 ⟨_, mem_singleton_self _, Node.self_mem_nodes hfiller⟩

lemma rebuildRun_drop {ls : List Node} (h : ∀ l ∈ ls, g l = .ok .drop) : rebuildRun g true ls = .ok [] := by
  induction ls with
  | nil => rfl
  | cons l ls ih =>
    rw [rebuildRun, h l (.head _), ih (forall_mem_cons.1 h).2]
    rfl

lemma rebuildRun_block (hanchor : g anchor = .ok (.splice o)) (hrest : ∀ l ∈ rest, g l = .ok .drop)
    (ho : ∀ line ∈ o, line.isSpentLine = false) :
    rebuildRun g true (anchor :: rest) = .ok o := by
  have hmembers : (Edit.splice o).members true anchor = o := by
    refine filter_eq_self.2 fun line hline => ?_
    rw [ho line hline]
    rfl
  rw [rebuildRun, hanchor, rebuildRun_drop hrest]
  show Except.ok (_ ++ []) = _
  rw [hmembers, append_nil]

def BecomesOrdered (place : String → Section) (bs : List (List Node)) (b b' : List Node) : Prop :=
  (b ∈ bs → anchored place b = .ok b') ∧ (b ∉ bs → b'.map cleared = b.map cleared)

lemma exists_rebuildRun_body (hwhole : Whole n.numbered) (hbs : ∀ b ∈ bs, b ∈ blocks n.numbered)
    (hos : Forall₂ (fun b o => anchored place b = .ok o) bs os) :
    ∃ body, rebuildRun (replacing (blockEdits bs os)).editing true (n.numbered.list .body) = .ok body ∧
      Reordered (BecomesOrdered place bs) (n.numbered.list .body) body := by
  have hrs : OnLines n.numbered (blockEdits bs os) := onLines_blockEdits hbs
  have hdecided {l : Node} {e : Edit} (hl : l ∈ n.numbered.list .body) :=
    editing_of_whole (e := e) (whole_of_mem_body hwhole hl) fun _ => avoids_inside_body hrs hl
  refine exists_reordered (fun s hs hother => ?_) fun b hb => ?_
  · exact stays_of_avoids (avoids_of_body hrs hs fun hline => absurd (hother.symm.trans hline) Bool.false_ne_true) (whole_of_mem_body hwhole hs)
  · by_cases hchosen : b ∈ bs
    · obtain ⟨anchor, rest, rfl⟩ := exists_cons_of_ne_nil (ne_nil_of_mem_runs hb)
      obtain ⟨o, hzip⟩ : ∃ o, (anchor :: rest, o) ∈ bs.zip os := by
        obtain ⟨i, hi, hget⟩ := getElem_of_mem hchosen
        have hlt : i < os.length := hos.length_eq ▸ hi
        refine ⟨os[i], ?_⟩
        rw [← hget, ← getElem_zip (h := by simp; omega)]
        exact getElem_mem _
      have ho := anchored_of_mem_zip hos hzip
      refine ⟨o, rebuildRun_block ?_ (fun l hl => ?_) (isSpentLine_of_anchored ho), fun _ => ho, fun h => absurd hchosen h⟩
      · exact hdecided (line_of_mem hbs hchosen (.head _)).1 (replacementOf?_of_edits hbs hos (.inl ⟨o, hzip, rfl, rfl⟩))
      · exact hdecided (line_of_mem hbs hchosen (.tail _ hl)).1 (replacementOf?_of_edits hbs hos (.inr ⟨hchosen, hl, rfl⟩))
    · have hstays : ∀ l ∈ b, Stays (replacing (blockEdits bs os)).editing l := by
        intro l hl
        have hline := mem_of_mem_runs hb hl
        refine stays_of_avoids (avoids_of_body hrs hline.1 fun _ => ?_) (whole_of_mem_body hwhole hline.1)
        refine replacementOf?_of_unchosen hbs hline fun c hc hlc => hchosen ?_
        rwa [eq_of_mem_runs (nodup_lines n) hb (hbs c hc) hl hlc]
      obtain ⟨b', hb', hmap⟩ := exists_rebuildRun_of_stays true hstays
      exact ⟨b', hb', fun h => absurd h hchosen, fun _ => hmap⟩

lemma nodes_body (h : (module.get .body).kind = .seq) : (module.get .body).nodes = nodesOf (module.list .body) := by
  rw [list, items_run h, nodes_eq, h]
  rfl

lemma disjoint_body (hmodule : IsModule n.numbered) {header run : Node}
    (hparts : n.numbered.parts = header :: run :: rest) (hp : p ∈ header :: rest) :
    p.nodes.Disjoint (nodesOf (n.numbered.list .body)) := by
  obtain ⟨_, _, _, hparts', rfl, -⟩ := hmodule.exists_parts
  rw [hparts] at hparts'
  cases hparts'
  have hnodup := (nodesOf_parts_sublist n.numbered).nodup (nodup_map_mark_numbered n).of_map
  rw [hparts, nodesOf, nodesOf, nodes_body hmodule.body] at hnodup
  intro a ha ha'
  rcases mem_cons.1 hp with rfl | hp
  · exact disjoint_of_nodup_append hnodup ha (mem_append_left _ ha')
  · exact disjoint_of_nodup_append hnodup.of_append_right ha' (mem_nodesOf.2 ⟨p, hp, ha⟩)

lemma stays_of_disjoint (hrs : OnLines n.numbered rs) (hwhole : Whole n.numbered)
    (hp : p ∈ n.numbered.parts) (hdisjoint : p.nodes.Disjoint (nodesOf (n.numbered.list .body))) (hc : c ∈ p.opened) :
    Stays (replacing rs).editing c := by
  have hcp : c.nodes ⊆ p.nodes := (nodes_sublist_of_mem_opened hc).subset
  have hcn : c.nodes ⊆ n.numbered.nodes := List.Subset.trans hcp (nodes_sublist_of_mem_parts hp).subset
  have horderly := ((orderly_number n 0).of_mem_parts hp).of_mem_opened hc
  refine stays_of_avoids (avoids_of_lines hrs hcn horderly fun l hlc hl hline => ?_) fun d hd => hwhole d (hcn hd)
  exact absurd (mem_nodesOf.2 ⟨l, hl, Node.self_mem_nodes (isFiller_of_isImportLine hline)⟩) (hdisjoint (hcp hlc))

lemma keepsAt_module (hmodule : IsModule n.numbered) (hrs : OnLines n.numbered rs) : (replacing rs).KeepsAt n.numbered := by
  refine replacing_keepsAt ?_
  cases hr : replacementOf? rs n.numbered with
  | none => rfl
  | some r =>
    obtain ⟨m, hm, hmem⟩ := mem_of_replacementOf? hr
    obtain ⟨l, hl, hline, hmark⟩ := hrs m r hmem
    have hself : n.numbered ∈ n.numbered.nodes := Node.self_mem_nodes (by rw [hmodule.kind]; rfl)
    rw [← eq_of_mark_eq hself (mem_nodes_of_line hl hline) (hm.trans hmark.symm), isImportLine, hmodule.kind] at hline
    cases hline

/-- **Putting blocks in order changes these blocks and nothing else.** -/
theorem exists_orderBlocks (hmodule : IsModule n.numbered) (hwhole : Whole n.numbered)
    (hbs : ∀ b ∈ bs, b ∈ blocks n.numbered) (hos : Forall₂ (fun b o => anchored place b = .ok o) bs os) :
    ∃ out, orderBlocks place bs n.numbered = .ok (out, (bs.zip os).map fun (b, o) => isReordered b o) ∧
      Reordered (BecomesOrdered place bs) (n.numbered.list .body) (out.list .body) ∧
      (out.setList .body []).cleared = (n.numbered.setList .body []).cleared := by
  have hrs : OnLines n.numbered (blockEdits bs os) := onLines_blockEdits hbs
  obtain ⟨body, hbody, hreordered⟩ := exists_rebuildRun_body hwhole hbs hos
  obtain ⟨out, hrebuild, rfl, hsame⟩ := hmodule.exists_rebuild hbody fun header run rest hparts p hp c hc => by
    refine stays_of_disjoint hrs hwhole (p := p) ?_ ?_ hc
    · rw [hparts]
      exact (sublist_cons_self run rest).cons_cons header |>.subset hp
    · exact disjoint_body hmodule hparts hp
  have hout : replaceAll (blockEdits bs os) n.numbered = .ok out := by
    refine apply_eq_ok_iff.2 ?_
    rw [editing_eq (replacing_goesIn _), hrebuild]
    exact keepsAt_module hmodule hrs out
  refine ⟨out, ?_, hreordered, hsame⟩
  rw [orderBlocks, mapM_eq_ok_iff.2 hos]
  change (replaceAll _ _ >>= _) = _
  rw [hout]
  rfl

end

end Mender.Import
