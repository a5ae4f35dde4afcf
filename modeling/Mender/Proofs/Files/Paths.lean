import Mender.Files
import Mender.Proofs.Text.Lines

/-!
# Paths and their parts

A path is known by whether it begins at the root and by its parts, and every list of proper parts is the list
of parts of a path. So the plain form and the resolved form of a path are settled by their parts.
-/

namespace Mender.Path

open List

variable {p s dir q : String} {ps up qs : List String}

/-- What can stand between two slashes of a plain path. -/
structure IsPart (s : String) : Prop where
  ne_empty : s ≠ ""
  ne_dot : s ≠ "."
  noSlash : '/' ∉ s.toList

lemma isPart_of_mem_parts (h : s ∈ parts p) : IsPart s := by
  rw [parts, mem_filter] at h
  obtain ⟨h, hs⟩ := h
  simp only [bne_iff_ne, ne_eq, Bool.and_eq_true] at hs
  obtain ⟨l, hl, rfl⟩ := mem_map.1 h
  refine ⟨hs.1, hs.2, ?_⟩
  rw [String.toList_ofList]
  exact Text.notMem_of_mem_piecesOf hl

/-! ## From parts to paths and back -/

lemma filter_isPart (h : ∀ s ∈ ps, IsPart s) : (ps.filter fun s => s != "" && s != ".") = ps := by
  refine filter_eq_self.2 fun s hs => ?_
  simp [(h s hs).ne_empty, (h s hs).ne_dot]

lemma pieces_intercalate (hne : ps ≠ []) (h : ∀ s ∈ ps, IsPart s) : Text.pieces '/' (String.intercalate "/" ps) = ps := by
  have hchars : (String.intercalate "/" ps).toList = ['/'].intercalate (ps.map String.toList) := by
    rw [String.toList_intercalate]
    rfl
  have hslash : ∀ l ∈ ps.map String.toList, '/' ∉ l := by
    intro l hl
    obtain ⟨s, hs, rfl⟩ := mem_map.1 hl
    exact (h s hs).noSlash
  rw [Text.pieces, hchars, Text.piecesOf_intercalate (by simpa using hne) hslash, map_map]
  exact map_id'' (fun s => String.ofList_toList) ps

lemma parts_ofParts (rooted : Bool) (h : ∀ s ∈ ps, IsPart s) : parts (ofParts rooted ps) = ps := by
  by_cases hps : ps = []
  · subst hps
    cases rooted <;> decide
  · have hcut := pieces_intercalate hps h
    cases rooted with
    | false => rw [ofParts, if_neg (by decide), if_neg (by simpa using hps), parts, hcut, filter_isPart h]
    | true =>
      -- the slash in front adds one empty piece
      have hroot : Text.pieces '/' ("/" ++ String.intercalate "/" ps) =
          "" :: Text.pieces '/' (String.intercalate "/" ps) := by
        rw [Text.pieces, String.toList_append]
        rfl
      rw [ofParts, if_pos rfl, parts, hroot, hcut]
      simpa using filter_isPart h

lemma isRooted_iff : isRooted p = true ↔ ∃ rest, p.toList = '/' :: rest := by
  rw [isRooted, String.startsWith_string_iff]
  constructor
  · rintro ⟨rest, h⟩
    exact ⟨rest, h.symm⟩
  · rintro ⟨rest, h⟩
    exact ⟨rest, h.symm⟩

lemma isRooted_ofParts (rooted : Bool) (h : ∀ s ∈ ps, IsPart s) : isRooted (ofParts rooted ps) = rooted := by
  cases rooted with
  | true =>
    rw [isRooted_iff, ofParts, if_pos rfl, String.toList_append]
    exact ⟨_, rfl⟩
  | false =>
    rw [Bool.eq_false_iff, Ne, isRooted_iff]
    rintro ⟨rest, hrest⟩
    cases ps with
    | nil => exact absurd hrest (by simp [ofParts])
    | cons s ps =>
      rw [ofParts, if_neg (by decide), if_neg (by simp)] at hrest
      -- the first part is not empty, so the path begins with its first character
      have hs := h s (.head _)
      cases hcs : s.toList with
      | nil => exact hs.ne_empty (String.toList_eq_nil_iff.1 hcs)
      | cons c cs =>
        have hc : c = '/' := by
          cases ps <;> simp_all [intercalate]
        exact hs.noSlash (hcs ▸ hc ▸ mem_cons_self ..)

lemma parts_plain : parts (plain p) = parts p := parts_ofParts _ fun _ => isPart_of_mem_parts

lemma isRooted_plain : isRooted (plain p) = isRooted p := isRooted_ofParts _ fun _ => isPart_of_mem_parts

lemma resolved_plain (p : String) : resolved (plain p) = resolved p := by
  rw [resolved, parts_plain, isRooted_plain, resolved]

/-! ## Parts that lead upwards -/

lemma mem_of_mem_climb (h : s ∈ climb up ps) : s ∈ up ∨ s ∈ ps := by
  fun_induction climb up ps with
  | case1 up => exact .inl (mem_reverse.1 h)
  | case2 ps ih => exact .inr (.tail _ ((ih h).resolve_left not_mem_nil))
  | case3 q up ps ih => exact (ih h).imp (mem_cons_of_mem _) (mem_cons_of_mem _)
  | case4 up q ps _ _ ih =>
    rcases ih h with h | h
    · rcases mem_cons.1 h with rfl | h
      · exact .inr (.head _)
      · exact .inl h
    · exact .inr (.tail _ h)

lemma ne_upward (hroot : up = [] → q = ".." → False) (hup : ∀ u us, up = u :: us → q = ".." → False) : q ≠ ".." := by
  cases up with
  | nil => exact hroot rfl
  | cons u us => exact hup u us rfl

lemma upward_notMem_climb (h : ".." ∉ up) : ".." ∉ climb up ps := by
  fun_induction climb up ps with
  | case1 up => rwa [mem_reverse]
  | case2 ps ih => exact ih h
  | case3 q up ps ih => exact ih fun hm => h (.tail _ hm)
  | case4 up q ps hroot hup ih =>
    exact ih fun hm => (mem_cons.1 hm).elim (ne_upward hroot hup ·.symm) h

lemma climb_cons_of_ne (hq : q ≠ "..") (up ps : List String) : climb up (q :: ps) = climb (q :: up) ps := by
  cases up <;> simp [climb, hq]

lemma climb_append (up ps : List String) (h : ".." ∉ qs) : climb up (ps ++ qs) = climb up ps ++ qs := by
  fun_induction climb up ps with
  | case1 up =>
    induction qs generalizing up with
    | nil => simp [climb]
    | cons q qs ih =>
      have hq : q ≠ ".." := fun hq => h (hq ▸ mem_cons_self ..)
      rw [nil_append, climb_cons_of_ne hq, ← nil_append qs, ih (fun hm => h (.tail _ hm))]
      simp
  | case2 ps ih => exact ih
  | case3 q up ps ih => exact ih
  | case4 up q ps hroot hup ih =>
    rw [cons_append, climb_cons_of_ne (ne_upward hroot hup), ih]

lemma climb_of_downward (h : ".." ∉ ps) : climb [] ps = ps := by
  simpa [climb] using climb_append [] [] h

lemma isPart_of_mem_climb (h : s ∈ climb [] (parts p)) : IsPart s :=
  isPart_of_mem_parts ((mem_of_mem_climb h).resolve_left not_mem_nil)

lemma parts_resolved : parts (resolved p) = climb [] (parts p) := parts_ofParts _ fun _ => isPart_of_mem_climb

/-- Resolving a path keeps its name, unless that leads upwards. -/
theorem name_resolved (h : name p ≠ "..") : name (resolved p) = name p := by
  rw [name, name, parts_resolved]
  rw [name] at h
  rcases eq_nil_or_concat (parts p) with hparts | ⟨init, last, hparts⟩
  · rw [hparts]
    rfl
  · rw [hparts, concat_eq_append, getLast?_concat] at h
    have hlast : ".." ∉ [last] := fun hm => h (mem_singleton.1 hm).symm
    rw [hparts, concat_eq_append, climb_append _ _ hlast, getLast?_concat, getLast?_concat]

lemma isRooted_resolved : isRooted (resolved p) = isRooted p := isRooted_ofParts _ fun _ => isPart_of_mem_climb

lemma upward_notMem_resolved (p : String) : ".." ∉ parts (resolved p) := by
  rw [parts_resolved]
  exact upward_notMem_climb not_mem_nil

lemma resolved_resolved : resolved (resolved p) = resolved p := by
  rw [resolved, parts_resolved, isRooted_resolved, climb_of_downward (upward_notMem_climb not_mem_nil), resolved]

/-! ## Paths below a directory -/

lemma parts_join (h : ∀ s ∈ ps, IsPart s) : parts (join dir (ofParts false ps)) = parts dir ++ ps := by
  rw [join, if_neg (by rw [isRooted_ofParts false h]; decide), parts_ofParts false h, parts_ofParts]
  intro s hs
  exact (mem_append.1 hs).elim isPart_of_mem_parts (h s)

lemma eq_of_resolved_join (hps : ∀ s ∈ ps, IsPart s) (hqs : ∀ s ∈ qs, IsPart s) (hp : ".." ∉ ps) (hq : ".." ∉ qs)
    (h : resolved (join dir (ofParts false ps)) = resolved (join dir (ofParts false qs))) : ps = qs := by
  have hparts := congrArg parts h
  rw [parts_resolved, parts_resolved, parts_join hps, parts_join hqs, climb_append _ _ hp, climb_append _ _ hq] at hparts
  exact append_cancel_left hparts

end Mender.Path
