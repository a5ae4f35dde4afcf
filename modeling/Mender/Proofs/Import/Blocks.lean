import Mender.Proofs.Import.Requests
import Mender.Proofs.Syntax.Passes

/-!
# Blocks of imports in order

A block that is put in order asks for what it asked for before, each thing once (`asksOnce_of_anchored`). It can be put
in order exactly if the names that have to be compared can be compared (`anchored_isOk_iff`).
-/

namespace Mender.Import

open Syntax List

variable {line : Node} {r : Request} {rs rs' : List Request} {place : String → Section} {α : Type} {f : Node → List α}

/-! ## Sections -/

section

variable {lines : List Node} {ss : List (List Node)}

lemma mem_inOrder (s : Section) : s ∈ Section.inOrder := by cases s <;> decide

lemma perm_of_inSections (h : inSections place lines = .ok ss) : ss.flatten.Perm lines := by
  have hsections : ss.flatten.Perm (Section.inOrder.flatMap fun s => lines.filter fun line => place (moduleOn line) == s) := by
    have hsorted := mapM_eq_ok_iff.1 h
    clear h
    generalize Section.inOrder = order at hsorted
    induction hsorted with
    | nil => exact .refl _
    | cons hs _ ih =>
      exact (Text.perm_of_sortNaturally hs).append ih
  have hnodup : Section.inOrder.Nodup := by decide
  refine hsections.trans ((perm_flatMap_filter (fun line => place (moduleOn line)) lines hnodup).trans (.of_eq ?_))
  exact filter_eq_self.2 fun line _ => decide_eq_true (mem_inOrder _)

lemma length_of_inSections (h : inSections place lines = .ok ss) : ss.length = Section.inOrder.length :=
  (mapM_eq_ok_iff.1 h).length_eq.symm

lemma inSections_isOk_iff : (inSections place lines).isOk = true ↔
    ∀ l ∈ lines, ∀ l' ∈ lines, place (moduleOn l) = place (moduleOn l') →
      Text.Comparable (moduleOn l) (moduleOn l') := by
  rw [inSections, mapM_isOk_iff]
  simp only [inSection, Text.sortNaturally_isOk_iff, mem_filter, beq_iff_eq]
  constructor
  · intro h l hl l' hl' hplace
    exact h (place (moduleOn l)) (mem_inOrder _) l ⟨hl, rfl⟩ l' ⟨hl', hplace.symm⟩
  · rintro h s - l ⟨hl, rfl⟩ l' ⟨hl', hplace⟩
    exact h l hl l' hl' hplace.symm

end

/-! ## Lines one below the other -/

lemma importOf_setLeading (leading : List Node) : importOf (line.setList .leadingLines leading) = importOf line := by
  rw [importOf, importOf, Node.list, Node.list, Node.setList, Node.get_set_of_ne (by decide)]

lemma requests_setLeading (line : Node) (leading : List Node) :
    requests (line.setList .leadingLines leading) = requests line := by
  rw [requests, requests, importOf_setLeading]

lemma flatMap_stacked (hf : ∀ line, f (spaced line) = f line) (ss : List (List Node)) :
    (stacked ss).flatMap f = ss.flatten.flatMap f := by
  have hfilter : (ss.filter (! ·.isEmpty)).flatten = ss.flatten := by
    induction ss with
    | nil => rfl
    | cons s ss ih => cases s <;> simp [ih]
  have hspaced (s : List Node) : (spacedSection s).flatMap f = s.flatMap f := by
    cases s with
    | nil => rfl
    | cons line rest => rw [spacedSection, flatMap_cons, flatMap_cons, hf]
  rw [← hfilter, stacked]
  cases ss.filter (! ·.isEmpty) with
  | nil => rfl
  | cons first rest =>
    rw [flatten_cons, flatMap_append, flatMap_append, flatMap_assoc, ← flatMap_id, flatMap_assoc]
    simp only [hspaced, id_eq]

/-! ## Blocks -/

variable {block o lines : List Node}

lemma kind_of_plainLines (h : line ∈ plainLines block) : (importOf line).kind = .importStatement := by
  simpa using (mem_filter.1 h).2

lemma kind_of_fromLines (h : line ∈ fromLines block) : (importOf line).kind = .importFrom := by
  simpa using (mem_filter.1 h).2

lemma requests_of_other (hplain : (importOf line).kind ≠ .importStatement)
    (hfrom : (importOf line).kind ≠ .importFrom) : requests line = [] := by
  rw [requests, requestsOf]
  split <;> [exact absurd ‹_› hplain; exact absurd ‹_› hfrom; rfl]

lemma mem_requests_iff : r ∈ block.flatMap requests ↔
    r ∈ (plainLines block).flatMap requests ∨ r ∈ (fromLines block).flatMap requests := by
  simp only [plainLines, fromLines, mem_flatMap, mem_filter, beq_iff_eq]
  constructor
  · rintro ⟨line, hline, hr⟩
    by_cases hplain : (importOf line).kind = .importStatement
    · exact .inl ⟨line, ⟨hline, hplain⟩, hr⟩
    · by_cases hfrom : (importOf line).kind = .importFrom
      · exact .inr ⟨line, ⟨hline, hfrom⟩, hr⟩
      · rw [requests_of_other hplain hfrom] at hr
        cases hr
  · rintro (⟨line, ⟨hline, -⟩, hr⟩ | ⟨line, ⟨hline, -⟩, hr⟩) <;> exact ⟨line, hline, hr⟩

lemma wanted_plainLines (h : r ∈ (plainLines block).flatMap requests) : r.wanted = .module := by
  obtain ⟨line, hline, hr⟩ := mem_flatMap.1 h
  exact wanted_plain (kind_of_plainLines hline) hr

lemma wanted_fromLines (h : r ∈ (fromLines block).flatMap requests) : r.wanted ≠ .module := by
  obtain ⟨line, hline, hr⟩ := mem_flatMap.1 h
  cases hstar : isStarLine line with
  | true => simp [wanted_star (kind_of_fromLines hline) hstar hr]
  | false =>
    obtain ⟨s, hs⟩ := wanted_names (kind_of_fromLines hline) hstar hr
    simp [hs]

lemma AsksOnce.append {ls ls' : List Node} (h : AsksOnce ls rs) (h' : AsksOnce ls' rs') (hne : ∀ r ∈ rs, r ∉ rs') :
    AsksOnce (ls ++ ls') (rs ++ rs') := by
  rw [AsksOnce, flatMap_append, nodup_append]
  refine ⟨⟨h.1, h'.1, ?_⟩, fun r => by rw [mem_append, mem_append, h.2, h'.2]⟩
  rintro r hr _ hr' rfl
  exact hne r ((h.2 r).1 hr) ((h'.2 r).1 hr')

lemma AsksOnce.perm {ls ls' : List Node} (h : AsksOnce ls rs)
    (hperm : (ls'.flatMap requests).Perm (ls.flatMap requests)) (heq : ∀ r, r ∈ rs ↔ r ∈ rs') : AsksOnce ls' rs' :=
  ⟨hperm.nodup_iff.2 h.1, fun r => by rw [hperm.mem_iff, h.2, heq]⟩

lemma star_of_mem_filter (h : line ∈ (fromLines block).filter isStarLine) :
    (importOf line).kind = .importFrom ∧ isStarLine line = true := by
  obtain ⟨hline, hstar⟩ := mem_filter.1 h
  exact ⟨kind_of_fromLines hline, hstar⟩

lemma names_of_mem_filter (h : line ∈ (fromLines block).filter (! isStarLine ·)) :
    (importOf line).kind = .importFrom ∧ isStarLine line = false := by
  obtain ⟨hline, hstar⟩ := mem_filter.1 h
  exact ⟨kind_of_fromLines hline, by simpa using hstar⟩

lemma asksOnce_of_fromImports (h : fromImports (fromLines block) = .ok o) :
    AsksOnce o ((fromLines block).flatMap requests) := by
  obtain ⟨names, hnames, h⟩ := of_bind h
  cases h
  have hstars := asksOnce_starImports fun line (hline : line ∈ (fromLines block).filter isStarLine) =>
    star_of_mem_filter hline
  refine (hstars.append (asksOnce_nameImports (fun line => names_of_mem_filter) hnames) ?_).perm (.refl _) fun r => ?_
  · intro r hr hr'
    obtain ⟨line, hline, hr⟩ := mem_flatMap.1 hr
    obtain ⟨line', hline', hr'⟩ := mem_flatMap.1 hr'
    have hall := wanted_star (star_of_mem_filter hline).1 (star_of_mem_filter hline).2 hr
    obtain ⟨s, hs⟩ := wanted_names (names_of_mem_filter hline').1 (names_of_mem_filter hline').2 hr'
    rw [hall] at hs
    cases hs
  · rw [← flatMap_append]
    exact ((filter_append_perm isStarLine (fromLines block)).flatMap_right requests).mem_iff

lemma perm_of_orderBlock (hf : ∀ line, f (spaced line) = f line)
    (h : orderBlock place block = .ok o) : ∃ froms, fromImports (fromLines block) = .ok froms ∧
      (o.flatMap f).Perm ((plainImports (plainLines block) ++ froms).flatMap f) := by
  obtain ⟨froms, hfroms, h⟩ := of_bind h
  obtain ⟨ps, hps, h⟩ := of_bind h
  obtain ⟨fs, hfs, h⟩ := of_bind h
  cases h
  refine ⟨froms, hfroms, ?_⟩
  rw [flatMap_stacked hf]
  refine Perm.flatMap_right _ ((perm_flatten_zipWith ?_).trans ?_)
  · rw [length_of_inSections hps, length_of_inSections hfs]
  · exact (perm_of_inSections hps).append (perm_of_inSections hfs)

lemma asksOnce_of_orderBlock (h : orderBlock place block = .ok o) : AsksOnce o (block.flatMap requests) := by
  obtain ⟨froms, hfroms, hperm⟩ := perm_of_orderBlock (fun line => requests_setLeading line _) h
  have hplain := asksOnce_plainImports fun line (hline : line ∈ plainLines block) => kind_of_plainLines hline
  refine (hplain.append (asksOnce_of_fromImports hfroms) ?_).perm hperm fun r => ?_
  · exact fun r hr hr' => wanted_fromLines hr' (wanted_plainLines hr)
  · rw [mem_append, @mem_requests_iff _ block]

/-! ## What can be put in order -/

/-- Can imports that ask for this be put in order? Modules of one section are compared, plain imports and from-imports
apart, and so are names of one module. -/
structure Orderable (place : String → Section) (rs : List Request) : Prop where
  modules : ∀ r ∈ rs, ∀ r' ∈ rs, (r.wanted = .module ↔ r'.wanted = .module) → place r.module = place r'.module →
    Text.Comparable r.module r'.module
  names : ∀ r ∈ rs, ∀ r' ∈ rs, r.module = r'.module → ∀ s s', r.wanted = .name s → r'.wanted = .name s' →
    Text.Comparable s s'

lemma inSections_isOk_iff_requests (h : ∀ line ∈ lines, HasModule line) : (inSections place lines).isOk = true ↔
      ∀ r ∈ lines.flatMap requests, ∀ r' ∈ lines.flatMap requests, place r.module = place r'.module →
        Text.Comparable r.module r'.module := by
  rw [inSections_isOk_iff]
  simp only [mem_flatMap]
  constructor
  · rintro hlines r ⟨l, hl, hr⟩ r' ⟨l', hl', hr'⟩
    rw [(h l hl).2 r hr, (h l' hl').2 r' hr']
    exact hlines l hl l' hl'
  · intro hrequests l hl l' hl'
    obtain ⟨r, hr⟩ := exists_mem_of_ne_nil _ (h l hl).1
    obtain ⟨r', hr'⟩ := exists_mem_of_ne_nil _ (h l' hl').1
    have hcompared := hrequests r ⟨l, hl, hr⟩ r' ⟨l', hl', hr'⟩
    rwa [(h l hl).2 r hr, (h l' hl').2 r' hr'] at hcompared

lemma orderBlock_isOk_iff_exists : (orderBlock place block).isOk = true ↔
    (inSections place (plainImports (plainLines block))).isOk = true ∧
      ∃ froms, fromImports (fromLines block) = .ok froms ∧ (inSections place froms).isOk = true := by
  simp only [orderBlock, bind_isOk_iff]
  constructor
  · rintro ⟨froms, hfroms, plain, hplain, sections, hsections, -⟩
    exact ⟨isOk_iff_exists.2 ⟨plain, hplain⟩, froms, hfroms, isOk_iff_exists.2 ⟨sections, hsections⟩⟩
  · rintro ⟨hplain, froms, hfroms, hsections⟩
    obtain ⟨plain, hplain⟩ := exists_of_isOk hplain
    obtain ⟨sections, hsections⟩ := exists_of_isOk hsections
    exact ⟨froms, hfroms, plain, hplain, sections, hsections, rfl⟩

lemma fromImports_isOk_iff : (fromImports (fromLines block)).isOk = true ↔
    ∀ r ∈ (fromLines block).flatMap requests, ∀ r' ∈ (fromLines block).flatMap requests, r.module = r'.module →
      ∀ s s', r.wanted = .name s → r'.wanted = .name s' → Text.Comparable s s' := by
  have hnames (r : Request) (s : String) (hs : r.wanted = .name s) : r ∈ (fromLines block).flatMap requests ↔
      r ∈ ((fromLines block).filter (! isStarLine ·)).flatMap requests := by
    simp only [mem_flatMap, mem_filter]
    refine ⟨?_, fun ⟨line, ⟨hline, _⟩, hr⟩ => ⟨line, hline, hr⟩⟩
    rintro ⟨line, hline, hr⟩
    refine ⟨line, ⟨hline, Bool.not_eq_eq_eq_not.2 (Bool.eq_false_iff.2 fun hstar => ?_)⟩, hr⟩
    rw [wanted_star (kind_of_fromLines hline) hstar hr] at hs
    cases hs
  have hok : (fromImports (fromLines block)).isOk =
      (nameImports ((fromLines block).filter (! isStarLine ·))).isOk := by
    rw [fromImports]
    cases nameImports ((fromLines block).filter (! isStarLine ·)) <;> rfl
  rw [hok, nameImports_isOk_iff fun line => names_of_mem_filter]
  constructor
  · intro h r hr r' hr' hmodule s s' hs hs'
    exact h r ((hnames r s hs).1 hr) r' ((hnames r' s' hs').1 hr') hmodule s s' hs hs'
  · intro h r hr r' hr' hmodule s s' hs hs'
    exact h r ((hnames r s hs).2 hr) r' ((hnames r' s' hs').2 hr') hmodule s s' hs hs'

section

variable (h : ∀ line ∈ block, requests line ≠ [])
include h

lemma hasModule_of_fromImports (ho : fromImports (fromLines block) = .ok o) : ∀ line ∈ o, HasModule line := by
  obtain ⟨names, hnames, ho⟩ := of_bind ho
  cases ho
  intro line hline
  rcases mem_append.1 hline with hline | hline
  · exact hasModule_starImports line hline
  · refine hasModule_of_nameImports (fun old hold haliases => ?_) hnames line hline
    obtain ⟨hkind, hstar⟩ := names_of_mem_filter hold
    refine h old (mem_of_mem_filter (mem_of_mem_filter hold)) ?_
    rw [requests_names hkind hstar, haliases]
    rfl

lemma orderBlock_isOk_iff : (orderBlock place block).isOk = true ↔ Orderable place (block.flatMap requests) := by
  have hplain := asksOnce_plainImports fun line (hline : line ∈ plainLines block) => kind_of_plainLines hline
  rw [orderBlock_isOk_iff_exists, inSections_isOk_iff_requests hasModule_plainImports]
  simp only [hplain.2]
  constructor
  · rintro ⟨hplains, froms, hfroms, hsections⟩
    rw [inSections_isOk_iff_requests (hasModule_of_fromImports h hfroms)] at hsections
    simp only [(asksOnce_of_fromImports hfroms).2] at hsections
    have hnames := fromImports_isOk_iff.1 (isOk_iff_exists.2 ⟨froms, hfroms⟩)
    refine ⟨fun r hr r' hr' hboth hplace => ?_, fun r hr r' hr' hmodule s s' hs hs' => ?_⟩
    · rcases mem_requests_iff.1 hr with hr | hr <;> rcases mem_requests_iff.1 hr' with hr' | hr'
      · exact hplains r hr r' hr' hplace
      · exact absurd (hboth.1 (wanted_plainLines hr)) (wanted_fromLines hr')
      · exact absurd (hboth.2 (wanted_plainLines hr')) (wanted_fromLines hr)
      · exact hsections r hr r' hr' hplace
    · have hfrom {r : Request} {s : String} (hr : r ∈ block.flatMap requests) (hs : r.wanted = .name s) :
          r ∈ (fromLines block).flatMap requests :=
        (mem_requests_iff.1 hr).resolve_left fun hr => by rw [wanted_plainLines hr] at hs; cases hs
      exact hnames r (hfrom hr hs) r' (hfrom hr' hs') hmodule s s' hs hs'
  · rintro ⟨hmodules, hnames⟩
    have hfroms := fromImports_isOk_iff.2 fun r hr r' hr' =>
      hnames r (mem_requests_iff.2 (.inr hr)) r' (mem_requests_iff.2 (.inr hr'))
    obtain ⟨froms, hfroms⟩ := exists_of_isOk hfroms
    refine ⟨fun r hr r' hr' => ?_, froms, hfroms, ?_⟩
    · refine hmodules r (mem_requests_iff.2 (.inl hr)) r' (mem_requests_iff.2 (.inl hr')) ?_
      exact iff_of_true (wanted_plainLines hr) (wanted_plainLines hr')
    · rw [inSections_isOk_iff_requests (hasModule_of_fromImports h hfroms)]
      simp only [(asksOnce_of_fromImports hfroms).2]
      intro r hr r' hr'
      refine hmodules r (mem_requests_iff.2 (.inr hr)) r' (mem_requests_iff.2 (.inr hr')) ?_
      exact iff_of_false (wanted_fromLines hr) (wanted_fromLines hr')

end

/-! ## What stands above a block -/

lemma exists_of_anchored (h : anchored place block = .ok o) :
    ∃ anchor rest first os, block = anchor :: rest ∧ orderBlock place block = .ok (first :: os) ∧
      o = first.setList .leadingLines ((splitLeading anchor).1 ++ first.list .leadingLines) :: os := by
  obtain ⟨ordered, hordered, h⟩ := of_bind h
  cases block with
  | nil => cases h
  | cons anchor rest =>
    cases ordered with
    | nil => cases h
    | cons first os =>
      cases h
      exact ⟨anchor, rest, first, os, rfl, hordered, rfl⟩

lemma asksOnce_of_anchored (h : anchored place block = .ok o) : AsksOnce o (block.flatMap requests) := by
  obtain ⟨anchor, rest, first, os, rfl, hordered, rfl⟩ := exists_of_anchored h
  refine (asksOnce_of_orderBlock hordered).perm (.of_eq ?_) fun _ => .rfl
  rw [flatMap_cons, flatMap_cons, requests_setLeading]

lemma anchored_isOk_iff (hblock : block ≠ []) (h : ∀ line ∈ block, requests line ≠ []) :
    (anchored place block).isOk = true ↔ Orderable place (block.flatMap requests) := by
  rw [← orderBlock_isOk_iff h, isOk_iff_exists, isOk_iff_exists]
  constructor
  · rintro ⟨o, ho⟩
    obtain ⟨_, _, first, os, -, hordered, -⟩ := exists_of_anchored ho
    exact ⟨_, hordered⟩
  · rintro ⟨ordered, hordered⟩
    obtain ⟨anchor, rest, rfl⟩ := exists_cons_of_ne_nil hblock
    cases ordered with
    | nil =>
      -- nothing is left of a block that asks for something
      obtain ⟨r, hr⟩ := exists_mem_of_ne_nil _ (h anchor (.head _))
      have hmem : r ∈ (anchor :: rest).flatMap requests := mem_flatMap.2 ⟨anchor, mem_cons_self .., hr⟩
      cases ((asksOnce_of_orderBlock hordered).2 r).2 hmem
    | cons first os => exact ⟨_, by rw [anchored, hordered]; rfl⟩

end Mender.Import
