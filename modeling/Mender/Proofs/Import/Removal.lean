import Mender.Import.Unused
import Mender.Proofs.Edit.Heads

/-!
# Taking names out of import statements

Import statements lose the names that are to go, and go themselves with all their names. Everything else is put together
again from what becomes of the nodes in it, and that can always be done (`exists_editing`).

* `removal_exact` — what becomes of the lines of a module.
-/

namespace Mender.Import

open Syntax Node Edit Pass List

variable {gone : List Node} {n new : Node}

/-- Is it an import that lists names? -/
def isListing (s : Node) : Bool := isImport s.kind && (s.get .names).kind != .importStar

/-- The aliases of a statement that do not go. -/
def others (gone : List Node) (s : Node) : List Node := s.aliases.filter fun a => ! gone.any (·.identical a)

lemma isMarked_eq (gone : List Node) (a : Node) : isMarked (gone.filterMap mark) a = gone.any (·.identical a) := by
  rw [isMarked, Bool.eq_iff_iff, any_eq_true]
  cases hm : a.mark with
  | none => simp [identical, hm]
  | some m =>
    simp only [Option.map_some, Option.getD_some, contains_iff_mem, mem_filterMap]
    refine exists_congr fun b => and_congr_right fun _ => ?_
    cases hb : b.mark <;> simp [identical, hm, hb]

def cutting (gone : List Node) : Pass Unit := dropping (gone.filterMap mark)

lemma leaving_cutting (gone : List Node) (old new : Node) : (cutting gone).leaving old new =
    if isListing old then
      if (others gone old).isEmpty then .ok .drop
      else if (others gone old).length != old.aliases.length then
        .keep <$> (new.setList .names (endAliases (others gone old))).sound
      else .ok (.keep new)
    else .ok (.keep new) := by
  have hothers : (old.aliases.filter fun a => ! isMarked (gone.filterMap mark) a) = others gone old := by
    simp only [isMarked_eq, others]
  rw [leaving, cutting, dropping, isListing, isImport]
  simp only [hothers]
  split
  · split
    · rfl
    · split
      · exact (Step.result_bind _ _).trans (congrArg (· >>= _) (Step.result_lift _))
      · rfl
  · rfl

lemma of_isListing (h : isListing n = true) : isInner n.kind = false ∧ isFrame n.kind = false ∧ isImport n.kind = true := by
  have hkind := (Bool.and_eq_true_iff.1 h).1
  generalize n.kind = k at hkind
  revert hkind
  cases k <;> decide

/-! ## Statements with fewer names -/

section

variable (h : isListing n = true) (hflaw : n.flaw? = none)
include h hflaw

lemma aliases_ne_nil : n.aliases ≠ [] := by
  intro hnil
  rw [isListing, isImport, Bool.and_eq_true, Bool.or_eq_true, beq_iff_eq, beq_iff_eq] at h
  obtain ⟨hkind | hkind, hstar⟩ := h <;> simp_all [Node.flaw?, flaws, aliases]

end

/-! ## Nodes around statements -/

lemma stays_of_others (hwhole : Whole n) (h : ∀ c ∈ n.met, isListing c = true → others gone c = c.aliases) :
    Stays (cutting gone).editing n := by
  refine stays_of_keepsAt (fun _ => rfl) (fun c hc new => ?_) hwhole
  rw [leaving_cutting]
  split
  next hlisting => simp [h c hc hlisting, aliases_ne_nil hlisting (hwhole.of_mem_met hc).flaw?]
  next => rfl

lemma isListing_of_inner (h : MadeOf isInner n) : isListing n = false :=
  Bool.eq_false_iff.2 fun hlisting => Bool.eq_false_iff.1 (of_isListing hlisting).1 h.kind

variable (gone)

lemma exists_rebuild_of_inner (hwhole : Whole n) (h : ∀ c ∈ n.visited, MadeOf isInner c) :
    ∃ new, n.rebuild (cutting gone).editing = .ok new ∧ Unchanged n new :=
  exists_rebuild hwhole.flaw? fun c hc => stays_of_others (hwhole.of_mem_visited hc) fun d hd hlisting => by
    rw [isListing_of_inner ((h c hc).of_mem_met hd)] at hlisting
    cases hlisting

section

variable (hn : Settled n ∨ MadeOf isInner n) (hwhole : Whole n)
include hn hwhole

lemma exists_leaving (h : isListing n = true) : ∃ new, Unchanged n new ∧ (cutting gone).editing n = (cutting gone).leaving n new := by
  obtain ⟨hinner, hframe, -⟩ := of_isListing h
  have hsettled : Settled n := hn.resolve_right fun h => Bool.eq_false_iff.1 hinner h.kind
  obtain ⟨new, hnew, hsame⟩ := exists_rebuild_of_inner gone hwhole fun c => hsettled.inner_of_mem_visited hframe
  exact ⟨new, hsame, by rw [editing_eq fun _ => rfl, hnew]; rfl⟩

end

end Mender.Import
