import Mathlib.Data.List.Nodup
import Mender.Edit.Call
import Mender.Proofs.Syntax.Passes

/-!
# Arguments that are wished for

The wishes are used up one by one while the arguments are gone through (`replaceMatching_cons`). If no keyword comes twice on
either side, that is the same as to look for the wish of each argument among all of them (`replaceMatching_eq`).

* `replaceArgs_updates` — what becomes of arguments, wishes and their order.
-/

namespace Mender.Edit

open Syntax List NewArg

variable {a b : Node} {args : List Node} {v w : NewArg} {ws : List NewArg} {e : Option Node}

/-- Is an argument the one that a wish is about? -/
def isFor (a : Node) (w : NewArg) : Bool := hasKeyword w.keyword a

/-- The argument that a wish asks for, from the old one if there is one. -/
def NewArg.make (w : NewArg) (existing : Option Node) : Except Fault Node := makeArg w.value (some w.keyword) existing

/-- What becomes of an argument: one that a wish is for gets the value and keeps its equals sign. -/
def renewed (ws : List NewArg) (a : Node) : Except Fault Node := (ws.find? (isFor a)).elim (pure a) (·.make (some a))

/-- The wishes that no argument is for. -/
def unmet (args : List Node) (ws : List NewArg) : List NewArg := ws.filter fun w => ! args.any (isFor · w)

lemma takeWish_eq : takeWish a ws = (ws.find? (isFor a)).map (·, ws.eraseP (isFor a)) := by
  induction ws with
  | nil => rfl
  | cons w ws ih =>
    rw [takeWish, ← isFor]
    cases h : isFor a w
    · simp [h, ih, Function.comp_def]
    · simp [h]

lemma replaceMatching_cons : replaceMatching (a :: args) ws = do
      let new ← renewed ws a
      let (news, left) ← replaceMatching args (ws.eraseP (isFor a))
      return (new :: news, left) := by
  rw [replaceMatching, takeWish_eq, renewed]
  cases hfind : ws.find? (isFor a) with
  | none =>
    rw [eraseP_of_forall_not (find?_eq_none.1 hfind)]
    rfl
  | some w => rfl

/-! ## Keywords -/

/-- The keyword of an argument. -/
def keyword? (a : Node) : Option String := if (a.get .keyword).kind = .name then some (a.get .keyword).text else none

/-- The keywords of arguments, in order. -/
def keywords (args : List Node) : List String := args.filterMap keyword?

lemma isFor_iff : isFor a w = true ↔ keyword? a = some w.keyword := by
  simp [isFor, hasKeyword, keyword?]

lemma mem_keywords : w.keyword ∈ keywords args ↔ args.any (isFor · w) = true := by
  simp only [keywords, mem_filterMap, any_eq_true, isFor_iff]

lemma of_make (h : w.make e = .ok b) :
    keyword? b = some w.keyword ∧ expression w.value = .ok (b.get .value) ∧ w.make (some b) = .ok b := by
  have hmade := h
  obtain ⟨_, -, h⟩ := of_bind h
  obtain ⟨v, hv, h⟩ := of_bind h
  obtain ⟨k, hname, h⟩ := of_bind h
  cases Node.eq_of_sound hname
  obtain rfl := Node.eq_of_sound h
  refine ⟨rfl, hv, ?_⟩
  rw [← hmade]
  cases e <;> rfl

lemma make_isOk (hkeyword : w.keyword ≠ "") (hvalue : (expression w.value).isOk = true) : (w.make e).isOk = true := by
  have hflaws : (Node.ofName w.keyword).flaws = [(w.keyword.isEmpty, "Cannot have empty name identifier.")] := rfl
  have hname : name w.keyword = .ok (Node.ofName w.keyword) := by
    rw [name, Node.sound, Node.flaw?, hflaws]
    simp [hkeyword]
  obtain ⟨v, hv⟩ := exists_of_isOk hvalue
  have hmade (equal : Node) : (keywordArg w.keyword equal v).isOk = true := by
    rw [keywordArg, hname]
    rfl
  unfold make makeArg
  dsimp only
  rw [hname, hv]
  exact hmade _

lemma renewed_of_notMem (h : ∀ w ∈ ws, keyword? a ≠ some w.keyword) : renewed ws a = .ok a := by
  have hnone : ws.find? (isFor a) = none := find?_eq_none.2 fun w hw => mt isFor_iff.1 (h w hw)
  rw [renewed, hnone]
  rfl

lemma keywords_of_forall₂ {α : Type} {f : α → Option String} {as : List α} (h : Forall₂ (fun a b => keyword? b = f a) as args) :
    keywords args = as.filterMap f := by
  induction h with
  | nil => rfl
  | cons hab _ ih => rw [keywords, filterMap_cons, hab, filterMap_cons, ← ih, keywords]

section

variable (hws : (ws.map keyword).Nodup)
include hws

lemma eq_of_isFor (hv : v ∈ ws) (hw : w ∈ ws) (hva : isFor a v = true) (hwa : isFor a w = true) : v = w := by
  rw [isFor_iff] at hva hwa
  exact inj_on_of_nodup_map hws hv hw (Option.some.inj (hva.symm.trans hwa))

lemma renewed_made (hw : w ∈ ws) (h : w.make e = .ok b) : renewed ws b = .ok b := by
  obtain ⟨hkeyword, -, hb⟩ := of_make h
  rw [← isFor_iff] at hkeyword
  obtain ⟨v, hv⟩ := Option.isSome_iff_exists.1 (find?_isSome.2 ⟨w, hw, hkeyword⟩)
  rw [renewed, hv, eq_of_isFor hws (mem_of_find?_eq_some hv) hw (find?_some hv) hkeyword]
  exact hb

lemma renewed_renewed (h : renewed ws a = .ok b) : keyword? b = keyword? a ∧ renewed ws b = .ok b := by
  cases hfind : ws.find? (isFor a) with
  | none =>
    have hsame : renewed ws a = .ok a := by rw [renewed, hfind]; rfl
    cases hsame.symm.trans h
    exact ⟨rfl, h⟩
  | some w =>
    rw [renewed, hfind] at h
    exact ⟨(of_make h).1.trans (isFor_iff.1 (find?_some hfind)).symm, renewed_made hws (mem_of_find?_eq_some hfind) h⟩

lemma eraseP_eq (a : Node) : ws.eraseP (isFor a) = unmet [a] ws := by
  induction ws with
  | nil => rfl
  | cons w ws ih =>
    obtain ⟨hw, hws'⟩ := nodup_cons.1 hws
    cases h : isFor a w with
    | true =>
      -- no other wish is for this argument
      rw [eraseP_cons_of_pos h, unmet, filter_cons_of_neg (by simp [h])]
      refine (filter_eq_self.2 fun v hv => ?_).symm
      simp only [any_cons, any_nil, Bool.or_false, Bool.not_eq_true', Bool.eq_false_iff]
      intro hva
      obtain rfl := eq_of_isFor hws (.tail w hv) (.head _) hva h
      exact hw (mem_map_of_mem hv)
    | false => rw [eraseP_cons_of_neg (by simp [h]), ih hws', unmet, unmet, filter_cons_of_pos (by simp [h])]

lemma replaceMatching_eq (hargs : (keywords args).Nodup) :
    replaceMatching args ws = do return (← args.mapM (renewed ws), unmet args ws) := by
  induction args generalizing ws with
  | nil => simp [replaceMatching, unmet]
  | cons a args ih =>
    have hargs' : (keywords args).Nodup := hargs.sublist ((sublist_cons_self a args).filterMap _)
    have hleft : ((unmet [a] ws).map keyword).Nodup := hws.sublist (filter_sublist.map _)
    have hsame (b : Node) (hb : b ∈ args) : renewed (unmet [a] ws) b = renewed ws b := by
      have hother (w : NewArg) (ha : isFor a w = true) : isFor b w = false := by
        rw [isFor_iff] at ha
        rw [keywords, filterMap_cons_some ha] at hargs
        exact Bool.eq_false_iff.2 fun hbw => (nodup_cons.1 hargs).1 (mem_keywords.2 (any_eq_true.2 ⟨b, hb, hbw⟩))
      rw [renewed, renewed, unmet, find?_filter]
      congr 2
      funext w
      cases ha : isFor a w <;> simp [ha, hother]
    have hrest := ih hleft hargs'
    have hmap (g : Node → Except Fault Node) : args.mapM g = (args.map g).mapM id := by rw [mapM_map]; rfl
    rw [hmap, map_congr_left hsame, ← hmap] at hrest
    have hunmet : unmet (a :: args) ws = unmet args (unmet [a] ws) := by
      simp [unmet, filter_filter, Bool.and_comm]
    rw [replaceMatching_cons, eraseP_eq hws, hrest, hunmet, mapM_cons]
    simp

end

/-- **A call gets the arguments that are wished for.** All arguments stay in their order, those with a wished keyword with the
new value, and the wishes that are to be added and have no argument yet follow in theirs. An argument that no wish is for is
not touched. There is a result if all keywords and values can be written. No keyword comes twice then, and there is nothing
left to do. -/
theorem replaceArgs_updates (hargs : (keywords args).Nodup) (hws : (ws.map keyword).Nodup) :
    (replaceArgs args ws = do
      let news ← args.mapM (renewed ws)
      return news ++ (← ((unmet args ws).filter (·.addIfMissing)).mapM (·.make none))) ∧
    (∀ a, (∀ w ∈ ws, keyword? a ≠ some w.keyword) → renewed ws a = .ok a) ∧
    (∀ w e b, make w e = .ok b → keyword? b = some w.keyword ∧ expression w.value = .ok (b.get .value)) ∧
    ((∀ w ∈ ws, w.keyword ≠ "" ∧ (expression w.value).isOk = true) → (replaceArgs args ws).isOk = true) ∧
    ∀ out, replaceArgs args ws = .ok out → (keywords out).Nodup ∧ replaceArgs out ws = .ok out := by
  have heq {args : List Node} (hargs : (keywords args).Nodup) : replaceArgs args ws = do
      let news ← args.mapM (renewed ws)
      return news ++ (← ((unmet args ws).filter (·.addIfMissing)).mapM (·.make none)) := by
    rw [replaceArgs, replaceMatching_eq hws hargs]
    simp [make]
  refine ⟨heq hargs, fun a => renewed_of_notMem, fun w e b h => ⟨(of_make h).1, (of_make h).2.1⟩, fun hall => ?_, fun out hout => ?_⟩
  · have hnews : (args.mapM (renewed ws)).isOk = true := by
      refine mapM_isOk_iff.2 fun a _ => ?_
      rw [renewed]
      cases hfind : ws.find? (isFor a) with
      | none => rfl
      | some w => exact (hall w (mem_of_find?_eq_some hfind)).elim make_isOk
    obtain ⟨news, hnews⟩ := exists_of_isOk hnews
    obtain ⟨added, hadded⟩ : ∃ added, ((unmet args ws).filter (·.addIfMissing)).mapM (·.make none) = .ok added :=
      exists_of_isOk (mapM_isOk_iff.2 fun w hw => (hall w (mem_filter.1 (mem_filter.1 hw).1).1).elim make_isOk)
    rw [heq hargs, hnews]
    exact congrArg (fun x => (x >>= fun added => pure (news ++ added)).isOk) hadded
  · rw [heq hargs] at hout
    obtain ⟨news, hnews, hout⟩ := of_bind hout
    obtain ⟨added, hadded, hout⟩ := of_bind hout
    cases hout
    have hnew : ∀ b ∈ news ++ added, renewed ws b = .ok b := by
      refine forall_mem_append.2 ⟨fun b hb => ?_, fun b hb => ?_⟩
      · obtain ⟨a, -, ha⟩ := exists_of_mem_mapM hnews hb
        exact (renewed_renewed hws ha).2
      · obtain ⟨w, hw, hb⟩ := exists_of_mem_mapM hadded hb
        exact renewed_made hws (mem_filter.1 (mem_filter.1 hw).1).1 hb
    have hkeywords : keywords (news ++ added) =
        keywords args ++ ((unmet args ws).filter (·.addIfMissing)).map keyword := by
      have hold := keywords_of_forall₂ ((mapM_eq_ok_iff.1 hnews).imp fun _ _ ha => (renewed_renewed hws ha).1)
      have hadd := keywords_of_forall₂ ((mapM_eq_ok_iff.1 hadded).imp fun _ _ hw => (of_make hw).1)
      rw [keywords, filterMap_append]
      exact congrArg₂ _ hold (hadd.trans (congrFun filterMap_eq_map' _))
    have hnodup : (keywords (news ++ added)).Nodup := by
      rw [hkeywords]
      refine hargs.append (hws.sublist ((filter_sublist.trans filter_sublist).map _)) fun k hk hk' => ?_
      obtain ⟨w, hw, rfl⟩ := mem_map.1 hk'
      simpa [mem_keywords.1 hk] using (mem_filter.1 (mem_filter.1 hw).1).2
    -- a wish that is to be added has an argument by now
    have hnone : (unmet (news ++ added) ws).filter (·.addIfMissing) = [] := by
      refine filter_eq_nil_iff.2 fun w hw hadd => ?_
      obtain ⟨hw, hmissing⟩ := mem_filter.1 hw
      rw [Bool.not_eq_true', Bool.eq_false_iff, ne_eq, ← mem_keywords, hkeywords, mem_append, not_or] at hmissing
      refine hmissing.2 (mem_map_of_mem (mem_filter.2 ⟨mem_filter.2 ⟨hw, ?_⟩, hadd⟩))
      simpa using mt mem_keywords.2 hmissing.1
    refine ⟨hnodup, ?_⟩
    rw [heq hnodup, mapM_eq_ok_iff.2 (forall₂_same.2 hnew), hnone]
    exact congrArg Except.ok (append_nil _)

def cookieArgs : List Node := ((Node.ofExpression? "f('k', secure=False, **more)").getD .absent).list .args

def cookieWishes : List NewArg := [⟨"secure", "True", true⟩, ⟨"httponly", "True", true⟩, ⟨"samesite", "'Lax'", false⟩]

theorem cookieArgs_updated : keywords cookieArgs = ["secure"] ∧ ∃ out, replaceArgs cookieArgs cookieWishes = .ok out ∧
    keywords out = ["secure", "httponly"] ∧ replaceArgs out cookieWishes = .ok out := by
  have hargs : keywords cookieArgs = ["secure"] := by decide +kernel
  have hkeywords : ((replaceArgs cookieArgs cookieWishes).toOption.map keywords) = some ["secure", "httponly"] := by
    decide +kernel
  obtain ⟨out, hout, hkeywords⟩ := exists_of_toOption_map hkeywords
  have hupdate := @replaceArgs_updates cookieArgs cookieWishes (by rw [hargs]; decide) (by decide)
  exact ⟨hargs, out, hout, hkeywords, (hupdate.2.2.2.2 out hout).2⟩

end Mender.Edit
