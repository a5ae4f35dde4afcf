import Mender.Codemod.MutableDefault
import Mender.Proofs.Edit.Standing
import Mender.Proofs.Import.Added

/-!
# What becomes of mutable defaults

The codemod that renews mutable defaults looks at the regular parameters of each function. What other parameters have for
defaults stays, and so do all functions.

* `signatures_renewDefaults` — what the codemod makes of the functions;
* `mutable_defaults_gone_iff` — when no mutable default is left.
-/

namespace Mender.Codemod

open Syntax Node Edit List

variable {ps qs params added lines changed : List Node} {new function out n n' old statement param body : Node}
  {t : Task} {e : Edit} {s s' notes : Notes}
variable (f : Node)

/-- The functions that are defined in a module, at any depth. -/
def functions (n : Node) : List Node := (standing n).filter (·.kind == .functionDef)

/-- The parameters that may be given by position or by name. -/
def regularParams : List Node := (f.get .params).list .params

/-- The parameters of a function that can be given by place only, and those that can be given by name only. -/
def restrictedParams : List Node := (f.get .params).list .posonlyParams ++ (f.get .params).list .kwonlyParams

/-- The parameters whose defaults are made anew in the body. -/
def madeParams : List Node := if isAbstract f then [] else (regularParams f).filter hasMutableDefault

/-- Are there mutable defaults among the restricted parameters, and among the regular ones? -/
def flags (params : Node) : Bool × Bool :=
  ((params.list .posonlyParams ++ params.list .kwonlyParams).any hasMutableDefault,
    (params.list .params).any hasMutableDefault)

def signatures (n : Node) : List (Bool × Bool) :=
  shown (fun c => if c.kind = .functionDef then [flags (c.get .params)] else []) n

lemma forall_signatures {P : Bool × Bool → Prop} :
    (∀ s ∈ signatures n, P s) ↔ ∀ f ∈ functions n, P (flags (f.get .params)) := by
  simp only [signatures, shown, functions, mem_flatMap, mem_filter, beq_iff_eq, forall_exists_index, and_imp]
  constructor
  · intro h f hf hkind
    exact h _ f hf (by rw [if_pos hkind]; exact mem_cons_self ..)
  · intro h s f hf hs
    split at hs
    next hkind =>
      rw [mem_singleton.1 hs]
      exact h f hf hkind
    next => cases hs

lemma signatures_eq (n : Node) :
    signatures n = (if n.kind = .functionDef then [flags (n.get .params)] else []) ++ (framed n).flatMap signatures :=
  shown_eq _ n

/-! ## What a pass keeps of defaults -/

def isParamPlace (s : Slot) : Bool := [.posonlyParams, .params, .kwonlyParams].contains s

/-- Two nodes that do not differ in what is said about defaults at their surface. -/
structure SameDefaults (n n' : Node) : Prop where
  kind : n'.kind = n.kind
  text : n'.text = n.text
  isSpentLine : n'.isSpentLine = n.isSpentLine
  isMutable : isMutableDefault n' = isMutableDefault n
  hasMutable : hasMutableDefault n' = hasMutableDefault n
  members {s : Slot} : isParamPlace s = true → (n'.list s).map hasMutableDefault = (n.list s).map hasMutableDefault

lemma any_eq_of_map_eq (h : qs.map hasMutableDefault = ps.map hasMutableDefault) :
    qs.any hasMutableDefault = ps.any hasMutableDefault := by
  have hany (ps : List Node) : ps.any hasMutableDefault = (ps.map hasMutableDefault).any id := by
    rw [any_map, Function.id_comp]
  rw [hany, hany ps, h]

lemma flags_eq_of_members
    (h : ∀ {s}, isParamPlace s = true → (n'.list s).map hasMutableDefault = (n.list s).map hasMutableDefault) :
    flags n' = flags n := by
  have hany {s : Slot} (hs : isParamPlace s = true) := any_eq_of_map_eq (h hs)
  rw [flags, flags, any_append, any_append, hany (s := .posonlyParams) rfl, hany (s := .kwonlyParams) rfl,
    hany (s := .params) rfl]

lemma SameDefaults.trans {n₁ n₂ n₃ : Node} (h : SameDefaults n₁ n₂) (h' : SameDefaults n₂ n₃) : SameDefaults n₁ n₃ where
  kind := h'.kind.trans h.kind
  text := h'.text.trans h.text
  isSpentLine := h'.isSpentLine.trans h.isSpentLine
  isMutable := h'.isMutable.trans h.isMutable
  hasMutable := h'.hasMutable.trans h.hasMutable
  members hs := (h'.members hs).trans (h.members hs)

/-- Two trees whose functions go together: `g` tells what becomes of their signatures. -/
structure Renewed (g : Bool × Bool → Bool × Bool) (n n' : Node) : Prop extends SameDefaults n n' where
  signatures : signatures n' = (signatures n).map g

variable {g : Bool × Bool → Bool × Bool} {R : Node → Edit → Prop}

lemma steady_renewed (g : Bool × Bool → Bool × Bool) : Steady (Renewed g) :=
  steady_of_kind (fun h => h.kind) fun h => h.isSpentLine

lemma isMutableDefault_of_isFiller (h : n.kind.isFiller = true) : isMutableDefault n = false := by
  have hkind : [Kind.list, .dict, .set].contains n.kind = false ∧ (n.kind == .call) = false := by
    generalize n.kind = k at h
    cases k <;> first | exact ⟨rfl, rfl⟩ | cases h
  rw [isMutableDefault, isCallOf, hkind.1, hkind.2]
  rfl

lemma sameDefaults_of_keptPart {p p' : Node} (h : KeptPart (Renewed g) p p') : p'.kind = p.kind ∧ p'.text = p.text ∧
    isMutableDefault p' = isMutableDefault p ∧
    ∀ {s}, isParamPlace s = true → (p'.list s).map hasMutableDefault = (p.list s).map hasMutableDefault := by
  cases h with
  | @run items hseq =>
    have hfill : p.kind.isFiller = true := by rw [hseq]; rfl
    have hfill' : (Node.mk p.kind p.text items p.mark).kind.isFiller = true := hfill
    refine ⟨rfl, rfl, ?_, fun _ => ?_⟩
    · rw [isMutableDefault_of_isFiller hfill, isMutableDefault_of_isFiller hfill']
    · rw [list_of_isFiller hfill, list_of_isFiller hfill']
  | filler => exact ⟨rfl, rfl, rfl, fun _ => rfl⟩
  | node _ h => exact ⟨h.kind, h.text, h.isMutable, h.members⟩

lemma map_of_forall₂ (h : Forall₂ (Renewed g) ps qs) : qs.map hasMutableDefault = ps.map hasMutableDefault := by
  induction h with
  | nil => rfl
  | cons h _ ih => rw [map_cons, map_cons, h.hasMutable, ih]

lemma signatures_of_forall₂ (h : Forall₂ (Renewed g) ps qs) : qs.flatMap signatures = (ps.flatMap signatures).map g := by
  induction h with
  | nil => rfl
  | cons h _ ih => rw [flatMap_cons, flatMap_cons, map_append, h.signatures, ih]

section

variable (h : RebuiltTo R n n') (hkeep : KeepsIn R (Renewed g) n.visited)
include h hkeep

lemma sameDefaults_of_rebuilt : SameDefaults n n' where
  kind := h.kind
  text := h.text
  isSpentLine := h.isSpentLine_eq (steady_renewed g) hkeep
  isMutable := by
    obtain ⟨hkind, htext, -⟩ := sameDefaults_of_keptPart (h.get (steady_renewed g) hkeep .func)
    rw [isMutableDefault, isMutableDefault, isCallOf, isCallOf, h.kind, hkind, htext]
  hasMutable := by
    obtain ⟨hkind, -, hmutable, -⟩ := sameDefaults_of_keptPart (h.get (steady_renewed g) hkeep .default)
    rw [hasMutableDefault, hasMutableDefault, hmutable, isPresent, isPresent, hkind]
  members _ := map_of_forall₂ (h.list (steady_renewed g) hkeep _)

lemma signatures_framed_of_rebuilt : (framed n').flatMap signatures = ((framed n).flatMap signatures).map g :=
  signatures_of_forall₂ (forall₂_framed (steady_renewed g) h hkeep)

lemma members_params_of_rebuilt {s : Slot} (hs : isParamPlace s = true) :
    ((n'.get .params).list s).map hasMutableDefault = ((n.get .params).list s).map hasMutableDefault :=
  (sameDefaults_of_keptPart (h.get (steady_renewed g) hkeep .params)).2.2.2 hs

lemma renewed_of_rebuilt (hkind : n.kind ≠ .functionDef) : Renewed g n n' where
  toSameDefaults := sameDefaults_of_rebuilt h hkeep
  signatures := by
    rw [signatures_eq, signatures_eq n, h.kind, if_neg hkind, if_neg hkind, nil_append]
    exact signatures_framed_of_rebuilt h hkeep

end

lemma renewed_id_of_rebuilt (h : RebuiltTo R n n') (hkeep : KeepsIn R (Renewed id) n.visited) : Renewed id n n' where
  toSameDefaults := sameDefaults_of_rebuilt h hkeep
  signatures := by
    rw [signatures_eq, signatures_eq n, h.kind, flags_eq_of_members (members_params_of_rebuilt h hkeep),
      signatures_framed_of_rebuilt h hkeep, map_id, map_id]

/-! ## Functions with new parameters -/

lemma isMutableDefault_none : isMutableDefault (Node.ofName "None") = false := by decide +kernel

lemma hasMutableDefault_optionalParam (h : optionalParam old new = .ok param) : hasMutableDefault param = false := by
  obtain rfl := eq_of_sound h
  set params := new.unmarked.set .default (Node.ofName "None") with hparams
  have hdefault : (new.setAll [(.default, Node.ofName "None"),
      (.typeHint, optionalAnnotation (old.get .typeHint) (new.get .typeHint))]).get .default = params.get .default :=
    get_set_of_ne (show Slot.default ≠ .typeHint by decide) _
  rw [hasMutableDefault, hdefault]
  rcases get_set_cases new.unmarked .default (Node.ofName "None") with hget | ⟨-, hget⟩
  · rw [hget, isMutableDefault_none, Bool.and_false]
  · rw [hget]
    rfl

lemma any_renewedParams {olds news : List Node} (hnews : news.map hasMutableDefault = olds.map hasMutableDefault)
    (h : renewedParams olds news = .ok params) : params.any hasMutableDefault = false := by
  rw [renewedParams, mapM_eq_ok_iff] at h
  induction olds generalizing news params with
  | nil =>
    cases h
    rfl
  | cons old olds ih =>
    obtain ⟨new, news, rfl⟩ : ∃ new news', news = new :: news' :=
      exists_cons_of_ne_nil fun hnil => by cases hnil; cases hnews
    rw [map_cons, map_cons, cons_eq_cons] at hnews
    cases h with
    | cons hparam hparams =>
      rw [any_cons, ih hnews.2 hparams, Bool.or_false]
      dsimp only at hparam
      split at hparam
      next => exact hasMutableDefault_optionalParam hparam
      next hmutable =>
        cases hparam
        rw [hnews.1]
        exact Bool.eq_false_iff.2 hmutable

lemma flags_setList (hparams : params.any hasMutableDefault = false) (ps : Node) :
    flags (ps.setList .params params) = ((flags ps).1, false) := by
  have hregular : ((ps.setList .params params).list .params).any hasMutableDefault = false := by
    rw [list]
    rcases get_set_cases ps .params (seq params) with hget | ⟨-, hget⟩
    · rw [setList, hget]
      exact hparams
    · rw [setList, hget]
      rfl
  rw [flags, hregular, list, list, setList, get_set_of_ne (by decide), get_set_of_ne (by decide)]
  rfl

lemma signatures_defaultStatement (param : Node) : signatures (defaultStatement param) = [] := by
  have hbody : framed (defaultStatement param) = (defaultStatement param).list .body := framed_of_isBlock rfl
  rw [signatures_eq, if_neg (by exact nofun), hbody]
  change signatures _ ++ [] = []
  rfl

lemma signatures_withDefaults (statements body : List Node) (h : statements.flatMap signatures = []) :
    (withDefaults statements body).flatMap signatures = body.flatMap signatures := by
  rw [withDefaults.eq_def]
  split
  · split
    · rw [cons_append, flatMap_cons, flatMap_append, h, nil_append, flatMap_cons]
    · rw [flatMap_append, h, nil_append]
  · exact h

lemma signatures_setList (hblock : isBlock n.kind = true)
    (h : lines.flatMap signatures = (n.list .body).flatMap signatures) :
    signatures (n.setList .body lines) = signatures n := by
  rw [signatures_eq, signatures_eq n, setList, kind_set, get_set_of_ne (by decide),
    framed_of_isBlock (by rw [kind_set, hblock]), framed_of_isBlock hblock]
  refine congrArg (List.append _) ?_
  rw [← h, list]
  rcases get_set_cases n .body (seq lines) with hget | ⟨hget, hget'⟩
  · rw [hget]
    rfl
  · rw [hget', h, list, hget]

lemma signatures_setBody (added : List Node) (hbody : body.kind = .indentedBlock) :
    signatures (body.setList .body (withDefaults (added.map defaultStatement) (body.list .body))) = signatures body := by
  refine signatures_setList (by rw [hbody]; rfl) (signatures_withDefaults _ _ ?_)
  rw [flatMap_eq_nil_iff]
  intro s hs
  obtain ⟨param, -, rfl⟩ := mem_map.1 hs
  exact signatures_defaultStatement param

def settled (signature : Bool × Bool) : Bool × Bool := (signature.1, false)

section

variable (hbody : added.isEmpty = false → (new.get .body).kind = .indentedBlock)
  (h : renewedFunction params added new = .ok function)
include hbody h

lemma exists_of_renewedFunction : ∃ body, body.kind = (new.get .body).kind ∧ body.items = (new.get .body).items ∧
      signatures body = signatures (new.get .body) ∧
      function = (new.unmarked.set .params ((new.get .params).setList .params params)).set .body body := by
  obtain ⟨newParams, hnewParams, h⟩ := of_bind h
  obtain rfl := eq_of_sound hnewParams
  split at h
  next => exact ⟨new.get .body, rfl, rfl, rfl, eq_of_sound h⟩
  next hadded =>
    obtain ⟨body, hbody', h⟩ := of_bind h
    obtain rfl := eq_of_sound hbody'
    refine ⟨_, kind_set _ _ _, items_set _ _ _, ?_, eq_of_sound h⟩
    exact signatures_setBody added (hbody (Bool.eq_false_iff.2 hadded))

lemma signatures_renewedFunction (hkind : new.kind = .functionDef) (hparams : params.any hasMutableDefault = false) :
    signatures function = settled (flags (new.get .params)) :: (framed new).flatMap signatures := by
  obtain ⟨newBody, hbodyKind, -, hbodySignatures, rfl⟩ := exists_of_renewedFunction hbody h
  set params' := (new.get .params).setList .params params with hparams'
  set mid := new.unmarked.set .params params' with hmid
  have hkind' : (mid.set .body newBody).kind = .functionDef := by
    rw [kind_set, kind_set, kind_unmarked, hkind]
  have hflags : flags ((mid.set .body newBody).get .params) = settled (flags (new.get .params)) := by
    rw [get_set_of_ne (by decide)]
    rcases get_set_cases new.unmarked .params params' with hget | ⟨hget, hget'⟩
    · rw [hget]
      exact flags_setList hparams _
    · rw [hget', ← get_unmarked new .params, hget]
      rfl
  rw [signatures_eq, if_pos hkind', hflags, framed_of_isHead (by rw [hkind']; rfl), framed_of_isHead (by rw [hkind]; rfl),
    singleton_append]
  refine congrArg (_ :: ·) ?_
  have hold : mid.get .body = new.get .body := by
    rw [get_set_of_ne (by decide), get_unmarked]
  rcases get_set_cases mid .body newBody with hget | ⟨hget, hget'⟩
  · rw [hget, hbodyKind]
    split
    · rfl
    · rw [flatMap_singleton, flatMap_singleton, hbodySignatures]
  · rw [hget', ← hold, hget]

lemma sameDefaults_renewedFunction (hkind : new.kind = .functionDef) : SameDefaults new function := by
  obtain ⟨newBody, -, hitems, -, hfunction⟩ := exists_of_renewedFunction hbody h
  have hkind' : function.kind = .functionDef := by
    rw [hfunction, kind_set, kind_set, kind_unmarked, hkind]
  have hlist (s : Slot) : function.list s = new.list s := by
    rw [hfunction, list_set_of_items, list_set_of_items, list, list, get_unmarked]
    · rw [setList, items_set, get_unmarked]
    · rw [hitems, get_set_of_ne (by decide), get_unmarked]
  exact {
    kind := hkind'.trans hkind.symm
    text := by rw [hfunction, text_set, text_set, text_unmarked]
    isSpentLine := by
      rw [isSpentLine, isSpentLine, hkind, hkind']
      rfl
    isMutable := by
      rw [isMutableDefault, isMutableDefault, isCallOf, isCallOf, hkind, hkind']
      rfl
    hasMutable := by
      rw [hasMutableDefault, hasMutableDefault, Node.get, Node.get, hkind, hkind']
      rfl
    members := fun _ => by rw [hlist] }

end

lemma exists_of_leave (h : (t.renewing.leave old new).run s = .ok (e, s')) :
    (old.kind ≠ .functionDef ∧ s' = s ∧ e = .keep new) ∨
    (old.kind = .functionDef ∧ ∃ params changed function,
      renewedParams (regularParams old) (regularParams new) = .ok params ∧
      ((madeParams old).isEmpty = false → (new.get .body).kind = .indentedBlock) ∧
      (t.noteDefaults old changed).run s = .ok ((), s') ∧
      renewedFunction params (madeParams old) new = .ok function ∧ e = .keep function) := by
  simp only [Task.renewing] at h
  split at h
  next hkind =>
    cases h
    exact .inl ⟨bne_iff_ne.1 hkind, rfl, rfl⟩
  next hkind =>
    obtain ⟨params, hparams, h⟩ := of_lift_bind h
    obtain ⟨_, hcheck, h⟩ := of_lift_bind h
    obtain ⟨_, s₁, hnote, h⟩ := of_run_bind h
    obtain ⟨function, hfunction, h⟩ := of_lift_bind h
    cases h
    refine .inr ⟨not_not.1 (mt bne_iff_ne.2 hkind), params, _, function, hparams, ?_, hnote, hfunction, rfl⟩
    intro hadded
    rw [← regularParams, ← madeParams, checkBody, hadded] at hcheck
    split at hcheck
    next => cases hcheck
    next hblock => simpa using hblock

lemma renewed_of_makes (h : t.renewing.Makes n e) : ∃ n', e = .keep n' ∧ Renewed settled n n' := by
  induction n generalizing e with
  | h n ih =>
    have hkeep (c : Node) (hc : c ∈ n.visited) (e : Edit) (he : t.renewing.Makes c e) := ih c hc he
    obtain ⟨new, hnew, s, s', hleave⟩ := Pass.exists_rebuiltTo (fun _ => rfl) h
    rcases exists_of_leave hleave with
      ⟨hkind, -, rfl⟩ | ⟨hkind, params, _, function, hparams, hbody, -, hfunction, rfl⟩
    · exact ⟨new, rfl, renewed_of_rebuilt hnew hkeep hkind⟩
    · have hkind' : new.kind = .functionDef := hnew.kind.trans hkind
      have hsame := sameDefaults_of_rebuilt hnew hkeep
      have hparts {s : Slot} (hs : isParamPlace s = true) := members_params_of_rebuilt hnew hkeep hs
      refine ⟨function, rfl, hsame.trans (sameDefaults_renewedFunction hbody hfunction hkind'), ?_⟩
      rw [signatures_renewedFunction hbody hfunction hkind' (any_renewedParams (hparts rfl) hparams),
        signatures_eq n, if_pos hkind, flags_eq_of_members hparts, signatures_framed_of_rebuilt hnew hkeep]
      rfl

/-- Functions that make defaults in their bodies have blocks for bodies, or the pass fails. -/
lemma blocks_of_makes (h : t.renewing.Makes n e) :
    ∀ f ∈ functions n, (madeParams f).isEmpty = false → (f.get .body).kind = .indentedBlock := by
  simp only [functions, mem_filter, beq_iff_eq, and_imp]
  induction n generalizing e with
  | h n ih =>
    obtain ⟨new, hnew, s, s', hleave⟩ := Pass.exists_rebuiltTo (fun _ => rfl) h
    intro f hf
    rcases mem_standing.1 hf with rfl | ⟨c, hc, hf⟩
    · intro hkind hmade
      have hbody := (hnew.get (steady_renewed settled) (fun c hc e he => renewed_of_makes he) .body).kind_eq
        fun h => h.kind
      rcases exists_of_leave hleave with ⟨hother, -⟩ | ⟨-, _, _, _, -, hblock, -⟩
      · exact absurd hkind hother
      · rw [← hbody, hblock hmade]
    · have hvisited := (framed_sublist n).subset hc
      obtain ⟨e', he'⟩ := hnew.exists_of_visited c hvisited
      exact ih c hvisited he' f hf

/-! ## The import that annotations need -/

lemma signatures_set {s : Slot} (hblock : isBlockPlace s = false) (hparams : Slot.params ≠ s) (n part : Node) :
    signatures (n.set s part) = signatures n := by
  rw [signatures_eq, signatures_eq n, kind_set, get_set_of_ne hparams, framed_set hblock]

lemma renewed_setNames {f : Bool × Bool → Bool × Bool} (h : Renewed f n n') (aliases : List Node) :
    Renewed f n (n'.setList .names aliases) where
  kind := by rw [setList, kind_set, h.kind]
  text := by rw [setList, text_set, h.text]
  isSpentLine := by rw [← h.isSpentLine, setList, isSpentLine, isSpentLine, kind_set, list, get_set_of_ne (by decide), list]
  isMutable := by
    rw [← h.isMutable, setList, isMutableDefault, isMutableDefault, isCallOf, isCallOf, kind_set, get_set_of_ne (by decide)]
  hasMutable := by rw [← h.hasMutable, setList, hasMutableDefault, hasMutableDefault, get_set_of_ne (by decide)]
  members {s} hs := by
    rw [← h.members hs, setList, list, get_set_of_ne (by rintro rfl; cases hs), list]
  signatures := by rw [← h.signatures, setList, signatures_set (by decide) (by decide)]

lemma renewed_of_joining (h : Import.Add.joining.Makes n e) : ∃ n', e = .keep n' ∧ Renewed id n n' := by
  induction n generalizing e with
  | h n ih =>
    have hkeep (c : Node) (hc : c ∈ n.visited) (e : Edit) (he : Import.Add.joining.Makes c e) := ih c hc he
    obtain ⟨new, hnew, w, w', hleave⟩ := Pass.exists_rebuiltTo (fun _ => rfl) h
    have hrenewed : Renewed id n new := renewed_id_of_rebuilt hnew hkeep
    rcases Import.Add.exists_of_joining hleave with ⟨-, rfl⟩ | ⟨-, -, aliases, rfl⟩
    · exact ⟨new, rfl, hrenewed⟩
    · exact ⟨_, rfl, renewed_setNames hrenewed aliases⟩

lemma signatures_opened (statements : List Node) :
    (Import.Add.opened statements).flatMap signatures = statements.flatMap signatures := by
  rw [Import.Add.opened.eq_def]
  split
  · rfl
  · split
    · rw [flatMap_cons, flatMap_cons, setList, signatures_set (by decide) (by decide)]
    · split
      · rw [flatMap_cons, flatMap_cons, setList, signatures_set (by decide) (by decide)]
      · rfl

lemma signatures_fromStatement
    (h : Import.Add.fromStatement ("typing", [("Optional", none)]) = .ok statement) : signatures statement = [] := by
  have hall : (Import.Add.fromStatement ("typing", [("Optional", none)])).toOption.all (signatures · == []) = true := by
    decide +kernel
  rw [h] at hall
  exact eq_of_beq hall

lemma signatures_addImports {items : List Import.Item} (hitems : ∀ i ∈ items, i = ⟨"typing", some "Optional", none⟩)
    (hkind : n.kind = .module) (h : Import.addImports items n = .ok out) :
    signatures out = signatures n := by
  obtain ⟨⟨new, w⟩, hnew, h⟩ := of_bind h
  obtain ⟨out', hout', h⟩ := of_bind h
  obtain rfl := eq_of_sound h
  obtain ⟨_, hkeep, hrenewed⟩ := renewed_of_joining ⟨_, _, Pass.edit_of_run hnew⟩
  cases hkeep
  have hsame : signatures new = signatures n := by rw [hrenewed.signatures, map_id]
  have hasks := Import.Add.asks_joining hnew ((Import.Add.asks_of hitems).missing n)
  rw [← hsame]
  rcases Import.Add.exists_withStatements hasks (by decide) hout' with rfl | ⟨statement, back, hstatement, rfl⟩
  · rfl
  · refine signatures_setList (by rw [hrenewed.kind, hkind]; rfl) ?_
    rw [flatMap_append, flatMap_cons, signatures_fromStatement hstatement, signatures_opened, nil_append,
      ← flatMap_append, take_append_drop]

def NeedsOptional (s : Notes) : Prop := (∀ i ∈ s.needed, i = ⟨"typing", some "Optional", none⟩) ∧ s.superfluous = []

lemma keeps_noteDefaults : (t.noteDefaults n changed).Keeps NeedsOptional := by
  have hrequire : (if changed.any fun p => (p.get .typeHint).isPresent then require "typing" (some "Optional")
      else pure () : Work Unit).Keeps NeedsOptional := by
    split
    · refine .modify fun s hs => ⟨fun i hi => ?_, hs.2⟩
      exact (mem_append.1 hi).elim (hs.1 i) mem_singleton.1
    · exact .pure _
  rw [Task.noteDefaults]
  split
  · exact .bind (.lift_bind fun _ _ => .modify fun _ hs => hs) fun _ => hrequire
  · exact hrequire

lemma needsOptional_of_run (h : t.renewing.run n {} = .ok (out, notes)) : NeedsOptional notes := by
  refine Pass.keeps_edit (fun _ => .pure _) (fun old _ new s e s' h hs => ?_) _ _ _ (Pass.edit_of_run h) ⟨nofun, rfl⟩
  rcases exists_of_leave h with ⟨-, rfl, -⟩ | ⟨-, _, _, _, -, -, hnote, -⟩
  · exact hs
  · exact keeps_noteDefaults _ _ _ hnote hs

lemma signatures_renewDefaults (hkind : t.module.kind = .module)
    (h : t.renewDefaults = .ok (out, notes)) : signatures out = (signatures t.module).map settled := by
  obtain ⟨⟨new, notes'⟩, hnew, h⟩ := of_bind h
  obtain ⟨out', hout', h⟩ := of_bind h
  cases h
  obtain ⟨_, hkeep, hrenewed⟩ := renewed_of_makes ⟨_, _, Pass.edit_of_run hnew⟩
  cases hkeep
  obtain ⟨hneeded, hsuperfluous⟩ := needsOptional_of_run hnew
  rw [← hrenewed.signatures]
  rw [Notes.settleImports, hsuperfluous] at hout'
  split at hout'
  next =>
    cases hout'
    rfl
  next =>
    obtain ⟨added, hadded, hout'⟩ := of_bind hout'
    cases hout'
    exact signatures_addImports hneeded (hrenewed.kind.trans hkind) hadded

/-! ## What is left -/

/-- The module after a codemod: the old one if the codemod fails. -/
def Task.after (t : Task) (work : Work.Result) : Node :=
  match work with
  | .ok (out, _) => out
  | .error _ => t.module

lemma flags_eq :
    flags (f.get .params) = ((restrictedParams f).any hasMutableDefault, (regularParams f).any hasMutableDefault) := rfl

lemma forall_params_iff : (∀ s ∈ signatures n, s = (false, false)) ↔
    ∀ f ∈ functions n, ∀ p ∈ restrictedParams f ++ regularParams f, hasMutableDefault p = false := by
  simp only [forall_signatures, flags_eq, Prod.mk.injEq, any_eq_false, mem_append, Bool.not_eq_true]
  grind

lemma forall_restricted_iff : (∀ s ∈ signatures n, s.1 = false) ↔
    ∀ f ∈ functions n, ∀ p ∈ restrictedParams f, hasMutableDefault p = false := by
  simp only [forall_signatures, flags_eq, any_eq_false, Bool.not_eq_true]

lemma forall_regular_iff : (∀ s ∈ signatures n, s.2 = false) ↔
    ∀ f ∈ functions n, ∀ p ∈ regularParams f, hasMutableDefault p = false := by
  simp only [forall_signatures, flags_eq, any_eq_false, Bool.not_eq_true]

lemma isBlock_of_renewDefaults {f p : Node} {r : Node × Notes} (h : t.renewDefaults = .ok r) (hf : f ∈ functions t.module)
    (habstract : isAbstract f = false) (hp : p ∈ regularParams f) (hmutable : hasMutableDefault p = true) :
    (f.get .body).kind = .indentedBlock := by
  obtain ⟨⟨new, notes⟩, hnew, -⟩ := of_bind h
  refine blocks_of_makes ⟨_, _, Pass.edit_of_run hnew⟩ f hf ?_
  rw [madeParams, habstract, isEmpty_eq_false_iff]
  exact ne_nil_of_mem (mem_filter.2 ⟨hp, hmutable⟩)

/-- No mutable default is left in a module just if there were none but those of regular parameters, and either the codemod
did its work or there was nothing to do. The codemod cannot do its work where a function with a default to be made has no
block for a body. -/
theorem mutable_defaults_gone_iff {source : String} {module : Node} (hread : Node.ofModule? source = some module)
    {t : Task} (hfacts : t.facts = .of module) :
    ((∀ f ∈ functions (t.after t.renewDefaults), ∀ p ∈ restrictedParams f ++ regularParams f, hasMutableDefault p = false) ↔
      (∀ f ∈ functions module, ∀ p ∈ restrictedParams f, hasMutableDefault p = false) ∧
      (t.renewDefaults.isOk = true ∨ ∀ f ∈ functions module, ∀ p ∈ regularParams f, hasMutableDefault p = false)) ∧
    (t.renewDefaults.isOk = true → ∀ f ∈ functions module, isAbstract f = false →
      (∃ p ∈ regularParams f, hasMutableDefault p = true) → (f.get .body).kind = .indentedBlock) := by
  have hmodule : t.module = module := by rw [Task.module, hfacts]; rfl
  have hkind : t.module.kind = .module := by rw [hmodule, (isModule_of_read hread).kind]
  rw [← forall_params_iff, ← forall_restricted_iff, ← forall_regular_iff]
  cases hrun : t.renewDefaults with
  | error e =>
    refine ⟨?_, nofun⟩
    show (∀ s ∈ signatures t.module, _) ↔ _ ∧ (false = true ∨ _)
    simp only [hmodule, Prod.ext_iff, Bool.false_eq_true, false_or]
    exact forall₂_and
  | ok result =>
    obtain ⟨out, notes⟩ := result
    constructor
    · show (∀ s ∈ signatures out, _) ↔ _ ∧ (true = true ∨ _)
      rw [signatures_renewDefaults hkind hrun, hmodule, forall_mem_map]
      simp only [settled, Prod.mk.injEq, and_true, true_or]
    · exact fun _ f hf habstract ⟨p, hp, hmutable⟩ => isBlock_of_renewDefaults hrun (hmodule ▸ hf) habstract hp hmutable

/-- A function with a mutable default for a parameter that is given by name only. -/
def namedOnly : String := "def f(b=[], *, a=[]):\n    return a\n"

def namedOnlyTask : Task := { facts := .of ((Node.ofModule? namedOnly).getD .absent) }

lemma namedOnly_run : (Node.ofModule? namedOnly).isSome = true ∧
    (namedOnlyTask.renewDefaults.toOption.map fun r => r.1.code) =
      some "def f(b=None, *, a=[]):\n    b = [] if b is None else b\n    return a\n" ∧
    ((functions namedOnlyTask.module).any fun f => (restrictedParams f).any hasMutableDefault) = true := by
  decide +kernel

/-- The default stays, though the one of the regular parameter goes. -/
theorem namedOnly_default_stays : (∃ out notes, namedOnlyTask.renewDefaults = .ok (out, notes) ∧
      out.code = "def f(b=None, *, a=[]):\n    b = [] if b is None else b\n    return a\n") ∧
    ¬ ∀ f ∈ functions (namedOnlyTask.after namedOnlyTask.renewDefaults), ∀ p ∈ restrictedParams f ++ regularParams f,
      hasMutableDefault p = false := by
  obtain ⟨hread, hrun, hmutable⟩ := namedOnly_run
  obtain ⟨module, hread⟩ := Option.isSome_iff_exists.1 hread
  have hfacts : namedOnlyTask.facts = .of module := by rw [namedOnlyTask, hread, Option.getD_some]
  have hself : namedOnlyTask.module = module := by rw [Task.module, hfacts]; rfl
  constructor
  · obtain ⟨r, hout, hrun⟩ := exists_of_toOption_map hrun
    exact ⟨r.1, r.2, hout, hrun⟩
  · intro hgone
    obtain ⟨hrestricted, -⟩ := (mutable_defaults_gone_iff hread hfacts).1.1 hgone
    obtain ⟨f, hf, hmutable⟩ := any_eq_true.1 hmutable
    obtain ⟨p, hp, hmutable⟩ := any_eq_true.1 hmutable
    rw [hself] at hf
    rw [hrestricted f hf p hp] at hmutable
    cases hmutable

end Mender.Codemod
