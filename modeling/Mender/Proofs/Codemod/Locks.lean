import Mender.Codemod.Lock
import Mender.Proofs.Codemod.Generators
import Mender.Proofs.Edit.Heads

/-!
# Locks that get names

A `with` statement that makes a lock becomes two statements: an assignment of the lock to a new variable, and the
statement with the variable. All other `with` statements are kept as they were, with all that is in them, so the pass is
lossy (`lossy_lockNames`).

* `LockLeft` — what one step makes of a statement;
* `fresh_names_found` — all names of a run are new and different;
* `new_names_differ_iff` — when they differ from all names that are used.
-/

namespace Mender.Codemod

open Syntax Node Scope Mender.Edit List

/-- The assignment that makes a lock. -/
def lockAssign (name maker : Node) : Node :=
  make .assign [(.targets, seq [make .assignTarget [(.target, name)]]), (.value, maker)]

/-- The item that uses a lock by its name. -/
def lockItem (name asname : Node) : Node := make .withItem [(.item, name), (.asname, asname)]

/-- A statement on a line of its own. -/
def lineOf (statement : Node) : Node := make .simpleStatementLine [(.body, seq [statement])]

namespace Task

variable {t : Task} {old new : Node} {e : Syntax.Edit} {s s' notes : Notes}
variable (taken : List String) (base : String)

/-- Is a lock made in the one item of a `with` statement, where it was found? -/
def namesLock (t : Task) (n : Node) : Bool :=
  match n.list .items with
  | [item] => match t.selects item with
    | .ok b => b
    | .error _ => false
  | _ => false

/-- The next new name: the fresh one for a base name, where the module's names and the new ones so far are taken. -/
def nextName (t : Task) (s : Notes) (base : String) : String := freshName (t.facts.usedNames ++ s.newNames) base

/-- What a step makes of a node. A `with` statement that makes one lock gets the next new name after the function that
makes it, which is written and is then among the new names. Everything else is kept and no name is added. -/
inductive LockLeft (t : Task) (old new : Node) (s s' : Notes) : Syntax.Edit → Prop
  | other : old.kind ≠ .withStatement → s'.newNames = s.newNames → LockLeft t old new s s' (.keep new)
  | stays : old.kind = .withStatement → (t.namesLock old = true → (new.list .items).length ≠ 1) →
      s'.newNames = s.newNames → LockLeft t old new s s' (.keep old)
  | named {item newItem : Node} {base : String} : old.kind = .withStatement → t.namesLock old = true →
      old.list .items = [item] → new.list .items = [newItem] → managerName item = .ok base →
      s'.newNames = s.newNames ++ [t.nextName s base] →
      LockLeft t old new s s' (.splice [lineOf (lockAssign (ofName (t.nextName s base)) (newItem.get .item)),
        new.setList .items [lockItem (ofName (t.nextName s base)) (newItem.get .asname)]])

/-- What a step writes: a variable whose name was free and is then among the new names, or none. -/
inductive Writes (t : Task) (s s' : Notes) : Syntax.Edit → Prop
  | nothing {n : Node} : s'.newNames = s.newNames → Writes t s s' (.keep n)
  | name {text : String} {n maker asname : Node} : text ∉ t.facts.usedNames ++ s.newNames →
      s'.newNames = s.newNames ++ [text] →
      Writes t s s' (.splice [lineOf (lockAssign (ofName text) maker), n.setList .items [lockItem (ofName text) asname]])

lemma toString_injective {i j : Nat} (h : toString i = toString j) : i = j := by
  have hdigits : Nat.toDigits 10 i = Nat.toDigits 10 j := String.ofList_injective h
  have hread := congrArg (Nat.ofDigitChars 10 · 0) hdigits
  simpa only [Nat.ofDigitChars_ten_toDigits] using hread

/-- The names that are tried for a variable, one after the other. -/
def candidate : Nat → String
  | 0 => base
  | k + 1 => numberedName base (k + 1)

lemma exists_candidate : ∃ k, freshName taken base = candidate base k ∧
    candidate base k ∉ taken ∧ ∀ j < k, candidate base j ∈ taken := by
  rw [freshName]
  split
  next htaken =>
    rw [find?_map]
    cases hfind : (range (taken.length + 1)).find? ((! taken.contains ·) ∘ fun i => numberedName base (i + 1)) with
    | some k =>
      obtain ⟨hfree, -, hall⟩ := find?_range_eq_some.1 hfind
      refine ⟨k + 1, rfl, by simpa [candidate] using hfree, fun j hj => ?_⟩
      cases j with
      | zero => simpa [candidate] using htaken
      | succ j => simpa [candidate] using hall j (Nat.lt_of_succ_lt_succ hj)
    | none =>
      -- there are more numbered names than taken ones
      rw [find?_eq_none] at hfind
      have hsubset : (range (taken.length + 1)).map (fun i => numberedName base (i + 1)) ⊆ taken := by
        rw [subset_def, forall_mem_map]
        exact fun i hi => by simpa using hfind i hi
      have hnodup : ((range (taken.length + 1)).map fun i => numberedName base (i + 1)).Nodup :=
        nodup_range.map fun i j heq => Nat.succ.inj (toString_injective ((String.append_right_inj _).1 heq))
      have hlength := (subperm_of_subset hnodup hsubset).length_le
      rw [length_map, length_range] at hlength
      omega
  next hfree => exact ⟨0, rfl, by simpa [candidate] using hfree, nofun⟩

lemma notMem_freshName : freshName taken base ∉ taken := by
  obtain ⟨k, heq, hfree, -⟩ := exists_candidate taken base
  rwa [heq]

/-- The names that are found for some bases, each of them taken afterwards. -/
def freshNames (taken : List String) : List String → List String
  | [] => []
  | base :: bases => freshName taken base :: freshNames (taken ++ [freshName taken base]) bases

lemma freshNames_append (bases : List String) (base : String) : freshNames taken (bases ++ [base]) =
    freshNames taken bases ++ [freshName (taken ++ freshNames taken bases) base] := by
  induction bases generalizing taken with
  | nil => simp [freshNames]
  | cons b bases ih => simp [freshNames, ih]

lemma nodup_freshNames (bases : List String) :
    (freshNames taken bases).Nodup ∧ ∀ x ∈ freshNames taken bases, x ∉ taken := by
  induction bases generalizing taken with
  | nil => exact ⟨nodup_nil, nofun⟩
  | cons base bases ih =>
    obtain ⟨hnodup, hfree⟩ := ih (taken ++ [freshName taken base])
    simp only [mem_append, mem_singleton, not_or] at hfree
    refine ⟨nodup_cons.2 ⟨fun h => (hfree _ h).2 rfl, hnodup⟩, forall_mem_cons.2 ⟨notMem_freshName _ _, ?_⟩⟩
    exact fun x hx => (hfree x hx).1

lemma LockLeft.writes (h : t.LockLeft old new s s' e) : t.Writes s s' e := by
  cases h with
  | other _ hsame | stays _ _ hsame => exact .nothing hsame
  | named _ _ _ _ _ hnames => exact .name (notMem_freshName _ _) hnames

lemma leave_lockNames (h : (t.lockNames.leave old new).run s = .ok (e, s')) :
    t.LockLeft old new s s' e ∧ s'.needed = s.needed ∧ s'.superfluous = s.superfluous := by
  unfold Task.lockNames at h
  dsimp only at h
  have hreport (hkind : old.kind ≠ .withStatement)
      (h : (do if ← t.selects old then t.report old
               return .keep new : Work Syntax.Edit).run s = .ok (e, s')) :
      t.LockLeft old new s s' e ∧ s'.needed = s.needed ∧ s'.superfluous = s.superfluous := by
    obtain ⟨selected, -, h⟩ := of_lift_bind h
    cases selected with
    | false =>
      cases h
      exact ⟨.other hkind rfl, rfl, rfl⟩
    | true =>
      obtain ⟨⟨⟩, s₁, hreport, h⟩ := of_run_bind h
      obtain ⟨line, -, hreport⟩ := of_lift_bind hreport
      cases hreport
      cases h
      exact ⟨.other hkind rfl, rfl, rfl⟩
  split at h
  next hkind => exact hreport (by rw [hkind]; decide) h
  next hkind => exact hreport (by rw [hkind]; decide) h
  next hkind =>
    split at h
    next item newItem hitems hnewItems =>
      obtain ⟨selected, hselected, h⟩ := of_lift_bind h
      cases selected with
      | false =>
        cases h
        refine ⟨.stays hkind (fun hnames => ?_) rfl, rfl, rfl⟩
        simp [namesLock, hitems, hselected] at hnames
      | true =>
        obtain ⟨base, hbase, h⟩ := of_lift_bind h
        obtain ⟨s₁, s₂, hget, h⟩ := of_run_bind h
        cases hget
        obtain ⟨⟨⟩, s₃, hmodify, h⟩ := of_run_bind h
        cases hmodify
        obtain ⟨name, hname, h⟩ := of_lift_bind h
        obtain ⟨n', hn', h⟩ := of_lift_bind h
        cases h
        obtain rfl := eq_of_sound hn'
        obtain rfl := eq_of_sound hname
        exact ⟨.named hkind (by simp [namesLock, hitems, hselected]) hitems hnewItems hbase rfl, rfl, rfl⟩
    next hnot =>
      cases h
      refine ⟨.stays hkind (fun hnames hlength => ?_) rfl, rfl, rfl⟩
      rw [namesLock] at hnames
      split at hnames
      next item hitems =>
        obtain ⟨newItem, hnewItem⟩ := length_eq_one_iff.1 hlength
        exact hnot item newItem hitems hnewItem
      next => cases hnames
  next _ _ hkind =>
    cases h
    exact ⟨.other hkind rfl, rfl, rfl⟩

variable {n out module : Node}

lemma exists_lockLeft (h : t.lockNames.Makes n e) :
    ∃ new, RebuiltTo t.lockNames.Makes n new ∧ ∃ s s', t.LockLeft n new s s' e := by
  obtain ⟨new, hnew, s, s', hleave⟩ := Pass.exists_rebuiltTo (fun _ => rfl) h
  exact ⟨new, hnew, s, s', (leave_lockNames hleave).1⟩

lemma rebuiltTo_of_lockNames_inner (hinner : MadeOf isInner n) (h : t.lockNames.Makes n e) :
    ∃ new, RebuiltTo t.lockNames.Makes n new ∧ e = .keep new := by
  obtain ⟨new, hnew, s, s', hleft⟩ := exists_lockLeft h
  cases hleft with
  | other => exact ⟨new, hnew, rfl⟩
  | stays hkind | named hkind => exact absurd hkind (hinner.kind_ne rfl)

lemma cleared_of_lockNames_inner (hinner : MadeOf isInner n) (h : t.lockNames.Makes n e) :
    ∃ n', e = .keep n' ∧ n'.cleared = n.cleared := cleared_of_inner rebuiltTo_of_lockNames_inner hinner h

/-! ## The two statements -/

/-- What is said in place of a statement: the two heads if it is a `with` statement, and what it said otherwise. -/
def NamedHeads (n : Node) (head : List (Kind × List Node)) : Prop :=
  if n.kind = .withStatement then
    ∃ item name, n.list .items = [item] ∧ name.kind = .name ∧
      head = [(.assign, [(lockAssign name (item.get .item)).cleared]),
        (.withStatement, [(lockItem name (item.get .asname)).cleared])]
  else head = heads n

lemma listed_lineOf {name maker : Node} (hname : MadeOf isInner name) (hmaker : MadeOf isInner maker) :
    listed heads (lineOf (lockAssign name maker)) = [(.assign, [(lockAssign name maker).cleared])] := by
  have hassign : ∀ c ∈ (lockAssign name maker).visited, MadeOf isInner c := by
    have hvisited : (lockAssign name maker).visited = make .assignTarget [(.target, name)] :: (maker.opened ++ []) := rfl
    rw [hvisited, append_nil]
    refine forall_mem_cons.2 ⟨madeOf_make isInner_of_isQuiet rfl (by simpa using hname) _, fun c hc => hmaker.of_mem_opened hc⟩
  have hvisited : (lineOf (lockAssign name maker)).visited = [lockAssign name maker, fresh .trailingWhitespace] := rfl
  rw [listed_eq, hvisited, flatMap_cons, flatMap_singleton, listed_heads_of_inner (madeOf_fresh isInner_of_isQuiet rfl), listed_eq,
    flatMap_listed_heads_of_inner hassign]
  rfl

lemma flatMap_listed_named {name item newItem : Node} (hkind : new.kind = .withStatement)
    (hinner : MadeOf isInner (new.get .items)) (hmem : newItem ∈ new.list .items) (hitem : newItem.cleared = item.cleared)
    (hname : MadeOf isInner name) (n : Node) (isBody : Bool) :
    ((Edit.splice [lineOf (lockAssign name (newItem.get .item)),
        new.setList .items [lockItem name (newItem.get .asname)]]).members isBody n).flatMap (listed heads) =
      [(.assign, [(lockAssign name (item.get .item)).cleared]),
        (.withStatement, [(lockItem name (item.get .asname)).cleared])] ++ new.visited.flatMap (listed heads) := by
  have hget (s : Slot) : (newItem.get s).cleared = (item.get s).cleared := by
    rw [← get_cleared, hitem, get_cleared]
  have hpart (s : Slot) : MadeOf isInner (newItem.get s) := (hinner.of_mem_items hmem).get isInner_of_isQuiet s
  have hassign : (lockAssign name (newItem.get .item)).cleared = (lockAssign name (item.get .item)).cleared := by
    rw [lockAssign, lockAssign, cleared_make, cleared_make]
    simp only [foldl_cons, foldl_nil, hget]
  have hguard : (lockItem name (newItem.get .asname)).cleared = (lockItem name (item.get .asname)).cleared := by
    rw [lockItem, lockItem, cleared_make, cleared_make]
    simp only [foldl_cons, foldl_nil, hget]
  have hguardInner : MadeOf isInner (lockItem name (newItem.get .asname)) :=
    madeOf_make isInner_of_isQuiet rfl (by simpa using ⟨hname, hpart .asname⟩) _
  have hkind' : (new.setList .items [lockItem name (newItem.get .asname)]).kind = .withStatement := by
    rw [setList, kind_set, hkind]
  have hlist : (new.setList .items [lockItem name (newItem.get .asname)]).list .items =
      [lockItem name (newItem.get .asname)] := list_setList (kind_of_mem_items hmem) _
  -- neither of the two gets lost in a run
  have hmembers : (Edit.splice [lineOf (lockAssign name (newItem.get .item)),
      new.setList .items [lockItem name (newItem.get .asname)]]).members isBody n =
      [lineOf (lockAssign name (newItem.get .item)), new.setList .items [lockItem name (newItem.get .asname)]] := by
    have hline : (lineOf (lockAssign name (newItem.get .item))).isSpentLine = false := rfl
    have hspent : (new.setList .items [lockItem name (newItem.get .asname)]).isSpentLine = false := by
      simp [isSpentLine, hkind']
    simp [Edit.members, hline, hspent]
  rw [hmembers, flatMap_cons, flatMap_singleton, listed_lineOf hname (hpart .item), listed_eq, heads, hkind']
  rw [hlist, setList, flatMap_listed_set hinner (madeOf_seq isInner_of_isQuiet (by simpa using hguardInner)), hassign, map_singleton, hguard]
  rfl

lemma items_of_rebuiltTo (hn : Settled n) (hkind : n.kind = .withStatement) (hnew : RebuiltTo t.lockNames.Makes n new) :
    (new.list .items).map cleared = (n.list .items).map cleared ∧ MadeOf isInner (new.get .items) := by
  have hget := cleared_get_of_rebuiltTo cleared_of_lockNames_inner hn hnew (s := .items) (by rw [hkind]; rfl)
  refine ⟨?_, inner_get_of_rebuiltTo cleared_of_lockNames_inner hn hnew (by rw [hkind]; decide) (by rw [hkind]; rfl)⟩
  rw [← list_cleared, ← list_cleared, list, list, get_cleared, get_cleared, hget]

lemma length_items_of_namesLock (hn : Settled n) (hkind : n.kind = .withStatement) (hnames : t.namesLock n = true)
    (hnew : RebuiltTo t.lockNames.Makes n new) : (new.list .items).length = 1 := by
  have hsame := congrArg length (items_of_rebuiltTo hn hkind hnew).1
  rw [length_map, length_map] at hsame
  rw [hsame]
  rw [namesLock] at hnames
  split at hnames
  next hitems =>
    rw [hitems]
    rfl
  next => cases hnames

lemma lossy_lockNames (hsettled : Settled module) :
    Lossy .withStatement t.namesLock module heads NamedHeads t.lockNames.Makes where
  kind := rfl
  filler {n} h := by
    rw [NamedHeads, if_neg (ne_of_apply_ne Kind.isFiller (by rw [h]; decide))]
  keepsKind {n n'} _ h := by
    obtain ⟨new, hnew, s, s', hleft⟩ := exists_lockLeft h
    cases hleft with
    | other => exact hnew.kind
    | stays => rfl
  undecided {n e} _ hkind hdecided h := by
    obtain ⟨new, -, s, s', hleft⟩ := exists_lockLeft h
    cases hleft with
    | other hne => exact absurd hkind hne
    | stays => rfl
    | named _ hnames =>
      rw [hdecided] at hnames
      cases hnames
  rebuilt {n e} hn hdecided h := by
    rcases hsettled.cases_met hn with hstatement | hinner
    · obtain ⟨new, hnew, s, s', hleft⟩ := exists_lockLeft h
      cases hleft with
      | other hne =>
        exact ⟨new, heads n, hnew, by rw [NamedHeads, if_neg hne],
          flatMap_listed_members cleared_of_lockNames_inner hstatement hnew⟩
      | stays hkind hlength =>
        have hnames := hdecided hkind
        exact absurd (length_items_of_namesLock hstatement hkind hnames hnew) (hlength hnames)
      | @named item newItem base hkind _ hitems hnewItems =>
        have hnameInner : MadeOf isInner (ofName (t.nextName s base)) := madeOf_make isInner_of_isQuiet rfl (by simp) _
        obtain ⟨hcleared, hinner⟩ := items_of_rebuiltTo hstatement hkind hnew
        have hitem : newItem.cleared = item.cleared := by
          rw [hitems, hnewItems] at hcleared
          simpa using hcleared
        refine ⟨new, _, hnew, ?_, flatMap_listed_named (hnew.kind.trans hkind) hinner (by simp [hnewItems]) hitem hnameInner n⟩
        rw [NamedHeads, if_pos hkind]
        exact ⟨item, _, hitems, rfl, rfl⟩
    · obtain ⟨new, hnew, hlisted⟩ := exists_listed_of_inner rebuiltTo_of_lockNames_inner hinner h
      exact ⟨new, heads n, hnew, by rw [NamedHeads, if_neg (hinner.kind_ne rfl)], hlisted⟩

lemma pieces_of_nameLocks {source : String} (hread : Node.ofModule? source = some t.module)
    (h : t.nameLocks = .ok (out, notes)) :
    Lossy.Pieces .withStatement t.namesLock t.module heads NamedHeads t.module (listed heads out) := by
  have hsettled := settled_of_read hread
  have hedit := run_of_command (fun _ => rfl) (fun h => (leave_lockNames h).2) (of_withScopes h)
  exact (lossy_lockNames hsettled).pieces_of_module (numbered_of_read hread) (isModule_of_read hread).kind (by decide)
    ⟨_, _, hedit⟩

end Task

end Mender.Codemod

/-! ## Names for new variables

A lock gets a variable of its own, with a name that is not taken. Taken are the names in all that the module binds at its
top level, with whole definitions, and the new names. So no two variables get one name (`nodup_freshNames`), and a new name
can be one that the module has only where it stands outside of all these (`Outside`). -/

namespace Mender

open List

namespace Scope.Facts

open Syntax

/-- The node that makes a binding. -/
def bindingNode? (f : Facts) (b : Binding) : Option Node :=
  match b.origin with
  | .imported m | .defined m => f.node? m
  | .builtin => none

lemma mem_usedNames_of_mem_nodes {f : Facts} {b : Binding} {d n : Node} (hb : b ∈ f.scopes.bindings)
    (hscope : b.scope = Scopes.moduleScope) (hd : f.bindingNode? b = some d) (hn : n ∈ d.nodes) (hkind : n.kind = .name) :
    n.text ∈ f.usedNames := by
  refine mem_flatMap_of_mem (mem_filter.2 ⟨Array.mem_toList_iff.2 hb, beq_iff_eq.2 hscope⟩) ?_
  rw [bindingNode?] at hd
  have htext : n.text ∈ (d.nodes.filter (·.kind == .name)).map (·.text) :=
    mem_map_of_mem (mem_filter.2 ⟨hn, beq_iff_eq.2 hkind⟩)
  cases horigin : b.origin with
  | imported m | defined m =>
    rw [horigin] at hd
    dsimp only [Option.bind_some] at hd ⊢
    rwa [hd]
  | builtin =>
    rw [horigin] at hd
    cases hd

end Scope.Facts

namespace Codemod

open Syntax Node Scope

namespace Task

variable {t : Task} {out : Node} {s s' notes : Notes}

/-- Is a node outside of all nodes that bind a name at the top level of the module? -/
def Outside (t : Task) (n : Node) : Prop :=
  ∀ b ∈ t.facts.scopes.bindings, b.scope = Scopes.moduleScope → ∀ d, t.facts.bindingNode? b = some d → n ∉ d.nodes

lemma edit_of_nameLocks (h : t.nameLocks = .ok (out, notes)) : (t.lockNames.edit t.module).run {} = .ok (.keep out, notes) :=
  run_of_command (fun _ => rfl) (fun h => (leave_lockNames h).2) (of_withScopes h)

lemma exists_freshNames (h : t.nameLocks = .ok (out, notes)) :
    ∃ bases, notes.newNames = freshNames t.facts.usedNames bases := by
  refine Pass.keeps_edit (I := fun s => ∃ bases, s.newNames = freshNames t.facts.usedNames bases)
    (fun _ => .pure _) (fun old _ new s e s' hleave hs => ?_) _ _ _ (edit_of_nameLocks h) ⟨[], rfl⟩
  obtain ⟨bases, hs⟩ := hs
  cases (leave_lockNames hleave).1 with
  | other _ hsame | stays _ _ hsame => exact ⟨bases, hsame.trans hs⟩
  | @named _ _ base _ _ _ _ _ hnames => exact ⟨bases ++ [base], by rw [hnames, nextName, freshNames_append, hs]⟩

/-- Is a node a `with` statement whose lock gets a name? -/
def makesLock (t : Task) (n : Node) : Bool := n.kind == .withStatement && t.namesLock n

/-- The name after which the variable for a lock is named. -/
def LockBase (n : Node) (base : String) : Prop := ∃ item, n.list .items = [item] ∧ managerName item = .ok base

/-- The names of a run, one for each statement that makes a lock, in the order in which the statements are left. -/
lemma exists_bases_of_leaving {ns : List Node} (hsettled : ∀ n ∈ ns, n.kind = .withStatement → Settled n)
    (h : t.lockNames.Leaving ns s s') {before : List String} (hs : s.newNames = freshNames t.facts.usedNames before) :
    ∃ bases, Forall₂ LockBase (ns.filter t.makesLock) bases ∧
      s'.newNames = freshNames t.facts.usedNames (before ++ bases) := by
  induction h generalizing before with
  | nil => exact ⟨[], .nil, by rw [append_nil, hs]⟩
  | @cons old new e s s₁ s' ns hnew hleave _ ih =>
    obtain ⟨hold, hrest⟩ := forall_mem_cons.1 hsettled
    have hsame (hnot : t.makesLock old = false) (hs₁ : s₁.newNames = s.newNames) :
        ∃ bases, Forall₂ LockBase ((old :: ns).filter t.makesLock) bases ∧
          s'.newNames = freshNames t.facts.usedNames (before ++ bases) := by
      rw [filter_cons_of_neg (by rw [hnot]; decide)]
      exact ih hrest (hs₁.trans hs)
    cases (leave_lockNames hleave).1 with
    | other hkind hs₁ => exact hsame (by simp [makesLock, hkind]) hs₁
    | stays hkind hlength hs₁ =>
      refine hsame ?_ hs₁
      rw [makesLock, Bool.and_eq_false_iff]
      exact .inr (Bool.eq_false_iff.2 fun hnames =>
        hlength hnames (length_items_of_namesLock (hold hkind) hkind hnames hnew))
    | @named item newItem base hkind hnames hitems _ hbase hs₁ =>
      rw [nextName, hs, ← freshNames_append] at hs₁
      obtain ⟨bases, hbases, hs'⟩ := ih hrest hs₁
      refine ⟨base :: bases, ?_, by rw [hs', append_assoc, singleton_append]⟩
      rw [filter_cons_of_pos (by simp [makesLock, hkind, hnames])]
      exact .cons ⟨item, hitems, hbase⟩ hbases

lemma exists_bases_of_nameLocks {source : String} (hread : Node.ofModule? source = some t.module)
    (h : t.nameLocks = .ok (out, notes)) :
    ∃ locks bases, locks.Perm (t.module.met.filter t.makesLock) ∧ Forall₂ LockBase locks bases ∧
      notes.newNames = freshNames t.facts.usedNames bases := by
  obtain ⟨ns, hns, hleaving⟩ := Pass.exists_leaving (fun _ => rfl) (edit_of_nameLocks h)
  have hsettled (n : Node) (hn : n ∈ ns) (hkind : n.kind = .withStatement) : Settled n := by
    rcases (settled_of_read hread).cases_met (hns.mem_iff.1 hn) with hsettled | hinner
    · exact hsettled
    · exact absurd hkind (hinner.kind_ne rfl)
  have hstart : ({} : Notes).newNames = freshNames t.facts.usedNames [] := rfl
  obtain ⟨bases, hbases, hnames⟩ := exists_bases_of_leaving hsettled hleaving hstart
  exact ⟨_, bases, hns.filter _, hbases, hnames⟩

/-- **Fresh names are found**: of the base name and the numbered ones, the first that is not taken. Names that are made one
after the other differ from each other and from all that were taken before. A step adds the next of them for each
statement that makes a lock, and writes it; and the names of a run are those of its locks, each named after the function
that makes it. -/
theorem fresh_names_found (t : Task) (taken : List String) (base : String) :
    (∃ k, freshName taken base = candidate base k ∧ candidate base k ∉ taken ∧ ∀ j < k, candidate base j ∈ taken) ∧
      (∀ bases, (freshNames taken bases).Nodup ∧ ∀ x ∈ freshNames taken bases, x ∉ taken) ∧
      (∀ old new s e s', (t.lockNames.leave old new).run s = .ok (e, s') → t.LockLeft old new s s' e) ∧
      ∀ source out notes, Node.ofModule? source = some t.module → t.nameLocks = .ok (out, notes) →
        (notes.newNames.Nodup ∧ ∀ x ∈ notes.newNames, x ∉ t.facts.usedNames) ∧
          ∃ locks bases, locks.Perm (t.module.met.filter t.makesLock) ∧ Forall₂ LockBase locks bases ∧
            notes.newNames = freshNames t.facts.usedNames bases := by
  refine ⟨exists_candidate taken base, nodup_freshNames taken, fun _ _ _ _ _ h => (leave_lockNames h).1, ?_⟩
  intro source out notes hread h
  obtain ⟨locks, bases, hlocks, hbases, hnames⟩ := exists_bases_of_nameLocks hread h
  refine ⟨?_, locks, bases, hlocks, hbases, hnames⟩
  rw [hnames]
  exact nodup_freshNames _ _

end Task

/-- Two locks are named, where the first choice is taken already. -/
def twoLocks : String :=
  "import threading\nlock = 1\nwith threading.Lock():\n    f()\nwith threading.Lock():\n    g()\n"

def twoLocksTask : Task where
  facts := .of ((Node.ofModule? twoLocks).getD .absent)
  findings := [{ rule := "", locations := [.ofNumbers "" ⟨3, 6, 3, 22⟩, .ofNumbers "" ⟨5, 6, 5, 22⟩] }]

/-- Two locks where the base name is taken get the next two numbered names. -/
theorem twoLocks_named : ∃ out notes, twoLocksTask.nameLocks = .ok (out, notes) ∧ notes.newNames = ["lock_1", "lock_2"] ∧
    out.code = "import threading\nlock = 1\nlock_1 = threading.Lock()\nwith lock_1:\n    f()\n" ++
      "lock_2 = threading.Lock()\nwith lock_2:\n    g()\n" ∧
    ∃ locks bases, locks.Perm (twoLocksTask.module.met.filter twoLocksTask.makesLock) ∧ locks.length = 2 ∧
      Forall₂ Task.LockBase locks bases ∧ ["lock_1", "lock_2"] = Task.freshNames twoLocksTask.facts.usedNames bases := by
  have hsome : (Node.ofModule? twoLocks).isSome = true := by decide +kernel
  obtain ⟨module, hmodule⟩ := Option.isSome_iff_exists.1 hsome
  have hread : Node.ofModule? twoLocks = some twoLocksTask.module := by
    rw [Task.module, twoLocksTask, Facts.of]
    simp only [hmodule, Option.getD_some]
  have hrun : (twoLocksTask.nameLocks.toOption.map fun r => (r.2.newNames, r.1.code)) = some (["lock_1", "lock_2"],
      "import threading\nlock = 1\nlock_1 = threading.Lock()\nwith lock_1:\n    f()\n" ++
        "lock_2 = threading.Lock()\nwith lock_2:\n    g()\n") := by
    decide +kernel
  obtain ⟨r, h, hrun⟩ := exists_of_toOption_map hrun
  obtain ⟨hnames, hcode⟩ := Prod.mk.inj hrun
  obtain ⟨-, -, -, hall⟩ := Task.fresh_names_found twoLocksTask [] ""
  obtain ⟨-, locks, bases, hlocks, hbases, hfresh⟩ := hall twoLocks r.1 r.2 hread h
  have hlength : (twoLocksTask.module.met.filter twoLocksTask.makesLock).length = 2 := by decide +kernel
  rw [hnames] at hfresh
  exact ⟨r.1, r.2, h, hnames, hcode, locks, bases, hlocks, hlocks.length_eq.trans hlength, hbases, hfresh⟩

namespace Task

variable {t : Task} {out : Node} {notes : Notes}

/-- **New variables have names of their own**, and whatever identifiers of the module are meant (`P`), the names differ
from all of them if and only if they differ from those that stand outside of all that is bound at the top level. -/
theorem new_names_differ_iff (h : t.nameLocks = .ok (out, notes)) :
    (t.lockNames.edit t.module).run {} = .ok (.keep out, notes) ∧
      (∀ old new s e s', (t.lockNames.leave old new).run s = .ok (e, s') → Writes t s s' e) ∧
      notes.newNames.Nodup ∧
      ∀ P : Node → Prop, (∀ x ∈ notes.newNames, ∀ n ∈ t.module.nodes, n.kind = .name → P n → n.text ≠ x) ↔
          ∀ x ∈ notes.newNames, ∀ n ∈ t.module.nodes, n.kind = .name → P n → t.Outside n → n.text ≠ x := by
  obtain ⟨bases, hbases⟩ := exists_freshNames h
  obtain ⟨hnodup, hfree⟩ := hbases ▸ nodup_freshNames t.facts.usedNames bases
  refine ⟨edit_of_nameLocks h, fun old new s e s' hleave => (leave_lockNames hleave).1.writes, hnodup, fun P => ?_⟩
  refine ⟨fun hall x hx n hn hkind hP _ => hall x hx n hn hkind hP, fun hall x hx n hn hkind hP heq => ?_⟩
  refine hall x hx n hn hkind hP (fun b hb hscope d hd hmem => ?_) heq
  exact hfree x hx (heq ▸ Facts.mem_usedNames_of_mem_nodes hb hscope hd hmem hkind)

end Task

/-- A name that a star import may bind looks free. -/
def starLock : String := "import threading\nfrom locks import *\nwith threading.Lock():\n    lock.acquire()\n"

def starLockTask : Task where
  facts := .of ((Node.ofModule? starLock).getD .absent)
  findings := [{ rule := "", locations := [.ofNumbers "" ⟨3, 6, 3, 22⟩] }]

/-- The variable hides the lock that the module reads. -/
theorem starLock_hidden : ∃ out notes, starLockTask.nameLocks = .ok (out, notes) ∧ notes.newNames = ["lock"] ∧
      out.code = "import threading\nfrom locks import *\nlock = threading.Lock()\nwith lock:\n    lock.acquire()\n" ∧
      ∃ n ∈ starLockTask.module.nodes, n.kind = .name ∧ n.text = "lock" ∧ starLockTask.Outside n := by
  have hrun : (starLockTask.nameLocks.toOption.map fun r => (r.2.newNames, r.1.code)) = some (["lock"],
      "import threading\nfrom locks import *\nlock = threading.Lock()\nwith lock:\n    lock.acquire()\n") := by
    decide +kernel
  have hread : ∃ n ∈ starLockTask.module.nodes, n.kind = .name ∧ n.text = "lock" := by
    decide +kernel
  obtain ⟨r, h, hrun⟩ := exists_of_toOption_map hrun
  obtain ⟨hnames, hcode⟩ := Prod.mk.inj hrun
  obtain ⟨-, -, -, hiff⟩ := Task.new_names_differ_iff h
  refine ⟨r.1, r.2, h, hnames, hcode, ?_⟩
  obtain ⟨n, hn, hkind, htext⟩ := hread
  by_contra hnone
  push Not at hnone
  refine (hiff fun _ => True).2 (fun x hx n hn hkind _ hout heq => ?_) "lock" (by simp [hnames]) n hn hkind trivial htext
  rw [hnames, mem_singleton] at hx
  exact hnone n hn hkind (heq.trans hx) hout

end Codemod

end Mender
