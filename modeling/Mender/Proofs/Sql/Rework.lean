import Mender.Codemod.Sql
import Mender.Proofs.Edit.Steps
import Mender.Proofs.Sql.Reading
import Mender.Proofs.Syntax.Literals

/-!
# What becomes of the leaves of a query

A `Rework` is a list of replacements. What it makes of a leaf depends only on what was done to the leaf so far: it
was taken out, or it was cut a number of times at its front and at its end. A `Deed` is one such step, and `Reworked`
says that a list of replacements agrees with a list of deeds.

* `Reworked.fixInjections` — what cutting out a list of SQL literals does;
* `Reworked.readingOf_eq` — what a leaf reads in the end.
-/

namespace Mender.Sql

open Syntax Literal Quoted List

variable {raw escaped behind : Bool} {cs quote ds : List Char} {c r : Quoted}

/-! ## Pieces of a text stand behind its quote -/

lemma bare_of_more {t q : List Char} {c : Char} (h : quotedFrom raw behind cs = .more t q r) (hbare : Bare c escaped cs)
    (hescaped : escaped = true → behind = true) :
    Bare c false r.text := by
  fun_induction quotedFrom raw behind cs generalizing t escaped with
  | case1 => cases h
  | case2 rest ih | case6 _ d rest hd hrest ih =>
    obtain ⟨t', ht⟩ := eq_more_of_push h
    exact ih ht hbare.tail (by simp)
  | case3 _ rest hb ih =>
    cases h
    rw [text_quotedFrom]
    simpa using hbare.tail
  | case4 _ rest hb ih =>
    obtain ⟨t', ht⟩ := eq_more_of_push h
    exact ih ht hbare.tail.tail (by simp)
  | case5 _ rest hb ih =>
    cases h
    rw [text_quotedFrom]
    simpa using hbare.tail.tail

lemma bare_drop {q : Char} (h : Exact raw false c) (hbare : Bare q false c.text) (a : Nat) :
    Bare q false (c.drop a).text := by
  fun_induction Quoted.drop a c with
  | case1 | case2 => exact hbare
  | case3 a t q' r ih => exact ih (of_more h).2 (bare_of_more h hbare id)

lemma fits_isPrefix (h : Fits quote cs) (hds : ds <+: cs) : Fits quote ds := by
  intro hquote
  obtain ⟨rest, rfl⟩ := hds
  cases ds with
  | nil =>
    obtain ⟨q, rfl⟩ := length_eq_one_iff.1 hquote
    exact nofun
  | cons d ds => exact h hquote

lemma fits_snoc (h : Fits quote cs) (hq : quote ∈ quotes) : Fits quote (cs ++ ['?']) := by
  cases cs with
  | nil =>
    simp only [quotes, mem_cons, not_mem_nil, or_false] at hq
    rcases hq with rfl | rfl | rfl | rfl <;> (intro hlength; revert hlength; decide)
  | cons c cs => exact h

lemma fits_cut (h : Exact raw false c) (hbare : ∀ q, quote = [q] → Bare q false c.text) (hq : quote ∈ quotes) (a b : Nat) :
    Fits quote (c.cut a b).text := by
  have hdrop : Fits quote (c.drop a).text := fits_of_bare fun q hquote => bare_drop h (hbare q hquote) a
  have htake := fits_isPrefix hdrop (text_take_isPrefix (c.count - a - b) (c.drop a))
  unfold cut
  split
  · exact htake
  · rw [text_snoc]
    exact fits_snoc htake hq

lemma head?_take_zero_ne (h : Exact raw false c) : (c.take 0).text.head? ≠ some '\'' := by
  intro hhead
  obtain ⟨tail, htail⟩ := text_take_isPrefix 0 c
  cases hfront : (c.take 0).text with
  | nil =>
    rw [hfront] at hhead
    cases hhead
  | cons d ds =>
    rw [hfront] at hhead htail
    cases hhead
    -- then the text begins with a quote, and nothing stands in front of it
    rw [Exact, ← htail, cons_append, quotedFrom, if_neg (by simp)] at h
    rw [← h] at hfront
    cases hfront

end Mender.Sql

namespace Mender.Codemod

open Syntax Scope Edit Sql Literal List Option

/-! ## What was done to leaves -/

inductive Deed where
  /-- the leaf was inside an SQL literal and is taken out -/
  | out (mark : Nat)
  /-- an SQL literal has ended in the leaf, which is cut at its first quote -/
  | front (mark : Nat)
  /-- an SQL literal has begun in the leaf, which is cut at its last quote -/
  | back (mark : Nat)
  deriving DecidableEq

variable {raw : Bool} {cs kept : List Char} {c : Quoted} {f : Facts} {n now new n' : Node} {w w' : Rework}
  {ds : List Deed} {l : Leaf} {m : Nat} {d : Deed}

def Deed.mark : Deed → Nat
  | .out m | .front m | .back m => m

/-- Is this a node of the module? Its text literals are such as the lexer reads. -/
structure Known (f : Facts) (n : Node) : Prop where
  mark : ∃ m, n.mark = some m ∧ f.node? m = some n
  literal : n.kind = .simpleString → IsLiteral n.text

lemma node_leaf (f : Facts) (n : Node) : (leaf f n).node = n := rfl

lemma Known.eq_of_mark (h : Known f n) (h' : Known f n') (hmark : n.mark = n'.mark) : n = n' := by
  obtain ⟨m, hm, hn⟩ := h.mark
  obtain ⟨m', hm', hn'⟩ := h'.mark
  rw [hm, hm'] at hmark
  cases hmark
  exact some.inj (hn.symm.trans hn')

def IsTextOf (l : Leaf) (cs : List Char) (new : Node) : Prop :=
  new.kind = l.node.kind ∧
    match l.node.kind with
    | .simpleString => parts new.text = ⟨(parts l.node.text).mark, (parts l.node.text).quote, String.ofList cs⟩
    | .formattedStringText => new.text = String.ofList cs ∧ new.mark = none
    | _ => False

inductive LeafState (w : Rework) (ds : List Deed) (l : Leaf) (m : Nat) : Prop where
  | whole (hnone : replacementOf? w l.node = none) (hout : .out m ∉ ds) (hfront : ds.count (.front m) = 0)
      (hback : ds.count (.back m) = 0)
  | gone (e : Edit) (hsome : replacementOf? w l.node = some (.whole e)) (he : e = .drop ∨ e = .keep emptyText)
      (hout : .out m ∈ ds) (hfront : ds.count (.front m) = 0) (hback : ds.count (.back m) = 0)
      (hquotes : l.quoteCount = 0)
  | cut (new : Node) (hsome : replacementOf? w l.node = some (.whole (.keep new))) (hout : .out m ∉ ds)
      (hpos : 0 < ds.count (.front m) + ds.count (.back m))
      (hle : ds.count (.front m) + ds.count (.back m) ≤ l.quoteCount)
      (htext : IsTextOf l (l.pieces.cut (ds.count (.front m)) (ds.count (.back m))).text new)

/-- Do the replacements agree with what was done to the leaves of a module? -/
def Reworked (f : Facts) (ds : List Deed) (w : Rework) : Prop :=
  ∀ n m, Known f n → n.mark = some m → LeafState w ds (leaf f n) m

lemma reworked_nil (f : Facts) : Reworked f [] [] := by
  intro n m _ hm
  refine .whole ?_ not_mem_nil rfl rfl
  simp [replacementOf?, leaf, hm]

lemma LeafState.of_ne (h : LeafState w ds l m) (hm : l.node.mark = some m) (hd : d.mark ≠ m) (r : Replacement) :
    LeafState (w ++ [(d.mark, r)]) (ds ++ [d]) l m := by
  have hw : replacementOf? (w ++ [(d.mark, r)]) l.node = replacementOf? w l.node := by
    rw [replacementOf?_append w d.mark r hm, if_neg hd]
  have hcount : ∀ d' : Deed, d'.mark = m → (ds ++ [d]).count d' = ds.count d' := by
    rintro d' rfl
    have : d ≠ d' := fun heq => hd (congrArg Deed.mark heq)
    simp [count_append, this]
  have hmem : .out m ∈ ds ++ [d] ↔ .out m ∈ ds := by
    simp only [← count_pos_iff, hcount (.out m) rfl]
  cases h with
  | whole hnone hout hfront hback =>
    exact .whole (by rw [hw, hnone]) (by rwa [hmem]) (by rw [hcount _ rfl, hfront]) (by rw [hcount _ rfl, hback])
  | gone e hsome he hout hfront hback hquotes =>
    exact .gone e (by rw [hw, hsome]) he (by rwa [hmem]) (by rw [hcount _ rfl, hfront]) (by rw [hcount _ rfl, hback])
      hquotes
  | cut new hsome hout hpos hle htext =>
    have hfront := hcount (.front m) rfl
    have hback := hcount (.back m) rfl
    refine .cut new (by rw [hw, hsome]) (by rwa [hmem]) ?_ ?_ ?_ <;> rwa [hfront, hback]

lemma Reworked.append (h : Reworked f ds w) (hn : Known f n) (hm : n.mark = some m) (hd : d.mark = m)
    {r : Replacement} (hnew : LeafState (w ++ [(m, r)]) (ds ++ [d]) (leaf f n) m) :
    Reworked f (ds ++ [d]) (w ++ [(m, r)]) := by
  intro n' m' hn' hm'
  by_cases heq : m = m'
  · subst heq
    cases hn.eq_of_mark hn' (hm.trans hm'.symm)
    exact hnew
  · subst hd
    exact (h n' m' hn' hm').of_ne hm' heq r

lemma Reworked.takeOut (h : Reworked f ds w) (hn : Known f n) (hm : n.mark = some m) (hquotes : (leaf f n).quoteCount = 0) :
    Reworked f (ds ++ [.out m]) (w.takeOut (leaf f n)) := by
  have hcounts : ds.count (.front m) = 0 ∧ ds.count (.back m) = 0 := by
    cases h n m hn hm with
    | whole _ _ hfront hback | gone _ _ _ _ hfront hback => exact ⟨hfront, hback⟩
    | cut _ _ _ hpos hle => omega
  have hw : ∃ e, (e = Edit.drop ∨ e = Edit.keep emptyText) ∧
      w.takeOut (leaf f n) = w ++ [(m, .whole e)] := by
    simp only [Rework.takeOut, node_leaf, hm]
    exact ⟨_, ite_eq_or_eq .., rfl⟩
  obtain ⟨e, he, hw⟩ := hw
  rw [hw]
  refine h.append hn hm rfl (.gone e ?_ he (by simp) ?_ ?_ hquotes)
  · exact (replacementOf?_append w m _ hm).trans (if_pos rfl)
  · simp [count_append, hcounts.1]
  · simp [count_append, hcounts.2]

/-! ## Cutting a leaf -/

lemma kind_of_quoteCount_pos (h : 0 < (leaf f n).quoteCount) : n.kind = .simpleString ∨ n.kind = .formattedStringText := by
  obtain ⟨mark, raw, htext, -⟩ := Leaf.exists_text h
  simp only [leaf, textOf?] at htext
  split at htext
  · exact .inl ‹_›
  · exact .inr ‹_›
  · cases htext

lemma isRead_leaf (f : Facts) (n : Node) : (leaf f n).IsRead := by
  intro mark raw
  rw [leaf]
  fun_cases textOf? f n with
  | case1 hkind | case2 hkind =>
    rintro ⟨⟩
    rw [readingOf, hkind]
  | _ => rintro ⟨⟩

lemma textOf?_of_unmarked (hkind : n.kind = .formattedStringText) (hmark : n.mark = none) : textOf? f n = none := by
  simp only [textOf?, hkind, Facts.parent?, hmark, bind_none]

lemma LeafState.currentText_eq (h : LeafState w ds (leaf f n) m) (hquotes : 0 < (leaf f n).quoteCount) :
    ((currentText f w (leaf f n)).2 = none ∧ n.kind = .formattedStringText ∧ 0 < ds.count (.front m) + ds.count (.back m)) ∨
      ∃ mark raw now, (leaf f n).pieces = quoted (Leaf.isRaw mark) raw ∧ currentText f w (leaf f n) =
          (now, some (mark, ((leaf f n).pieces.cut (ds.count (.front m)) (ds.count (.back m))).text)) ∧
        .out m ∉ ds ∧ ds.count (.front m) + ds.count (.back m) ≤ (leaf f n).quoteCount ∧
        now.kind = n.kind ∧
        (n.kind = .simpleString → (parts now.text).mark = (parts n.text).mark ∧
          (parts now.text).quote = (parts n.text).quote) ∧
        (n.kind = .formattedStringText → ds.count (.front m) + ds.count (.back m) = 0) := by
  obtain ⟨mark, raw, htext, hpieces⟩ := Leaf.exists_text hquotes
  cases h with
  | gone _ _ _ _ _ _ hzero => omega
  | whole hnone hout hfront hback =>
    refine .inr ⟨mark, raw, n, hpieces, ?_, hout, by omega, rfl, fun _ => ⟨rfl, rfl⟩, fun _ => by omega⟩
    simp only [currentText, hnone, htext, hfront, hback, Quoted.cut_zero, hpieces, quoted, text_quotedFrom]
    rfl
  | cut new hsome hout hpos hle hnew =>
    obtain ⟨hkind, hnew⟩ := hnew
    have hcurrent : currentText f w (leaf f n) = (new, textOf? f new) := by simp only [currentText, hsome]
    rcases kind_of_quoteCount_pos hquotes with hsimple | hformat
    · simp only [node_leaf, hsimple] at hnew
      refine .inr ⟨mark, raw, new, hpieces, ?_, hout, hle, hkind, fun _ => by rw [hnew]; exact ⟨rfl, rfl⟩,
        fun hformat => absurd (hsimple.symm.trans hformat) (by decide)⟩
      have hmark : mark = (parts n.text).mark := by
        simp only [leaf, textOf?, hsimple] at htext
        cases htext
        rfl
      rw [hcurrent, hmark]
      simp only [textOf?, hkind.trans hsimple, hnew, String.toList_ofList]
    · simp only [node_leaf, hformat] at hnew
      refine .inl ⟨?_, hformat, hpos⟩
      rw [hcurrent, textOf?_of_unmarked (hkind.trans hformat) hnew.2]

@[simp] lemma kind_literal (mark quote : String) (raw : List Char) : (literal mark quote raw).kind = .simpleString := rfl

@[simp] lemma text_literal (mark quote : String) (raw : List Char) :
    (literal mark quote raw).text = mark ++ quote ++ String.ofList raw ++ quote := rfl

lemma readingOf_extra {mark quote : String} {extra : List Char}
    (h : (parts (mark ++ quote ++ String.ofList extra ++ quote)).raw = String.ofList extra) :
    (if extra.isEmpty then none else some (literal mark quote extra)).toList.flatMap readingOf =
      extra.map .char := by
  split
  case isTrue hempty => simp [isEmpty_iff.1 hempty]
  case isFalse => simp [readingOf, h]

lemma parts_single {extra : List Char} (isRaw : Bool) (h : extra.head? ≠ some '\'') :
    (parts ((if isRaw then "r" else "") ++ "'" ++ String.ofList extra ++ "'")).raw = String.ofList extra := by
  have hparts : ∀ mark : List Char, (∀ c ∈ mark, Text.isWordChar c = true) →
      parts (String.ofList (mark ++ (['\''] ++ (extra ++ ['\''])))) = _ := fun mark hmark =>
    Literal.parts_between hmark (by decide) fun _ => h
  cases isRaw with
  | false =>
    have := hparts [] nofun
    simp only [String.ofList_append] at this
    simpa [String.append_assoc] using congrArg Parts.raw this
  | true =>
    have := hparts ['r'] (forall_mem_singleton.2 (by decide))
    simp only [String.ofList_append] at this
    rw [if_pos rfl, String.append_assoc, String.append_assoc]
    exact congrArg Parts.raw this

lemma cutText_eq (hn : Known f n) (mark : String) (extra : List Char)
    (hkind : n.kind = .simpleString ∨ n.kind = .formattedStringText) (hnow : now.kind = n.kind)
    (hparts : n.kind = .simpleString → (parts now.text).mark = (parts n.text).mark ∧
      (parts now.text).quote = (parts n.text).quote)
    (hkept : n.kind = .simpleString → Fits (parts n.text).quote.toList kept) :
    ∃ new left, cutText now mark kept extra = (some new, left) ∧ IsTextOf (leaf f n) kept new ∧
      ((n.kind = .simpleString → Fits (parts n.text).quote.toList extra) → extra.head? ≠ some '\'' →
        left.toList.flatMap readingOf = extra.map .char) := by
  rcases hkind with hsimple | hformat
  · obtain ⟨hm, hq⟩ := hparts hsimple
    have hlit := hn.literal hsimple
    simp only [cutText, hnow.trans hsimple]
    refine ⟨_, _, rfl, ⟨?_, ?_⟩, fun hfits _ => readingOf_extra ?_⟩
    · exact hnow
    · simp only [node_leaf, hsimple, hm, hq]
      exact hlit.parts_between (hkept hsimple)
    · rw [hm, hq, hlit.parts_between (hfits hsimple)]
  · simp only [cutText, hnow.trans hformat]
    refine ⟨_, _, rfl, ⟨?_, ?_⟩, fun _ hhead => readingOf_extra ?_⟩
    · exact hnow
    · simp only [node_leaf, hformat]
      exact ⟨rfl, rfl⟩
    · exact parts_single _ hhead

inductive Side where
  | front
  | back

namespace Side

def cut : Side → Cut
  | front => atFirstQuote
  | back => atLastQuote

def deed : Side → Nat → Deed
  | front => .front
  | back => .back

def step : Side → Nat → Nat → Nat × Nat
  | front, a, b => (a + 1, b)
  | back, a, b => (a, b + 1)

def extra : Side → Quoted → Nat → Nat → List Char
  | front, c, a, _ => ((c.drop a).take 0).text
  | back, c, a, b => ((c.cut a b).drop (c.count - a - b)).text

variable (s : Side)

lemma cut_eq (h : Exact raw false c) {a b : Nat} (hab : a + b ≤ c.count) : s.cut raw (c.cut a b).text =
      if a + b = c.count then none else some ((c.cut (s.step a b).1 (s.step a b).2).text, s.extra c a b) := by
  split
  case isTrue heq =>
    obtain ⟨hfirst, hlast⟩ := split_cut_eq_none h heq
    cases s with
    | front => rw [cut, atFirstQuote, hfirst]; rfl
    | back => rw [cut, atLastQuote, hlast]; rfl
  case isFalse hne =>
    have hlt : a + b < c.count := by omega
    cases s with
    | front => rw [cut, atFirstQuote, splitFirst?_cut h hlt]; rfl
    | back =>
      obtain ⟨before, hsplit, hbefore⟩ := splitLast?_cut h hlt
      simp only [cut, atLastQuote, hsplit, map_some, hbefore]
      rfl

@[simp] lemma mark_deed (m : Nat) : (s.deed m).mark = m := by
  cases s <;> rfl

lemma count_front_deed (ds : List Deed) (m : Nat) :
    (ds ++ [s.deed m]).count (.front m) = (s.step (ds.count (.front m)) (ds.count (.back m))).1 := by
  cases s <;> simp [deed, step, count_append]

lemma count_back_deed (ds : List Deed) (m : Nat) :
    (ds ++ [s.deed m]).count (.back m) = (s.step (ds.count (.front m)) (ds.count (.back m))).2 := by
  cases s <;> simp [deed, step, count_append]

lemma out_mem_deed (ds : List Deed) (m : Nat) : .out m ∈ ds ++ [s.deed m] ↔ .out m ∈ ds := by
  cases s <;> simp [deed]

lemma step_add (a b : Nat) : (s.step a b).1 + (s.step a b).2 = a + b + 1 := by
  cases s with
  | front => exact Nat.succ_add_eq_add_succ a b
  | back => rfl

end Side

lemma cutLeaf_of_none (h : (currentText f w l).2 = none) (s : Side) : cutLeaf f s.cut w l = .error .outOfRange := by
  cases s <;> simp only [cutLeaf, h] <;> rfl

lemma Known.fits_cut (hn : Known f n) (hquotes : 0 < (leaf f n).quoteCount) (a b : Nat) (hsimple : n.kind = .simpleString) :
    Fits (parts n.text).quote.toList ((leaf f n).pieces.cut a b).text := by
  obtain ⟨mark, raw, htext, hpieces⟩ := Leaf.exists_text hquotes
  have hlit := hn.literal hsimple
  have hraw : (parts n.text).raw.toList = raw := by
    simp only [leaf, textOf?, hsimple] at htext
    exact (Prod.mk.inj (some.inj htext)).2
  rw [hpieces]
  refine Sql.fits_cut (exact_quoted raw) (fun q hq => ?_) hlit.quote_mem a b
  rw [quoted, text_quotedFrom]
  exact hlit.bare hraw hq

/-- Can the text be written as a literal of its own, when it was cut out of a leaf? -/
def IsExtra (n : Node) (extra : List Char) : Prop :=
  (n.kind = .simpleString → Fits (parts n.text).quote.toList extra) ∧ extra.head? ≠ some '\''

lemma Known.isExtra_front (hn : Known f n) (hquotes : 0 < (leaf f n).quoteCount) :
    IsExtra n ((leaf f n).pieces.take 0).text := by
  obtain ⟨mark, raw, -, hpieces⟩ := Leaf.exists_text hquotes
  constructor
  · intro hsimple
    have hfits := hn.fits_cut hquotes 0 0 hsimple
    rw [Quoted.cut_zero] at hfits
    exact fits_isPrefix hfits (text_take_isPrefix 0 _)
  · rw [hpieces]
    exact head?_take_zero_ne (exact_quoted raw)

lemma Known.isExtra_back (hn : Known f n) (hquotes : 0 < (leaf f n).quoteCount) :
    IsExtra n ((leaf f n).pieces.drop (leaf f n).pieces.count).text := by
  obtain ⟨mark, raw, -, hpieces⟩ := Leaf.exists_text hquotes
  have hcount : ((leaf f n).pieces.drop (leaf f n).pieces.count).count = 0 := by
    rw [Quoted.count_drop, Nat.sub_self]
  constructor
  · intro hsimple
    have hfits := hn.fits_cut hquotes (leaf f n).pieces.count 0 hsimple
    rwa [Quoted.cut, if_pos rfl, Quoted.take_eq_self (by rw [hcount]; exact Nat.zero_le _)] at hfits
  · have hexact : Exact (Leaf.isRaw mark) false (leaf f n).pieces := hpieces ▸ exact_quoted raw
    have hhead := head?_take_zero_ne (hexact.drop (leaf f n).pieces.count)
    rwa [Quoted.take_eq_self (Nat.le_of_eq hcount)] at hhead

lemma Reworked.cutLeaf (h : Reworked f ds w) (hn : Known f n) (hm : n.mark = some m)
    (hquotes : 0 < (leaf f n).quoteCount) (s : Side) {left : Option Node}
    (hok : Codemod.cutLeaf f s.cut w (leaf f n) = .ok (w', left)) :
    Reworked f (ds ++ [s.deed m]) w' ∧ (IsExtra n (s.extra (leaf f n).pieces (ds.count (.front m)) (ds.count (.back m))) →
        left.toList.flatMap readingOf =
          (s.extra (leaf f n).pieces (ds.count (.front m)) (ds.count (.back m))).map .char) := by
  rcases (h n m hn hm).currentText_eq hquotes with ⟨hnone, -⟩ | ⟨mark, raw, now, hpieces, hnow, hout, hle, hkind, hparts, -⟩
  · rw [cutLeaf_of_none hnone] at hok
    cases hok
  · have hexact : Exact (Leaf.isRaw mark) false (leaf f n).pieces := hpieces ▸ exact_quoted raw
    rw [← Leaf.count_pieces] at hle
    simp only [Codemod.cutLeaf, hnow, getD_some, s.cut_eq hexact hle] at hok
    split at hok
    case h_1 => cases hok
    case h_2 kept extra hcut =>
      split at hcut
      case isTrue => cases hcut
      case isFalse hne =>
        cases hcut
        obtain ⟨new, left', hcutText, hnew, hleft⟩ := cutText_eq hn mark
          (s.extra (leaf f n).pieces (ds.count (.front m)) (ds.count (.back m)))
          (kind_of_quoteCount_pos hquotes) hkind hparts (hn.fits_cut hquotes
            (s.step (ds.count (.front m)) (ds.count (.back m))).1 (s.step (ds.count (.front m)) (ds.count (.back m))).2)
        have hput : w.put (leaf f n) (some new) = w ++ [(m, .whole (.keep new))] := by
          simp only [Rework.put, node_leaf, hm]
        rw [hcutText, hput] at hok
        cases hok
        refine ⟨h.append hn hm (s.mark_deed m) (.cut new ?_ ?_ ?_ ?_ ?_), fun hextra => hleft hextra.1 hextra.2⟩
        · exact (replacementOf?_append w m _ hm).trans (if_pos rfl)
        · rwa [s.out_mem_deed]
        · rw [s.count_front_deed, s.count_back_deed, s.step_add]
          omega
        · rw [s.count_front_deed, s.count_back_deed, s.step_add, ← Leaf.count_pieces]
          omega
        · rw [s.count_front_deed, s.count_back_deed]
          exact hnew

/-! ## All SQL literals of a query -/

def markOf (l : Leaf) : Nat := l.node.mark.getD 0

def deedsOf (i : Injection) : List Deed :=
  i.middle.map (fun l => .out (markOf l)) ++ [.back (markOf i.start), .front (markOf i.stop)]

/-- Is this an SQL literal in leaves of the module, with quotes where it begins and ends and none inside? -/
structure IsLiteralOf (f : Facts) (i : Injection) : Prop where
  start : ∃ n, Known f n ∧ i.start = leaf f n ∧ 0 < i.start.quoteCount
  middle : ∀ l ∈ i.middle, ∃ n, Known f n ∧ l = leaf f n ∧ l.quoteCount = 0
  stop : ∃ n, Known f n ∧ i.stop = leaf f n ∧ 0 < i.stop.quoteCount

lemma Known.mark_eq (h : Known f n) : n.mark = some (markOf (leaf f n)) := by
  obtain ⟨m, hm, -⟩ := h.mark
  rw [markOf, node_leaf, hm, getD_some]

lemma Reworked.takeOuts (h : Reworked f ds w) {ls : List Leaf}
    (hls : ∀ l ∈ ls, ∃ n, Known f n ∧ l = leaf f n ∧ l.quoteCount = 0) :
    Reworked f (ds ++ ls.map (fun l => .out (markOf l))) (ls.foldl Rework.takeOut w) := by
  induction ls generalizing ds w with
  | nil => simpa using h
  | cons l ls ih =>
    obtain ⟨⟨n, hn, rfl, hquotes⟩, hrest⟩ := forall_mem_cons.1 hls
    simpa using ih (h.takeOut hn hn.mark_eq hquotes) hrest

def contentOf (i : Injection) : List Item :=
  (i.start.pieces.drop i.start.pieces.count).text.map .char ++ (reading i.middle ++ (i.stop.pieces.take 0).text.map .char)

lemma LeafState.count_le (h : LeafState w ds l m) : ds.count (.front m) + ds.count (.back m) ≤ l.quoteCount := by
  cases h with
  | whole _ _ hfront hback => omega
  | gone _ _ _ _ hfront hback => omega
  | cut _ _ _ _ hle => exact hle

lemma LeafState.count_eq_zero (h : LeafState w ds l m) (hmem : .out m ∈ ds) :
    ds.count (.front m) = 0 ∧ ds.count (.back m) = 0 := by
  cases h with
  | gone _ _ _ _ hfront hback => exact ⟨hfront, hback⟩
  | whole _ hout | cut _ _ hout => exact (hout hmem).elim

/-- One SQL literal is cut out of its leaves. What it held is returned, unless its leaves were cut at these sides
before. -/
lemma Reworked.fixInjection (h : Reworked f ds w) {i : Injection} (hi : IsLiteralOf f i) {first last : Option Node}
    (hok : Codemod.fixInjection f w i = .ok (w', first, last)) :
    Reworked f (ds ++ deedsOf i) w' ∧ (.back (markOf i.start) ∉ ds → .front (markOf i.stop) ∉ ds →
        (first.toList ++ i.middle.map (·.node) ++ last.toList).flatMap readingOf = contentOf i) := by
  obtain ⟨start, middle, stop⟩ := i
  obtain ⟨⟨n, hn, rfl, hquotes⟩, hmiddle, ⟨n', hn', rfl, hquotes'⟩⟩ := hi
  have hout := h.takeOuts hmiddle
  obtain ⟨⟨w₁, first'⟩, hstart, hok⟩ := of_bind hok
  obtain ⟨⟨w₂, last'⟩, hstop, hok⟩ := of_bind hok
  cases hok
  obtain ⟨hback, hfirst⟩ := hout.cutLeaf hn hn.mark_eq hquotes .back hstart
  obtain ⟨hfront, hlast⟩ := hback.cutLeaf hn' hn'.mark_eq hquotes' .front hstop
  refine ⟨by simpa [deedsOf, Side.deed] using hfront, fun hbackNew hfrontNew => ?_⟩
  have hzero : (ds ++ middle.map (fun l => Deed.out (markOf l))).count (.back (markOf (leaf f n))) = 0 := by
    rw [count_eq_zero]
    simpa using hbackNew
  have hzero' : (ds ++ middle.map (fun l => Deed.out (markOf l)) ++ [Side.back.deed (markOf (leaf f n))]).count
      (.front (markOf (leaf f n'))) = 0 := by
    rw [count_eq_zero]
    simpa [Side.deed] using hfrontNew
  have hle := (hout n _ hn hn.mark_eq).count_le
  rw [hzero, ← Leaf.count_pieces, Nat.add_zero] at hle
  rw [hzero, Side.extra, Nat.sub_zero, Quoted.drop_cut_zero hle] at hfirst
  rw [hzero', Side.extra, Quoted.drop] at hlast
  simp only [flatMap_append, hfirst (hn.isExtra_back hquotes), hlast (hn'.isExtra_front hquotes'), contentOf,
    append_assoc, flatMap_map]
  rfl

lemma Reworked.fixInjections (h : Reworked f ds w) {is : List Injection} (his : ∀ i ∈ is, IsLiteralOf f i)
    {handed : List (List Node)} (hok : Codemod.fixInjections f w is = .ok (w', handed)) :
    Reworked f (ds ++ is.flatMap deedsOf) w' ∧ handed.length = is.length ∧
      ((∀ i ∈ is, .back (markOf i.start) ∉ ds ∧ .front (markOf i.stop) ∉ ds) →
        is.Pairwise (fun i i' => markOf i.start ≠ markOf i'.start ∧ markOf i.stop ≠ markOf i'.stop) →
        handed.map (·.flatMap readingOf) = is.map contentOf) := by
  induction is generalizing ds w handed with
  | nil =>
    cases hok
    exact ⟨by simpa using h, rfl, fun _ _ => rfl⟩
  | cons i is ih =>
    obtain ⟨hi, his⟩ := forall_mem_cons.1 his
    obtain ⟨⟨w₁, first, last⟩, hfirst, hok⟩ := of_bind hok
    obtain ⟨⟨w₂, more⟩, hmore, hok⟩ := of_bind hok
    cases hok
    obtain ⟨hstep, hcontent⟩ := h.fixInjection hi hfirst
    obtain ⟨hrun, hlength, hcontents⟩ := ih hstep his hmore
    refine ⟨by simpa using hrun, by simp [hlength], fun hfresh hpair => ?_⟩
    obtain ⟨hfreshHead, hfreshTail⟩ := forall_mem_cons.1 hfresh
    obtain ⟨hpairHead, hpairTail⟩ := pairwise_cons.1 hpair
    rw [map_cons, map_cons, hcontent hfreshHead.1 hfreshHead.2, hcontents ?_ hpairTail]
    intro i' hi'
    have hne := hpairHead i' hi'
    have hold := hfreshTail i' hi'
    simp [deedsOf, hold, Ne.symm hne.1, Ne.symm hne.2]

/-- What a leaf says after a rework. A leaf that is taken out says nothing. -/
def Rework.readingOf (w : Rework) (n : Node) : List Item :=
  match replacementOf? w n with
  | some (.whole (.keep new)) => Sql.readingOf new
  | some (.whole .drop) => []
  | _ => Sql.readingOf n

lemma readingOf_emptyText : readingOf emptyText = [] := by
  decide +kernel

lemma IsTextOf.readingOf_eq (h : IsTextOf l cs new) : Sql.readingOf new = cs.map .char := by
  obtain ⟨hkind, htext⟩ := h
  split at htext
  case h_1 hl => simp only [Sql.readingOf, hkind.trans hl, htext, String.toList_ofList]
  case h_2 hl => simp only [Sql.readingOf, hkind.trans hl, htext.1, String.toList_ofList]
  case h_3 => exact htext.elim

lemma LeafState.readingOf_eq (h : LeafState w ds (leaf f n) m) : w.readingOf n =
      (leaf f n).rest (decide (.out m ∈ ds)) (ds.count (.front m)) (ds.count (.back m)) := by
  cases h with
  | whole hnone hout hfront hback =>
    rw [node_leaf] at hnone
    simp only [Rework.readingOf, hnone, hout, hfront, hback, decide_false, Leaf.rest_zero]
    rfl
  | gone e hsome he hout hfront hback =>
    rw [node_leaf] at hsome
    simp only [Rework.readingOf, hsome, hout, decide_true, Leaf.rest_gone]
    rcases he with rfl | rfl
    · rfl
    · exact readingOf_emptyText
  | cut new hsome hout hpos hle htext =>
    rw [node_leaf] at hsome
    simp only [Rework.readingOf, hsome, hout, decide_false, htext.readingOf_eq]
    rw [Leaf.rest, if_neg (by simp), if_neg (by omega)]

end Mender.Codemod
