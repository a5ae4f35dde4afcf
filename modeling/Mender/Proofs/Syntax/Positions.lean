import Mender.Codemod.Basic
import Mender.Proofs.Scope.Parents
import Mender.Proofs.Syntax.Making
import Mender.Proofs.Syntax.Writing

/-!
# Where nodes stand

A writer only moves on. Before the parenthesis of a call something is written, and on both sides of an assignment. So
calls and assignments that differ start two columns apart or end two columns apart, and a report that may be off by one
column points at one of them only.

* `Steps` — what holds of writing texts and parts holds of writing what is made of them;
* `Node.finds_printer` — the positions of sought nodes are apart;
* `Node.recorded_printer` — each node that has a mark is given a position;
* `Codemod.Task.located_unique` — at most one call or assignment stands where a report says.
-/

namespace Mender.Syntax

open List

variable {own : String} {lookup : Slot → PartPrinter} {env : PrintEnv} {ps : List PartPrinter} {n : Node} {s : Slot}
  {a b c c' : Cursor} {k l : Nat} {part : PartPrinter}

/-! ## Moving on -/

namespace Pos

variable {p q r : Pos}

/-- Does a position stand so many columns ahead, or on a later line? -/
def Ahead (k : Nat) (p q : Pos) : Prop := p.line < q.line ∨ p.line = q.line ∧ p.column + k ≤ q.column

lemma Ahead.trans (h : Ahead k p q) (h' : Ahead l q r) : Ahead (k + l) p r := by
  unfold Ahead at *
  omega

lemma Ahead.mono (h : Ahead k p q) (hle : l ≤ k) : Ahead l p q := by
  unfold Ahead at *
  omega

lemma Ahead.refl (p : Pos) : Ahead 0 p p := .inr ⟨rfl, Nat.le_refl _⟩

lemma ahead_foldl (cs : List Char) {prev : Char} (h : Ahead k p q) (hprev : prev = '\r' → p.line < q.line) :
    Ahead (k + cs.length) p (cs.foldl (fun acc c => (acc.1.step acc.2 c, c)) (q, prev)).1 := by
  -- the second half of a line end does not move on, but the first half did by a line
  induction cs generalizing k q prev with
  | nil => exact h
  | cons c cs ih =>
    rw [length_cons, Nat.add_comm cs.length, ← Nat.add_assoc, foldl_cons]
    refine ih ?_ ?_ <;> unfold Ahead at * <;> simp only [step] <;> split_ifs <;> grind

lemma ahead_write (c : Cursor) (s : String) : Ahead s.toList.length c.at_ (c.write s).at_ := by
  rw [Cursor.write]
  split
  next h => simpa [String.isEmpty_iff.1 h] using Ahead.refl c.at_
  next h =>
    have hover := ahead_foldl s.toList (Ahead.refl c.at_) fun heq : ' ' = '\r' => absurd heq (by decide)
    rwa [Nat.zero_add] at hover

end Pos

open Pos (Ahead)

structure Onward (c c' : Cursor) : Prop where
  ahead : Ahead 0 c.at_ c'.at_
  spans : c.spans <:+ c'.spans

/-- A relation of what was written before and after, which holds of all texts. -/
structure Steps (R : Cursor → Cursor → Prop) : Prop where
  refl : ∀ c, R c c
  trans : ∀ {a b c}, R a b → R b c → R a c
  text : ∀ c s, R c (c.write s)

lemma Cursor.spans_write (c : Cursor) (s : String) : (c.write s).spans = c.spans := by
  rw [write]
  split <;> rfl

namespace Steps

variable {R : Cursor → Cursor → Prop} (hR : Steps R)

include hR

lemma put (hpart : ∀ env c, R c (part.print env c).2) (p : Progress) (s : Slot) (env : PrintEnv) :
    R p.cursor (p.put s part env).cursor := by
  rw [Progress.put]
  split
  · exact hR.refl _
  · dsimp only
    split <;> exact hpart env p.cursor

lemma piece (hparts : ∀ s env c, R c ((lookup s).print env c).2) (piece : Piece) (p : Progress) :
    R p.cursor (piece.write own lookup env p).cursor := by
  have hlit (p : Progress) (s : String) : R p.cursor (p.lit s).cursor := hR.text p.cursor s
  have hput (p : Progress) (s : Slot) (env : PrintEnv) := hR.put (hparts s) p s env
  cases piece <;> simp only [Piece.write] <;> (repeat' split) <;>
    first
      | exact hR.refl _
      | exact hlit _ _
      | exact hput _ _ _
      | exact hR.trans (hlit _ _) (hput _ _ _)
      | exact hR.trans (hlit _ _) (hR.trans (hlit _ _) (hlit _ _))

lemma pieces (hparts : ∀ s env c, R c ((lookup s).print env c).2) (pieces : List Piece) (p : Progress) :
    R p.cursor (writePieces own lookup env pieces p).cursor := by
  induction pieces generalizing p with
  | nil => exact hR.refl _
  | cons piece pieces ih => exact hR.trans (hR.piece hparts piece p) (ih _)

lemma members (hmembers : ∀ m ∈ ps, ∀ env c, R c (m.print env c).2) (size i : Nat) (c : Cursor) :
    R c (writeRun env size i ps c) := by
  induction ps generalizing i c with
  | nil => exact hR.refl c
  | cons p ps ih =>
    obtain ⟨hp, hps⟩ := forall_mem_cons.1 hmembers
    exact hR.trans (hp _ c) (ih hps _ _)

end Steps

lemma steps_onward : Steps Onward where
  refl _ := ⟨.refl _, suffix_rfl⟩
  trans h h' := ⟨h.ahead.trans h'.ahead, h.spans.trans h'.spans⟩
  text c s := ⟨(Pos.ahead_write c s).mono (Nat.zero_le _),
    Eq.subst (motive := fun spans => c.spans <:+ spans) (Cursor.spans_write c s).symm suffix_rfl⟩

/-! ## The stages of writing a node -/

namespace Node

variable {R : Cursor → Cursor → Prop}

def Writes (R : Cursor → Cursor → Prop) (n : Node) : Prop := ∀ env c, R c (n.printer env c).2

def writerAt (n : Node) : Slot → PartPrinter := partAt n.kind (n.parts.map partPrinter)

def ownText (n : Node) (env : PrintEnv) : String :=
  if n.kind = .newline ∧ n.text.isEmpty then env.lineEnd
  else if n.kind = .notEqual ∧ n.text.isEmpty then "!="
  else n.text

def innerEnv (n : Node) (env : PrintEnv) : PrintEnv :=
  if n.kind = .indentedBlock then
    { env with indent := env.indent ++ if (n.ownText env).isEmpty then env.unit else n.ownText env }
  else env

def opening (n : Node) (env : PrintEnv) (c : Cursor) : Progress :=
  writePieces (n.ownText env) n.writerAt env (Layout.of n.kind).before ⟨c, []⟩

def middle (n : Node) (env : PrintEnv) (c : Cursor) : Progress :=
  writePieces (n.ownText env) n.writerAt (n.innerEnv env) (Layout.of n.kind).core (n.opening env c)

def closing (n : Node) (env : PrintEnv) (c : Cursor) : Progress :=
  writePieces (n.ownText env) n.writerAt (n.innerEnv env) (Layout.of n.kind).after (n.middle env c)

/-- The position of a node is that of its middle, if the layout does not cut it short. -/
lemma exists_printer (hseq : n.kind ≠ .seq) (env : PrintEnv) (c : Cursor) : ∃ span,
    ((Layout.of n.kind).from? = none → (Layout.of n.kind).upto = [] →
      span = ⟨(n.opening env c).cursor.at_, (n.middle env c).cursor.at_⟩) ∧
    (n.printer env c).2 = { (n.closing env c).cursor with
      spans := (n.mark.map fun i => (i, span)).toList ++ (n.closing env c).cursor.spans } := by
  rw [printer_node hseq]
  refine ⟨(printNode n.kind n.text n.mark (n.parts.map partPrinter) env c).1, fun hfrom hupto => ?_, ?_⟩
  · unfold printNode
    dsimp only
    rw [hfrom, hupto]
    rfl
  · unfold printNode
    cases n.mark <;> rfl

lemma writerAt_eq (n : Node) (s : Slot) :
    n.writerAt s = partPrinter (n.get s) ∧ n.get s ∈ n.parts ∨ n.writerAt s = .absent ∧ n.get s = absent := by
  rw [writerAt, partAt, get]
  cases n.kind.slots.idxOf? s with
  | none => exact .inr ⟨rfl, rfl⟩
  | some i =>
    dsimp only
    rw [getD_eq_getElem?_getD, getD_eq_getElem?_getD, getElem?_map]
    cases hi : n.parts[i]? with
    | none => exact .inr ⟨rfl, rfl⟩
    | some p => exact .inl ⟨rfl, mem_of_getElem? hi⟩

lemma steps_writerAt (hR : Steps R) (hparts : ∀ p ∈ n.parts, p.Writes R) (s : Slot) (env : PrintEnv) (c : Cursor) :
    R c ((n.writerAt s).print env c).2 := by
  rcases writerAt_eq n s with ⟨hpart, hmem⟩ | ⟨hpart, -⟩
  · rw [hpart]
    exact hparts _ hmem env c
  · rw [hpart]
    exact hR.refl c

lemma steps_run (hR : Steps R) (hparts : ∀ p ∈ n.parts, p.Writes R) (hseq : n.kind = .seq) : n.Writes R := by
  intro env c
  rw [printer_run hseq, printRun_cursor]
  exact hR.members (forall_mem_map.2 hparts) _ 0 c

lemma steps_stages (hR : Steps R) (hparts : ∀ p ∈ n.parts, p.Writes R) (env : PrintEnv) (c : Cursor) :
    R c (n.opening env c).cursor ∧ R (n.opening env c).cursor (n.middle env c).cursor ∧
      R (n.middle env c).cursor (n.closing env c).cursor :=
  have hpart := steps_writerAt hR hparts
  ⟨hR.pieces hpart _ ⟨c, []⟩, hR.pieces hpart _ _, hR.pieces hpart _ _⟩

lemma onward_closing (hseq : n.kind ≠ .seq) (env : PrintEnv) (c : Cursor) :
    Onward (n.closing env c).cursor (n.printer env c).2 := by
  obtain ⟨span, -, hcursor⟩ := exists_printer hseq env c
  rw [hcursor]
  exact ⟨.refl _, suffix_append ..⟩

lemma onward_printer (n : Node) : n.Writes Onward := by
  induction n using partsInduction with
  | h n ih =>
    by_cases hseq : n.kind = .seq
    · exact steps_run steps_onward ih hseq
    · intro env c
      obtain ⟨hopening, hmiddle, hclosing⟩ := steps_stages steps_onward ih env c
      have hpieces := steps_onward.trans (steps_onward.trans hopening hmiddle) hclosing
      exact steps_onward.trans hpieces (onward_closing hseq env c)

end Node

/-! ## What a writer comes to -/

/-- The part that a piece writes. -/
def Piece.slot? : Piece → Option Slot
  | .part s | .partFor s .. | .separator s | .partOrLead s | .led s _ | .run s _ | .partForRuns s .. => some s
  | _ => none

/-- Does a writer, on its way between two cursors, come to write a part? -/
def Spells (part : PartPrinter) (c c' : Cursor) : Prop := ∃ env d, Onward c d ∧ Onward (part.print env d).2 c'

variable {piece : Piece} {pieces : List Piece}

namespace Spells

lemma around (h : Spells part a b) (hc : Onward c a) (hc' : Onward b c') : Spells part c c' := by
  obtain ⟨env, d, hd, hd'⟩ := h
  exact ⟨env, d, steps_onward.trans hc hd, steps_onward.trans hd' hc'⟩

lemma ahead (h : Spells part c c') (hpart : ∀ env c, Ahead k c.at_ (part.print env c).2.at_) : Ahead k c.at_ c'.at_ := by
  obtain ⟨env, d, hd, hd'⟩ := h
  exact ((hd.ahead.trans (hpart env d)).trans hd'.ahead).mono (by omega)

lemma exists_entry (h : Spells part c c') {i : Nat} (hpart : ∀ env c, ∃ span, (i, span) ∈ (part.print env c).2.spans) :
    ∃ span, (i, span) ∈ c'.spans := by
  obtain ⟨env, d, -, hd'⟩ := h
  exact (hpart env d).imp fun span h => hd'.spans.subset h

lemma ofPiece (hslot : piece.slot? = some s) (hpart : lookup s = part) (habsent : part.kind ≠ .absent)
    (hauto : part.kind ≠ .auto) (p : Progress) : Spells part p.cursor (piece.write own lookup env p).cursor := by
  subst hpart
  have hput (p : Progress) (env : PrintEnv) : Spells (lookup s) p.cursor (p.put s (lookup s) env).cursor := by
    refine ⟨env, p.cursor, steps_onward.refl _, ?_⟩
    rw [Progress.put, if_neg (by simp [habsent, hauto])]
    dsimp only
    split <;> exact steps_onward.refl _
  cases piece <;> cases hslot <;> simp only [Piece.write, if_neg hauto] <;> (repeat' split) <;>
    first
      | exact hput _ _
      | exact (hput _ _).around (steps_onward.text ..) (steps_onward.refl _)

lemma ofRun (hparts : ∀ m ∈ ps, ∀ env c, Onward c (m.print env c).2) (hmem : part ∈ ps) (size i : Nat) (c : Cursor) :
    Spells part c (writeRun env size i ps c) := by
  induction ps generalizing i c with
  | nil => cases hmem
  | cons p ps ih =>
    obtain ⟨hp, hps⟩ := forall_mem_cons.1 hparts
    rcases mem_cons.1 hmem with rfl | hmem
    · exact ⟨_, c, steps_onward.refl c, steps_onward.members hps _ _ _⟩
    · exact (ih hps hmem _ _).around (hp _ c) (steps_onward.refl _)

end Spells

namespace Node

lemma exists_write (hpiece : piece ∈ pieces) (p : Progress) : ∃ q : Progress, Onward p.cursor q.cursor ∧
    Onward (piece.write own n.writerAt env q).cursor (writePieces own n.writerAt env pieces p).cursor := by
  have hparts := steps_writerAt (n := n) steps_onward fun p _ => onward_printer p
  obtain ⟨front, rest, rfl⟩ := append_of_mem hpiece
  refine ⟨writePieces own n.writerAt env front p, steps_onward.pieces hparts front p, ?_⟩
  rw [show writePieces own n.writerAt env (front ++ piece :: rest) p = _ from foldl_append ..]
  exact steps_onward.pieces hparts rest _

/-- Each piece of a node is written on the way. -/
lemma exists_piece (hseq : n.kind ≠ .seq) (hpiece : piece ∈ (Layout.of n.kind).pieces) (env : PrintEnv) (c : Cursor) :
    ∃ inner p, Onward c p.cursor ∧
      Onward (piece.write (n.ownText env) n.writerAt inner p).cursor (n.printer env c).2 := by
  obtain ⟨hopening, hmiddle, hclosing⟩ := steps_stages (n := n) steps_onward (fun p _ => onward_printer p) env c
  have hafter := steps_onward.trans hclosing (onward_closing hseq env c)
  rw [Layout.pieces, append_assoc, mem_append, mem_append] at hpiece
  rcases hpiece with hpiece | hpiece | hpiece
  · obtain ⟨q, hq, hq'⟩ := exists_write hpiece ⟨c, []⟩
    exact ⟨env, q, hq, steps_onward.trans hq' (steps_onward.trans hmiddle hafter)⟩
  · obtain ⟨q, hq, hq'⟩ := exists_write hpiece (n.opening env c)
    exact ⟨_, q, steps_onward.trans hopening hq, steps_onward.trans hq' hafter⟩
  · obtain ⟨q, hq, hq'⟩ := exists_write hpiece (n.middle env c)
    exact ⟨_, q, steps_onward.trans (steps_onward.trans hopening hmiddle) hq,
      steps_onward.trans hq' (onward_closing hseq env c)⟩

lemma spells_piece (hslot : piece.slot? = some s) (habsent : (n.get s).kind ≠ .absent) (hauto : (n.get s).kind ≠ .auto)
    (p : Progress) : Spells (partPrinter (n.get s)) p.cursor (piece.write own n.writerAt env p).cursor :=
  .ofPiece hslot ((writerAt_eq n s).resolve_right fun h => habsent (congrArg kind h.2)).1 habsent hauto p

lemma spells_part (hseq : n.kind ≠ .seq) (hpiece : piece ∈ (Layout.of n.kind).pieces) (hslot : piece.slot? = some s)
    (habsent : (n.get s).kind ≠ .absent) (hauto : (n.get s).kind ≠ .auto) (env : PrintEnv) (c : Cursor) :
    Spells (partPrinter (n.get s)) c (n.printer env c).2 := by
  obtain ⟨inner, p, hp, hp'⟩ := exists_piece hseq hpiece env c
  exact (spells_piece hslot habsent hauto p).around hp hp'

lemma spells_member (hseq : n.kind = .seq) {m : Node} (hm : m ∈ n.parts) (env : PrintEnv) (c : Cursor) :
    Spells (partPrinter m) c (n.printer env c).2 := by
  have hparts : ∀ m ∈ n.parts.map partPrinter, ∀ env c, Onward c (m.print env c).2 :=
    forall_mem_map.2 fun p _ => onward_printer p
  rw [printer_run hseq, printRun_cursor]
  exact .ofRun hparts (mem_map_of_mem hm) _ 0 c

lemma kind_of_isWritten {depth : Nat} (h : isWritten depth n = true) : n.kind ≠ .absent ∧ n.kind ≠ .auto := by
  cases depth with
  | zero => cases h
  | succ depth =>
    constructor <;>
    · intro hkind
      rw [isWritten, hkind] at h
      cases h

lemma ahead_of_isWritten {depth : Nat} (h : isWritten depth n = true) (env : PrintEnv) (c : Cursor) :
    Ahead 1 c.at_ (n.printer env c).2.at_ := by
  induction depth generalizing n env c with
  | zero => cases h
  | succ depth ih =>
    rw [isWritten] at h
    split at h
    next hseq =>
      obtain ⟨p, hp, hwritten⟩ := any_eq_true.1 h
      exact (spells_member (beq_iff_eq.1 hseq) hp env c).ahead (ih hwritten)
    next hseq =>
      obtain ⟨piece, hpiece, hwritten⟩ := any_eq_true.1 h
      have hseq : n.kind ≠ .seq := fun heq => hseq (beq_iff_eq.2 heq)
      obtain ⟨inner, p, hp, hp'⟩ := exists_piece hseq hpiece env c
      have htext {t : String} (ht : (! t.isEmpty) = true) (hlit : piece.write (n.ownText env) n.writerAt inner p = p.lit t) :
          Ahead 1 c.at_ (n.printer env c).2.at_ := by
        have hlong : 1 ≤ t.toList.length := by simpa [Nat.one_le_iff_ne_zero] using ht
        rw [hlit] at hp'
        exact ((hp.ahead.trans (Pos.ahead_write p.cursor t)).trans hp'.ahead).mono (by omega)
      have hpart {s : Slot} (hslot : piece.slot? = some s) (hget : isWritten depth (n.get s) = true) :=
        (spells_part hseq hpiece hslot (kind_of_isWritten hget).1 (kind_of_isWritten hget).2 env c).ahead (ih hget)
      cases piece <;> try cases hwritten
      case lit t => exact htext hwritten rfl
      case own =>
        have hown : n.ownText env = n.text := by simp_all [ownText]
        exact htext hwritten (by rw [← hown]; rfl)
      case part s => exact hpart rfl hwritten
      case run s _ => exact hpart rfl hwritten

end Node

/-! ## Positions that are apart -/

variable {K : Nat → Prop} {found found' : List (Nat × Span)}

def Span.Apart (s s' : Span) : Prop :=
  Ahead 2 s.start s'.start ∨ Ahead 2 s'.start s.start ∨ Ahead 2 s.stop s'.stop ∨ Ahead 2 s'.stop s.stop

/-- The positions found for sought marks lie between two places, are two long and are apart from each other. -/
structure Spread (K : Nat → Prop) (p q : Pos) (found : List (Nat × Span)) : Prop where
  inside : ∀ e ∈ found, K e.1 → Ahead 0 p e.2.start ∧ Ahead 2 e.2.start e.2.stop ∧ Ahead 0 e.2.stop q
  apart : found.Pairwise fun e e' => K e.1 → K e'.1 → e.2.Apart e'.2

namespace Spread

variable {p q r : Pos}

lemma append (h : Spread K p q found) (h' : Spread K q r found') (hpq : Ahead 0 p q) (hqr : Ahead 0 q r) :
    Spread K p r (found' ++ found) where
  inside e he hK := by
    rcases mem_append.1 he with he | he
    · obtain ⟨hstart, hlong, hstop⟩ := h'.inside e he hK
      exact ⟨hpq.trans hstart, hlong, hstop⟩
    · obtain ⟨hstart, hlong, hstop⟩ := h.inside e he hK
      exact ⟨hstart, hlong, hstop.trans hqr⟩
  apart := by
    refine pairwise_append.2 ⟨h'.apart, h.apart, fun e he e' he' hK hK' => .inr (.inl ?_)⟩
    obtain ⟨-, hlong, hstop⟩ := h.inside e' he' hK'
    exact (hlong.trans hstop).trans (h'.inside e he hK).1

lemma apart_of_ne (h : Spread K p q found) {e e' : Nat × Span} (he : e ∈ found) (he' : e' ∈ found) (hne : e.1 ≠ e'.1)
    (hK : K e.1) (hK' : K e'.1) : e.2.Apart e'.2 := by
  have : Std.Symm fun e e' : Nat × Span => K e.1 → K e'.1 → e.2.Apart e'.2 :=
    ⟨fun e e' h hK hK' => by have := h hK' hK; unfold Span.Apart at *; tauto⟩
  exact h.apart.forall he he' (fun heq => hne (congrArg Prod.fst heq)) hK hK'

end Spread

structure Finds (K : Nat → Prop) (c c' : Cursor) : Prop where
  onward : Onward c c'
  spread : ∃ found, c'.spans = found ++ c.spans ∧ Spread K c.at_ c'.at_ found

lemma steps_finds : Steps (Finds K) where
  refl c := ⟨steps_onward.refl c, [], rfl, by simp, .nil⟩
  trans h h' := by
    obtain ⟨hon, found, hspans, hspread⟩ := h
    obtain ⟨hon', found', hspans', hspread'⟩ := h'
    refine ⟨steps_onward.trans hon hon', found' ++ found, ?_, hspread.append hspread' hon.ahead hon'.ahead⟩
    rw [hspans', hspans, append_assoc]
  text c s := ⟨steps_onward.text c s, [], c.spans_write s, by simp, .nil⟩

/-- What is found of sought marks starts so far ahead, or ends so far before. -/
def Inset (K : Nat → Prop) (k l : Nat) (c c' : Cursor) : Prop :=
  ∃ found, c'.spans = found ++ c.spans ∧ ∀ e ∈ found, K e.1 → Ahead k c.at_ e.2.start ∨ Ahead l e.2.stop c'.at_

lemma Finds.inset (h : Finds K c c') : Inset K k 0 c c' := by
  obtain ⟨-, found, hfound, hspread⟩ := h
  exact ⟨found, hfound, fun e he hK => .inr (hspread.inside e he hK).2.2⟩

lemma Inset.step {j : Nat} (h : Inset K k l c a) (h' : Finds K b c') (hspans : b.spans = a.spans) (hk : Ahead k c.at_ b.at_)
    (hj : Ahead j a.at_ c'.at_) : Inset K k (l + j) c c' := by
  obtain ⟨found, hfound, hinset⟩ := h
  obtain ⟨-, found', hfound', hspread⟩ := h'
  refine ⟨found' ++ found, by rw [hfound', hspans, hfound, append_assoc], fun e he hK => ?_⟩
  rcases mem_append.1 he with he | he
  · exact .inl (hk.trans (hspread.inside e he hK).1)
  · exact (hinset e he hK).imp_right fun h => h.trans hj

lemma steps_inset : Steps fun c c' => Onward c c' ∧ Inset K k l c c' where
  refl c := ⟨steps_onward.refl c, [], rfl, by simp⟩
  trans := by
    rintro a b c ⟨hab, found, hfound, hinset⟩ ⟨hbc, found', hfound', hinset'⟩
    refine ⟨steps_onward.trans hab hbc, found' ++ found, by rw [hfound', hfound, append_assoc], fun e he hK => ?_⟩
    rcases mem_append.1 he with he | he
    · exact (hinset' e he hK).imp_left fun h => (hab.ahead.trans h).mono (by omega)
    · exact (hinset e he hK).imp_right fun h => h.trans hbc.ahead
  text c s := ⟨steps_onward.text c s, [], c.spans_write s, by simp⟩

/-- Where the nodes inside are inset by two, the position of the node itself is apart from theirs. -/
lemma Finds.mark {m : Cursor} (hbefore : Finds K c b) (hcore : Finds K b m) (hafter : Finds K m a) (hinset : Inset K 2 2 b m)
    (hlong : Ahead 2 b.at_ m.at_) (i : Nat) : Finds K c { a with spans := (i, ⟨b.at_, m.at_⟩) :: a.spans } := by
  have hall := steps_finds.trans (steps_finds.trans hbefore hcore) hafter
  obtain ⟨hon, f, hf, hspread⟩ := hbefore
  obtain ⟨hon', f', hf', hspread'⟩ := hcore
  obtain ⟨hon'', f'', hf'', hspread''⟩ := hafter
  obtain ⟨found, hfound, hinset⟩ := hinset
  obtain rfl := append_cancel_right (hf'.symm.trans hfound)
  have hpairs := (hspread.append hspread' hon.ahead hon'.ahead).append hspread'' (hon.ahead.trans hon'.ahead) hon''.ahead
  refine ⟨⟨hall.onward.ahead, hall.onward.spans.trans (suffix_cons ..)⟩, (i, ⟨b.at_, m.at_⟩) :: (f'' ++ (f' ++ f)),
    by simp [hf'', hf', hf], ?_, pairwise_cons.2 ⟨fun e he _ hK => ?_, hpairs.apart⟩⟩
  · exact forall_mem_cons.2 ⟨fun _ => ⟨hon.ahead, hlong, hon''.ahead⟩, hpairs.inside⟩
  · rw [mem_append, mem_append] at he
    rcases he with he | he | he
    · exact .inl (hlong.trans (hspread''.inside e he hK).1)
    · exact (hinset e he hK).imp id fun h => .inr (.inr h)
    · exact .inr (.inl ((hspread.inside e he hK).2.1.trans (hspread.inside e he hK).2.2))

lemma Finds.mark_of_not (h : Finds K c a) {i : Nat} (hi : ¬ K i) (span : Span) :
    Finds K c { a with spans := (i, span) :: a.spans } := by
  obtain ⟨hon, found, hfound, hspread⟩ := h
  refine ⟨⟨hon.ahead, hon.spans.trans (suffix_cons ..)⟩, (i, span) :: found, by simp [hfound], ?_, ?_⟩
  · exact forall_mem_cons.2 ⟨fun hK => absurd hK hi, hspread.inside⟩
  · exact pairwise_cons.2 ⟨fun _ _ hK => absurd hK hi, hspread.apart⟩

/-! ## Positions of sought nodes -/

namespace Node

def IsSought (n : Node) : Prop := (n.kind = .call ∨ n.kind = .assign) ∧ n.isFirm = true

lemma spells_pieces (hpiece : piece ∈ pieces) (hslot : piece.slot? = some s) (habsent : (n.get s).kind ≠ .absent)
    (hauto : (n.get s).kind ≠ .auto) (p : Progress) :
    Spells (partPrinter (n.get s)) p.cursor (writePieces own n.writerAt env pieces p).cursor := by
  obtain ⟨q, hq, hq'⟩ := exists_write hpiece p
  exact (spells_piece hslot habsent hauto q).around hq hq'

lemma ahead_pieces {depth : Nat} (hpiece : piece ∈ pieces) (hslot : piece.slot? = some s)
    (hget : isWritten depth (n.get s) = true) (p : Progress) :
    Ahead 1 p.cursor.at_ (writePieces own n.writerAt env pieces p).cursor.at_ :=
  have ⟨habsent, hauto⟩ := kind_of_isWritten hget
  (spells_pieces hpiece hslot habsent hauto p).ahead (ahead_of_isWritten hget)

variable (hparts : ∀ p ∈ n.parts, p.Writes (Finds K)) (env : PrintEnv) (c : Cursor)

include hparts

lemma inset_call (hkind : n.kind = .call) (hfirm : n.isFirm = true) :
    Inset K 2 2 (n.opening env c).cursor (n.middle env c).cursor ∧
      Ahead 2 (n.opening env c).cursor.at_ (n.middle env c).cursor.at_ := by
  have hfunc : isWritten 10 (n.get .func) = true := by simpa [isFirm, hkind] using hfirm
  have hpart := steps_writerAt steps_finds hparts
  let write := writePieces (n.ownText env) n.writerAt (n.innerEnv env)
  let front := write [.part .func, .part .afterFunc] (n.opening env c)
  let back := write [.part .beforeArgs, .run .args .comma] (front.lit "(")
  have hfront : Finds K (n.opening env c).cursor front.cursor := steps_finds.pieces hpart _ _
  have hargs : Finds K (front.lit "(").cursor back.cursor := steps_finds.pieces hpart _ _
  have hback := steps_finds.trans hargs (steps_finds.text back.cursor ")")
  have hwide : Ahead 2 (n.opening env c).cursor.at_ (front.lit "(").cursor.at_ :=
    (ahead_pieces (.head _) rfl hfunc _).trans (Pos.ahead_write front.cursor "(")
  have hlong : Ahead 2 front.cursor.at_ (back.lit ")").cursor.at_ :=
    (Pos.ahead_write front.cursor "(").trans (hargs.onward.ahead.trans (Pos.ahead_write back.cursor ")"))
  rw [show n.middle env c = back.lit ")" by rw [middle, hkind]; rfl]
  exact ⟨hfront.inset.step hback (Cursor.spans_write ..) hwide hlong, hwide.trans hback.onward.ahead⟩

lemma inset_target (hkind : n.kind = .assignTarget) (htarget : isWritten 10 (n.get .target) = true)
    (hmark : ∀ i, n.mark = some i → ¬ K i) :
    Inset K 2 1 c (n.printer env c).2 ∧ Ahead 2 c.at_ (n.printer env c).2.at_ := by
  have hpart := steps_writerAt steps_finds hparts
  let write := writePieces (n.ownText env) n.writerAt (n.innerEnv env)
  let front := write [.part .target, .part .beforeEqual] ⟨c, []⟩
  have hclosing : n.closing env c = write [.part .afterEqual] (front.lit "=") := by
    rw [closing, middle, opening, hkind]
    rfl
  have hfront : Finds K c front.cursor := steps_finds.pieces hpart _ ⟨c, []⟩
  have hback : Finds K (front.lit "=").cursor (n.closing env c).cursor := hclosing ▸ steps_finds.pieces hpart _ _
  have hequal : Ahead 1 front.cursor.at_ (front.lit "=").cursor.at_ := Pos.ahead_write front.cursor "="
  have hwide : Ahead 2 c.at_ (front.lit "=").cursor.at_ :=
    (ahead_pieces (.head _) rfl htarget ⟨c, []⟩).trans hequal
  obtain ⟨found, hfound, hinset⟩ : Inset K 2 1 c (n.closing env c).cursor :=
    hfront.inset.step hback (Cursor.spans_write ..) hwide (hequal.trans hback.onward.ahead)
  obtain ⟨span, -, hcursor⟩ := exists_printer (n := n) (by rw [hkind]; decide) env c
  rw [hcursor]
  refine ⟨⟨(n.mark.map fun i => (i, span)).toList ++ found, by simp [hfound], fun e he hK => ?_⟩,
    hwide.trans hback.onward.ahead⟩
  refine hinset e ((mem_append.1 he).resolve_left fun he => ?_) hK
  obtain ⟨i, hi, rfl⟩ := Option.map_eq_some_iff.1 (Option.mem_toList.1 he)
  exact hmark i hi hK

lemma inset_assign (hkind : n.kind = .assign) (hfirm : n.isFirm = true)
    (htargets : ∀ t ∈ n.list .targets, t.kind = .assignTarget → (∀ p ∈ t.parts, p.Writes (Finds K)) ∧
      ∀ i, t.mark = some i → ¬ K i) :
    Inset K 2 2 (n.opening env c).cursor (n.middle env c).cursor ∧
      Ahead 2 (n.opening env c).cursor.at_ (n.middle env c).cursor.at_ := by
  simp only [isFirm, hkind, Bool.and_eq_true, Bool.not_eq_true', isEmpty_eq_false_iff, all_eq_true, beq_iff_eq] at hfirm
  obtain ⟨⟨hvalue, hne⟩, hfirm⟩ := hfirm
  have hseq : (n.get .targets).kind = .seq := by
    by_contra hseq
    exact hne (if_neg hseq)
  rw [list, items_run hseq] at hne hfirm htargets
  have hinset (t : Node) (ht : t ∈ (n.get .targets).parts) (env : PrintEnv) (c : Cursor) :=
    inset_target (htargets t ht (hfirm t ht).1).1 env c (hfirm t ht).1 (hfirm t ht).2 (htargets t ht (hfirm t ht).1).2
  let write := writePieces (n.ownText env) n.writerAt (n.innerEnv env)
  let front := write [.run .targets .none] (n.opening env c)
  have hmiddle : n.middle env c = write [.part .value] front := by
    rw [middle, hkind]
    rfl
  obtain ⟨t, ht⟩ := exists_mem_of_ne_nil _ hne
  have habsent : (n.get .targets).kind ≠ .absent := by rw [hseq]; decide
  have hauto : (n.get .targets).kind ≠ .auto := by rw [hseq]; decide
  have hspells : Spells (partPrinter (n.get .targets)) (n.opening env c).cursor front.cursor :=
    spells_pieces (.head _) rfl habsent hauto _
  have hwide : Ahead 2 (n.opening env c).cursor.at_ front.cursor.at_ :=
    hspells.ahead fun env c => (spells_member hseq ht env c).ahead fun env c => (hinset t ht env c).2
  have hrun : Inset K 2 1 (n.opening env c).cursor front.cursor := by
    refine (steps_inset.put (fun env c => ?_) (n.opening env c) .targets _).2
    rw [((writerAt_eq n .targets).resolve_right fun h => habsent (congrArg kind h.2)).1]
    exact steps_run steps_inset (fun t ht env c => ⟨onward_printer t env c, (hinset t ht env c).1⟩) hseq env c
  have hback : Finds K front.cursor (n.middle env c).cursor :=
    hmiddle ▸ steps_finds.pieces (steps_writerAt steps_finds hparts) _ _
  have hlong : Ahead 1 front.cursor.at_ (n.middle env c).cursor.at_ := hmiddle ▸ ahead_pieces (.head _) rfl hvalue front
  exact ⟨hrun.step hback rfl hwide hlong, (hwide.trans hlong).mono (by omega)⟩

omit hparts

theorem finds_printer (horderly : Orderly n) (hsought : ∀ d ∈ n.nodes, ∀ i, d.mark = some i → K i → d.IsSought) :
    n.Writes (Finds K) := by
  induction hsize : sizeOf n using Nat.strong_induction_on generalizing n with
  | h size ih =>
    subst hsize
    -- the targets of an assignment are seen through, so what is inside of them is needed too
    have hparts {d : Node} (hd : Orderly d) (hnodes : d.nodes ⊆ n.nodes) (hle : sizeOf d ≤ sizeOf n) :
        ∀ p ∈ d.parts, p.Writes (Finds K) := fun p hp =>
      ih _ (Nat.lt_of_lt_of_le (sizeOf_lt_of_mem_parts hp) hle) (hd.of_mem_parts hp)
        (fun e he => hsought e (hnodes ((nodes_sublist_of_mem_parts hp).subset he))) rfl
    have hown := hparts horderly (List.Subset.refl _) (Nat.le_refl _)
    by_cases hseq : n.kind = .seq
    · exact steps_run steps_finds hown hseq
    intro env c
    obtain ⟨hopening, hmiddle, hclosing⟩ := steps_stages steps_finds hown env c
    have hall := steps_finds.trans (steps_finds.trans hopening hmiddle) hclosing
    obtain ⟨span, hspan, hcursor⟩ := exists_printer hseq env c
    rw [hcursor]
    cases hmark : n.mark with
    | none => exact hall
    | some i =>
      by_cases hK : K i
      · obtain ⟨hkind | hkind, hfirm⟩ := hsought n (horderly.self_mem_nodes hmark) i hmark hK
        · obtain ⟨hinset, hlong⟩ := inset_call hown env c hkind hfirm
          rw [hspan (by rw [hkind]; rfl) (by rw [hkind]; rfl)]
          exact hopening.mark hmiddle hclosing hinset hlong i
        · obtain ⟨hinset, hlong⟩ := inset_assign hown env c hkind hfirm fun t ht htarget => by
            have hmem : t ∈ n.nodes := (nodes_get_sublist n .targets).subset
              ((nodes_sublist_of_mem_parts (mem_items ht)).subset (self_mem_nodes (by rw [htarget]; rfl)))
            refine ⟨hparts (horderly.of_mem_nodes hmem) (nodes_subset hmem) (sizeOf_le_of_mem_nodes hmem), fun i hi hK => ?_⟩
            obtain ⟨h | h, -⟩ := hsought t hmem i hi hK <;> cases htarget.symm.trans h
          rw [hspan (by rw [hkind]; rfl) (by rw [hkind]; rfl)]
          exact hopening.mark hmiddle hclosing hinset hlong i
      · exact hall.mark_of_not hK span

/-! ## Each node is given a position -/

lemma exists_piece_of_slot (k : Kind) : ∀ s ∈ k.slots, (∃ piece ∈ (Layout.of k).pieces, piece.slot? = some s) ∨
    k = .module ∧ s ∈ [Slot.unit, .lineEnd, .ending] := by
  cases k <;> decide

theorem recorded_printer (hfirm : ∀ d ∈ n.met, d.kind = .module → d.isFirm = true) {d : Node} (hd : d ∈ n.met)
    (hnode : d.kind.isFiller = false) {i : Nat} (hi : d.mark = some i) (env : PrintEnv) (c : Cursor) :
    ∃ span, (i, span) ∈ (n.printer env c).2.spans := by
  induction n generalizing env c with
  | h n ih =>
    rw [met_eq, mem_cons, mem_flatMap] at hd
    rcases hd with rfl | ⟨child, hchild, hd⟩
    · obtain ⟨span, -, hcursor⟩ := exists_printer (ne_seq_of_isFiller hnode) env c
      exact ⟨span, by simp [hcursor, hi]⟩
    · have hwithin := ih child hchild (fun e he => hfirm e (mem_met_of_mem_visited hchild he)) hd
      obtain ⟨s, hs, hopened⟩ := exists_slot_of_mem_visited hchild
      have hseq : n.kind ≠ .seq := by
        intro hseq
        rw [hseq] at hs
        cases hs
      -- only the words of a module are not written
      obtain ⟨piece, hpiece, hslot⟩ : ∃ piece ∈ (Layout.of n.kind).pieces, piece.slot? = some s := by
        refine (exists_piece_of_slot n.kind s hs).resolve_right fun ⟨hkind, hword⟩ => ?_
        have hown := hfirm n (self_mem_met n) hkind
        simp only [isFirm, hkind, all_eq_true, beq_iff_eq] at hown
        simp [opened, hown s hword, Kind.isFiller] at hopened
      have hspells (h : (n.get s).kind ≠ .absent ∧ (n.get s).kind ≠ .auto) := spells_part hseq hpiece hslot h.1 h.2 env c
      rcases place_cases (n.get s) with hrun | ⟨hfiller, hrun⟩ | hfiller
      · rw [opened_run hrun] at hopened
        refine (hspells (by rw [hrun]; decide)).exists_entry fun env c => ?_
        exact (spells_member hrun hopened env c).exists_entry hwithin
      · rw [opened_filler hfiller hrun] at hopened
        cases hopened
      · rw [opened_node hfiller] at hopened
        obtain rfl := mem_singleton.1 hopened
        refine (hspells ⟨?_, ?_⟩).exists_entry hwithin <;>
        · intro hkind
          rw [hkind] at hfiller
          cases hfiller

lemma exists_entry_foldl {acc : Array Span} {i : Nat} (hi : i < acc.size) (h : ∃ span, (i, span) ∈ found) :
    ∃ span, (i, span) ∈ found ∧ (found.foldl (fun acc e => acc.setIfInBounds e.1 e.2) acc)[i]? = some span := by
  -- the last entry for a mark is the one that stays
  induction found using List.reverseRecOn with
  | nil => simp at h
  | append_singleton found e ih =>
    rw [foldl_append, foldl_cons, foldl_nil, Array.getElem?_setIfInBounds, size_foldl_spans]
    by_cases hlast : e.1 = i
    · exact ⟨e.2, by simp [← hlast], by rw [if_pos hlast, if_pos (hlast ▸ hi)]⟩
    · obtain ⟨span, hfound, heq⟩ := ih (by grind)
      exact ⟨span, mem_append_left _ hfound, by rw [if_neg hlast, heq]⟩

lemma firm_of_read {source : String} {module : Node} (h : ofModule? source = some module) :
    ∀ d ∈ module.nodes, d.isFirm = true := by
  obtain ⟨n, -, -, hsettled⟩ := exists_whole h
  exact all_eq_true.1 (Bool.and_eq_true_iff.1 hsettled).2

end Node

end Mender.Syntax

namespace Mender

open List Syntax Node

lemma Location.covers_ofNumbers_iff {file : String} {place p : Stretch} {snippet : Json} :
    { Location.ofNumbers file place with snippet := snippet }.covers p = .ok true ↔ p.startLine = place.startLine ∧
      (p.startColumn = place.startColumn - 1 ∨ p.startColumn = place.startColumn) ∧ p.endLine = place.endLine ∧
        (p.endColumn = place.endColumn - 1 ∨ p.endColumn = place.endColumn) := by
  simp only [covers, ofNumbers, Coord.isNumber, Coord.isNear, bind, Except.bind, pure, Except.pure]
  split_ifs <;> grind

namespace Codemod.Task

open Scope

variable {source : String} {module : Node}

/-- Is the node a call or an assignment that stands where a report says? -/
def IsLocated (module : Node) (l : Location) (n : Node) : Prop :=
  n ∈ module.met ∧ (n.kind = .call ∨ n.kind = .assign) ∧
    ∃ s, (Facts.of module).span n = .ok s ∧ l.covers (stretchOf s) = .ok true

lemma exists_entry (hread : ofModule? source = some module) {n : Node} (hn : n ∈ module.met)
    (hkind : n.kind = .call ∨ n.kind = .assign) : n ∈ module.nodes ∧ ∃ i s, n.mark = some i ∧
      (Facts.of module).span n = .ok s ∧ (i, s) ∈ (module.printer module.printEnv {}).2.spans := by
  have hfirm := firm_of_read hread
  obtain ⟨root, rfl⟩ := exists_numbered hread
  have hnode : n.kind.isFiller = false := by rcases hkind with h | h <;> rw [h] <;> rfl
  have hmem : n ∈ root.numbered.nodes := mem_nodes_of_mem_met hn (self_mem_nodes hnode)
  obtain ⟨i, hi⟩ := exists_mark hmem
  have hsize : i < (Array.replicate root.numbered.count (⟨⟨1, 0⟩, ⟨1, 0⟩⟩ : Span)).size := by
    rw [Array.size_replicate, count_numbered]
    exact mark_lt_count hmem hi
  have hmodule (d : Node) (hd : d ∈ root.numbered.met) (hkind : d.kind = .module) : d.isFirm = true :=
    hfirm d (mem_nodes_of_mem_met hd (self_mem_nodes (by rw [hkind]; rfl)))
  obtain ⟨s, hs, hat⟩ := exists_entry_foldl hsize (recorded_printer hmodule hn hnode hi root.numbered.printEnv {})
  refine ⟨hmem, i, s, hi, ?_, hs⟩
  rw [Facts.span, hi, Option.bind_some, show (Facts.of root.numbered).spans[i]? = some s from hat]

/-- A report that may be off by a column points at one call or assignment at most, and each of them can be pointed at. -/
theorem located_unique (hread : ofModule? source = some module) (file : String) (snippet : Json) :
    (∀ place n m, IsLocated module { Location.ofNumbers file place with snippet := snippet } n →
      IsLocated module { Location.ofNumbers file place with snippet := snippet } m → n = m) ∧
    ∀ n ∈ module.met, n.kind = .call ∨ n.kind = .assign → ∃ s, (Facts.of module).span n = .ok s ∧
      IsLocated module { Location.ofNumbers file (stretchOf s) with snippet := snippet } n := by
  refine ⟨?_, fun n hn hkind => ?_⟩
  · rintro place n m ⟨hn, hkind, s, hs, hcovers⟩ ⟨hm, hkind', s', hs', hcovers'⟩
    obtain ⟨hmem, i, s, hi, hspan, hentry⟩ := exists_entry hread hn hkind
    obtain ⟨hmem', j, s', hj, hspan', hentry'⟩ := exists_entry hread hm hkind'
    cases hs.symm.trans hspan
    cases hs'.symm.trans hspan'
    have hnumbered := numbered_of_read hread
    let sought (i : Nat) : Prop := ∃ d ∈ module.nodes, d.mark = some i ∧ (d.kind = .call ∨ d.kind = .assign)
    obtain ⟨-, found, hfound, hspread⟩ : Finds sought {} (module.printer module.printEnv {}).2 := by
      refine finds_printer hnumbered.orderly (fun d hd i hi hsought => ?_) _ _
      obtain ⟨d', hd', hi', hkind⟩ := hsought
      obtain rfl := hnumbered.eq_of_mark hd hd' (hi.trans hi'.symm)
      exact ⟨hkind, firm_of_read hread d hd⟩
    rw [hfound, append_nil] at hentry hentry'
    by_contra hne
    have hij : i ≠ j := fun h => hne (hnumbered.eq_of_mark hmem hmem' (by rw [hi, hj, h]))
    have hapart : s.Apart s' := hspread.apart_of_ne hentry hentry' hij ⟨n, hmem, hi, hkind⟩ ⟨m, hmem', hj, hkind'⟩
    rw [Location.covers_ofNumbers_iff] at hcovers hcovers'
    simp only [stretchOf] at hcovers hcovers'
    unfold Span.Apart Pos.Ahead at hapart
    omega
  · obtain ⟨-, i, s, -, hs, -⟩ := exists_entry hread hn hkind
    exact ⟨s, hs, hn, hkind, s, hs, Location.covers_ofNumbers_iff.2 ⟨rfl, .inr rfl, rfl, .inr rfl⟩⟩

/-- A call of what a call gives back: both start at the same place. -/
theorem calledTwice_located : ∃ module, ofModule? "f()()\n" = some module ∧ ∀ place n m,
    IsLocated module (.ofNumbers "a.py" place) n → IsLocated module (.ofNumbers "a.py" place) m → n = m := by
  obtain ⟨module, hread⟩ := Option.isSome_iff_exists.1 (show (ofModule? "f()()\n").isSome = true by decide +kernel)
  exact ⟨module, hread, (located_unique hread "a.py" .null).1⟩

end Codemod.Task

end Mender
