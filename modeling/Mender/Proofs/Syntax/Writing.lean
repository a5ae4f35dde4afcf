import Mender.Proofs.Syntax.Alike
import Mender.Syntax.Print

/-!
# Trees that are written the same

What a writer adds to a text does not depend on positions or on how texts of f-strings are divided.

* `Node.sameWriting_of_alike` — trees that are alike are written the same.
-/

namespace Mender.Syntax

open List Progress

variable {own : String} {lookup lookup' : Slot → PartPrinter} {env : PrintEnv} {ps qs : List PartPrinter} {n : Node}
  {k : Kind}

/-- Do two writers write the same, wherever they are asked to? -/
def SameWriting (p q : Printer) : Prop := ∀ env {c d : Cursor}, c.text = d.text → (p env c).2.text = (q env d).2.text

lemma Cursor.text_write {c d : Cursor} (h : c.text = d.text) (s : String) : (c.write s).text = (d.write s).text := by
  rw [write, write]
  split
  · exact h
  · exact congrArg (· ++ s) h

structure SamePart (p q : PartPrinter) : Prop where
  kind : p.kind = q.kind
  print : SameWriting p.print q.print

def Piece.asksSize : Piece → Bool
  | .ifEmpty .. | .partForRuns .. | .passLine .. => true
  | _ => false

section

variable {p q : Progress}

lemma Progress.text_lit (h : p.cursor.text = q.cursor.text) (s : String) : (p.lit s).cursor.text = (q.lit s).cursor.text :=
  Cursor.text_write h s

lemma Progress.text_put (h : p.cursor.text = q.cursor.text) (s : Slot) {a b : PartPrinter} (hab : SamePart a b) :
    (p.put s a env).cursor.text = (q.put s b env).cursor.text := by
  have hprint := hab.print env h
  simp only [put, hab.kind]
  split
  · exact h
  · split <;> split <;> exact hprint

lemma Piece.text_write {piece : Piece} (hparts : ∀ s, SamePart (lookup s) (lookup' s))
    (hsizes : piece.asksSize = true → ∀ s, (lookup s).size = (lookup' s).size) (h : p.cursor.text = q.cursor.text) :
    (piece.write own lookup env p).cursor.text = (piece.write own lookup' env q).cursor.text := by
  cases piece with
  | lit s => exact text_lit h s
  | own => exact text_lit h own
  | part s | run s sep => exact text_put h s (hparts s)
  | partFor s t d =>
    simp only [write, (hparts s).kind, (hparts t).kind]
    split
    · split
      · exact h
      · exact text_lit h d
    · exact text_put h s (hparts s)
  | separator s | partOrLead s =>
    simp only [write, (hparts s).kind]
    split
    · exact text_lit h _
    · exact text_put h s (hparts s)
  | led s lead =>
    simp only [write, (hparts s).kind]
    split
    · exact text_put (text_lit h lead) s (hparts s)
    · exact text_put h s (hparts s)
  | leadOr d | indent => exact text_lit h _
  | ifEmpty s d =>
    simp only [write, hsizes rfl s]
    split
    · exact text_lit h d
    · exact h
  | partForRuns s t u d =>
    simp only [write, (hparts s).kind, hsizes rfl t, hsizes rfl u]
    split
    · split
      · exact h
      · exact text_lit h d
    · exact text_put h s (hparts s)
  | passLine s =>
    simp only [write, hsizes rfl s]
    split
    · exact text_lit (text_lit (text_lit h _) _) _
    · exact h

end

lemma text_writePieces {pieces : List Piece} (hparts : ∀ s, SamePart (lookup s) (lookup' s))
    (hsizes : ∀ piece ∈ pieces, piece.asksSize = true → ∀ s, (lookup s).size = (lookup' s).size) {p q : Progress}
    (h : p.cursor.text = q.cursor.text) :
    (writePieces own lookup env pieces p).cursor.text = (writePieces own lookup' env pieces q).cursor.text := by
  induction pieces generalizing p q with
  | nil => exact h
  | cons piece pieces ih =>
    exact ih (forall_mem_cons.1 hsizes).2
      (Piece.text_write hparts (hsizes piece (.head _)) h)

/-! ## Nodes -/

/-- Do two parts write the same in a node of a kind? Only in f-strings the lengths of runs do not matter. -/
def SamePartIn (k : Kind) (p q : PartPrinter) : Prop := SamePart p q ∧ (k ≠ .formattedString → p.size = q.size)

lemma samePartIn_absent (k : Kind) : SamePartIn k .absent .absent := ⟨⟨rfl, fun _ _ _ h => h⟩, fun _ => rfl⟩

lemma samePartIn_partAt (h : Forall₂ (SamePartIn k) ps qs) (s : Slot) :
    SamePartIn k (partAt k ps s) (partAt k qs s) := by
  rw [partAt, partAt]
  cases k.slots.idxOf? s with
  | none => exact samePartIn_absent k
  | some i =>
    change SamePartIn k (ps.getD i .absent) (qs.getD i .absent)
    induction h generalizing i with
    | nil => exact samePartIn_absent k
    | cons hpq _ ih =>
      cases i with
      | zero => exact hpq
      | succ i => exact ih i

lemma asksSize_formattedString : ∀ piece ∈ (Layout.of .formattedString).before ++
    (Layout.of .formattedString).core ++ (Layout.of .formattedString).after, piece.asksSize = false := by
  decide

lemma sameWriting_printNode {m m' : Option Nat} (h : Forall₂ (SamePartIn k) ps qs) :
    SameWriting (printNode k own m ps) (printNode k own m' qs) := by
  intro env c d hcd
  have hparts := samePartIn_partAt h
  have hsizes : ∀ piece ∈ (Layout.of k).before ++ (Layout.of k).core ++ (Layout.of k).after, piece.asksSize = true →
      ∀ s, (partAt k ps s).size = (partAt k qs s).size := by
    intro piece hpiece hasks s
    refine (hparts s).2 ?_
    rintro rfl
    rw [asksSize_formattedString piece hpiece] at hasks
    cases hasks
  simp only [mem_append, or_imp, forall_and] at hsizes
  have hsame := fun s => (hparts s).1
  unfold printNode
  cases m <;> cases m' <;>
    exact text_writePieces hsame hsizes.2 (text_writePieces hsame hsizes.1.2 (text_writePieces hsame hsizes.1.1 hcd))

def writeRun (env : PrintEnv) (size : Nat) : Nat → List PartPrinter → Cursor → Cursor
  | _, [], c => c
  | i, p :: ps, c => writeRun env size (i + 1) ps (p.print { env with after := env.sep.after i size, sep := .none } c).2

lemma printRun_cursor (c : Cursor) : (printRun ps env c).2 = writeRun env ps.length 0 ps c := by
  rw [printRun]
  dsimp only
  generalize ps.length = size
  generalize (none : Option Span) = span
  generalize 0 = i
  induction ps generalizing i span c with
  | nil => rfl
  | cons p ps ih => exact ih _ _ _

lemma text_writeRun {size i : Nat} (h : Forall₂ SamePart ps qs) {c d : Cursor} (hcd : c.text = d.text) :
    (writeRun env size i ps c).text = (writeRun env size i qs d).text := by
  induction h generalizing i c d with
  | nil => exact hcd
  | cons hpq _ ih => exact ih (hpq.print _ hcd)

lemma sameWriting_printRun (h : Forall₂ SamePart ps qs) : SameWriting (printRun ps) (printRun qs) := by
  intro env c d hcd
  rw [printRun_cursor, printRun_cursor, h.length_eq]
  exact text_writeRun h hcd

/-! ## Trees -/

namespace Node

def partPrinter (n : Node) : PartPrinter := ⟨n.kind, n.parts.length, n.printer⟩

lemma printers_eq (ps : List Node) : printers ps = ps.map partPrinter := by
  induction ps with
  | nil => rw [printers, map_nil]
  | cons p ps ih =>
    obtain ⟨k, t, qs, m⟩ := p
    rw [printers, ih]
    rfl

lemma printer_run (h : n.kind = .seq) : n.printer = printRun (n.parts.map partPrinter) := by
  obtain ⟨k, t, ps, m⟩ := n
  cases h
  rw [printer, printers_eq]
  rfl

lemma printer_node (h : n.kind ≠ .seq) : n.printer = printNode n.kind n.text n.mark (n.parts.map partPrinter) := by
  obtain ⟨k, t, ps, m⟩ := n
  rw [printer, printers_eq]
  · rfl
  · exact h

lemma text_printer_of_isText (h : n.kind = .formattedStringText) (c : Cursor) :
    (n.printer env c).2.text = c.text ++ n.text := by
  have hwrite : (c.write n.text).text = c.text ++ n.text := by
    rw [Cursor.write]
    split
    case isTrue hempty => rw [String.isEmpty_iff.1 hempty, String.append_empty]
    case isFalse => rfl
  rw [printer_node (by rw [h]; decide), h, ← hwrite]
  cases n.mark <;> rfl

lemma text_writeRun_of_isTexts {ns : List Node} (h : isTexts ns = true) (size i : Nat) (c : Cursor) :
    (writeRun env size i (ns.map partPrinter) c).text = c.text ++ joined ns := by
  induction ns generalizing i c with
  | nil => exact (String.append_empty).symm
  | cons n ns ih =>
    rw [isTexts, all_cons, Bool.and_eq_true, beq_iff_eq] at h
    rw [map_cons, writeRun, ih h.2]
    change (n.printer _ c).2.text ++ joined ns = _
    rw [text_printer_of_isText h.1, String.append_assoc]
    exact congrArg _ (String.join_cons).symm

lemma sameWriting_of_sameTexts {p q : Node} (h : sameTexts p q = true) : SameWriting p.printer q.printer := by
  obtain ⟨hp, hq, hptexts, hqtexts, hjoined⟩ := sameTexts_iff.1 h
  intro env c d hcd
  rw [printer_run hp, printer_run hq, printRun_cursor, printRun_cursor, text_writeRun_of_isTexts hptexts,
    text_writeRun_of_isTexts hqtexts, hcd, hjoined]

lemma sameWriting_of_alike {a b : Node} (h : alike a b = true) : SameWriting a.printer b.printer := by
  induction a using partsInduction generalizing b with
  | h a ih =>
    obtain ⟨hkind, htext, hparts⟩ := alike_iff.1 h
    have hboth := (forall₂_and_left _ _).2 ⟨fun p hp => @ih p hp, hparts⟩
    by_cases hseq : a.kind = .seq
    · rw [printer_run hseq, printer_run (hkind ▸ hseq)]
      refine sameWriting_printRun (forall₂_map_left_iff.2 (forall₂_map_right_iff.2 (hboth.imp ?_)))
      rintro p q ⟨hp, hpq⟩
      rw [hseq] at hpq
      exact ⟨hpq.kind_eq, hp (hpq.resolve_right fun hfalse => nomatch hfalse.1)⟩
    · rw [printer_node hseq, printer_node (hkind ▸ hseq), ← hkind, ← htext]
      refine sameWriting_printNode (forall₂_map_left_iff.2 (forall₂_map_right_iff.2 (hboth.imp ?_)))
      rintro p q ⟨hp, hpq | ⟨htexts, hpq⟩⟩
      · obtain ⟨hpkind, -, hpparts⟩ := alike_iff.1 hpq
        exact ⟨⟨hpkind, hp hpq⟩, fun _ => hpparts.length_eq⟩
      · exact ⟨⟨AlikePart.kind_eq (.inr ⟨htexts, hpq⟩), sameWriting_of_sameTexts hpq⟩,
          fun hother => absurd (beq_iff_eq.1 htexts) hother⟩

end Node

end Mender.Syntax
