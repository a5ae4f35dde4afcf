import Mathlib.Tactic.Lemma
import Mender.Syntax.Literal

/-!
# Text literals with other text

A literal of a module is one that the lexer has read in one go. Put another text between its quotes and
`Literal.parts` gives that text back, as long as it does not begin with the quote itself: two quotes in a row could
be the start of three.
-/

namespace Mender.Syntax.Literal

open List Token

variable {q c : Char} {cs quote body mark rest raw : List Char} {text : String}

/-- Is a text one literal, as the scanner cuts it? -/
def IsLiteral (text : String) : Prop := lexeme? text.toList = some (.string, text.toList, [])

def quotes : List (List Char) := [['"'], ['\''], ['"', '"', '"'], ['\'', '\'', '\'']]

/-- Can the text stand behind the quote? Behind a quote of one character it must not begin with that
character. -/
def Fits (quote body : List Char) : Prop := quote.length = 1 → body.head? ≠ quote.head?

/-- The text has the character only behind a backslash; `escaped` tells whether one stands in front. -/
def Bare (q : Char) : Bool → List Char → Prop
  | _, [] => True
  | true, _ :: rest => Bare q false rest
  | false, c :: rest => c ≠ q ∧ Bare q (c == '\\') rest

lemma Bare.head?_ne (h : Bare q false cs) : cs.head? ≠ some q := by
  cases cs with
  | nil => exact nofun
  | cons c rest =>
    intro hc
    exact h.1 (Option.some.inj hc)

lemma Bare.tail {escaped : Bool} (h : Bare q escaped (c :: rest)) : Bare q (! escaped && c == '\\') rest := by
  cases escaped with
  | false => exact h.2
  | true => exact h

/-! ## Literals that are put together -/

lemma quote?_append (hq : quote ∈ quotes) (hfits : Fits quote body) :
    quote? (quote ++ (body ++ quote)) = some (quote, body ++ quote) := by
  simp only [quotes, mem_cons, not_mem_nil, or_false] at hq
  rcases hq with rfl | rfl | rfl | rfl
  case inr.inr.inl | inr.inr.inr => rfl
  all_goals
    cases body with
    | nil => rfl
    | cons c rest =>
      have hc : c ≠ _ := fun h => hfits rfl (congrArg some h)
      simp [quote?, hc]

lemma not_isWordChar_of_quote (hq : quote ∈ quotes) : ∃ c rest, quote = c :: rest ∧ Text.isWordChar c = false := by
  simp only [quotes, mem_cons, not_mem_nil, or_false] at hq
  rcases hq with rfl | rfl | rfl | rfl <;> exact ⟨_, _, rfl, by decide⟩

lemma parts_between (hm : ∀ c ∈ mark, Text.isWordChar c = true) (hq : quote ∈ quotes) (hfits : Fits quote body) :
    parts (String.ofList (mark ++ (quote ++ (body ++ quote)))) =
      ⟨String.ofList (mark.map Char.toLower), String.ofList quote, String.ofList body⟩ := by
  have hmark : (mark ++ (quote ++ (body ++ quote))).takeWhile Text.isWordChar = mark := by
    obtain ⟨c, rest, rfl, hc⟩ := not_isWordChar_of_quote hq
    rw [takeWhile_append_of_pos hm]
    simp [hc]
  have hquote : (if quote.length == 3 && (body ++ quote).length ≥ 3 then quote
      else (quote ++ (body ++ quote)).take 1) = quote := by
    simp only [quotes, mem_cons, not_mem_nil, or_false] at hq
    rcases hq with rfl | rfl | rfl | rfl <;> simp
  simp only [parts, String.toList_ofList, hmark, drop_left, quote?_append hq hfits, hquote]
  congr 2
  simp

/-! ## Literals that the lexer reads -/

lemma bare_of_upToQuote {s r : List Char} (h : upToQuote [q] cs = some (s, r)) (hq : q ≠ '\\') : Bare q false s := by
  fun_induction upToQuote [q] cs generalizing s r with
  | case1 => cases h
  | case2 c rest hp | case4 c rest _ hp =>
    cases h
    trivial
  | case3 c rest hp ih =>
    obtain ⟨⟨s', r'⟩, hrest, hs⟩ := Option.map_eq_some_iff.1 h
    cases hs
    exact ⟨hq.symm, ih hrest⟩
  | case5 c rest hpair hp ih =>
    obtain ⟨⟨s', r'⟩, hrest, hs⟩ := Option.map_eq_some_iff.1 h
    cases hs
    have hc : c ≠ q := by
      rintro rfl
      simp at hp
    -- a backslash would have to be the last character, and then no quote could follow
    have hslash : c ≠ '\\' := by
      rintro rfl
      cases rest with
      | nil => cases hrest
      | cons d rest => exact hpair d rest rfl rfl
    rw [Bare, beq_false_of_ne hslash]
    exact ⟨hc, ih hrest⟩

lemma mem_quotes_of_quote? (h : quote? cs = some (quote, body)) : quote ∈ quotes ∧ cs = quote ++ body := by
  unfold quote? at h
  split at h <;> cases h <;> exact ⟨by decide, rfl⟩

lemma plain_ne_string {word t r : List Char} : lexeme?.plain cs word rest ≠ some (.string, t, r) := by
  intro h
  unfold lexeme?.plain at h
  split at h
  · cases h
  · split at h
    · cases hmark : mark? cs <;> simp [hmark] at h
    · cases h

lemma IsLiteral.exists_parts (h : IsLiteral text) :
    ∃ mark quote body, text = String.ofList (mark ++ (quote ++ (body ++ quote))) ∧
      isStringMark mark = true ∧ (∀ c ∈ mark, Text.isWordChar c = true) ∧ quote ∈ quotes ∧
      ∀ q, quote = [q] → Bare q false body := by
  unfold IsLiteral at h
  simp only [lexeme?] at h
  have hword : ∀ c ∈ text.toList.takeWhile Text.isWordChar, Text.isWordChar c = true := all_eq_true.1 (all_takeWhile)
  generalize text.toList.takeWhile Text.isWordChar = mark at h hword
  split at h
  case h_2 => exact (plain_ne_string h).elim
  case h_1 quote rest hquote =>
    obtain ⟨hq, -⟩ := mem_quotes_of_quote? hquote
    split at h
    case isFalse =>
      split at h
      · cases h
      · exact (plain_ne_string h).elim
    case isTrue hmark =>
      obtain ⟨⟨s, r⟩, hbody, hs⟩ := Option.map_eq_some_iff.1 h
      unfold stringBody at hbody
      split at hbody
      case h_2 => cases hbody
      case h_1 body r' hup =>
        split at hbody
        · cases hbody
        · cases hbody
          have htext : mark ++ quote ++ (body ++ quote) = text.toList := by simpa using congrArg (·.2.1) hs
          refine ⟨mark, quote, body, ?_, hmark, hword, hq, ?_⟩
          · rw [← append_assoc, htext, String.ofList_toList]
          · rintro q rfl
            refine bare_of_upToQuote hup ?_
            rintro rfl
            exact absurd hq (by decide)

lemma toLower_of_isStringMark (h : isStringMark mark = true) :
    (mark.map Char.toLower).map Char.toLower = mark.map Char.toLower ∧
      ∀ c ∈ mark.map Char.toLower, Text.isWordChar c = true := by
  have hmem : mark.map Char.toLower ∈ [[], ['b'], ['r'], ['u'], ['b', 'r'], ['r', 'b']] := contains_iff_mem.1 h
  rw [← all_eq_true]
  generalize mark.map Char.toLower = small at hmem ⊢
  revert small
  decide

lemma fits_of_bare (h : ∀ q, quote = [q] → Bare q false body) : Fits quote body := by
  intro hlength
  obtain ⟨q, rfl⟩ := length_eq_one_iff.1 hlength
  exact (h q rfl).head?_ne

variable (h : IsLiteral text)
include h

lemma IsLiteral.parts_eq :
    ∃ mark quote body, parts text = ⟨String.ofList mark, String.ofList quote, String.ofList body⟩ ∧
      mark.map Char.toLower = mark ∧ (∀ c ∈ mark, Text.isWordChar c = true) ∧ quote ∈ quotes ∧
      ∀ q, quote = [q] → Bare q false body := by
  obtain ⟨mark, quote, body, rfl, hmark, hword, hq, hbare⟩ := h.exists_parts
  obtain ⟨hsmall, hword'⟩ := toLower_of_isStringMark hmark
  exact ⟨mark.map Char.toLower, quote, body, Literal.parts_between hword hq (fits_of_bare hbare), hsmall, hword', hq, hbare⟩

lemma IsLiteral.parts_between (hfits : Fits (parts text).quote.toList body) :
    parts ((parts text).mark ++ (parts text).quote ++ String.ofList body ++ (parts text).quote) =
      ⟨(parts text).mark, (parts text).quote, String.ofList body⟩ := by
  obtain ⟨mark, quote, old, hparts, hsmall, hword, hq, -⟩ := h.parts_eq
  simp only [hparts, String.toList_ofList] at hfits
  have hnew := Literal.parts_between hword hq hfits
  rw [hsmall] at hnew
  simpa only [hparts, String.ofList_append, String.append_assoc] using hnew

lemma IsLiteral.quote_mem : (parts text).quote.toList ∈ quotes := by
  obtain ⟨mark, quote, body, hparts, -, -, hq, -⟩ := h.parts_eq
  simp only [hparts, String.toList_ofList]
  exact hq

lemma IsLiteral.bare (hraw : (parts text).raw.toList = raw)
    (hq : (parts text).quote.toList = [q]) : Bare q false raw := by
  obtain ⟨mark, quote, body, hparts, -, -, -, hbare⟩ := h.parts_eq
  simp only [hparts, String.toList_ofList] at hq hraw
  exact hraw ▸ hbare q hq

end Mender.Syntax.Literal
