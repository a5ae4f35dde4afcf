import Mathlib.Tactic.Lemma
import Mender.Infer
import Mender.Syntax.Read

/-!
# Inferred types and values

The type of an expression is inferred from its shape. Which values it can have depends on much else, and is left open here
but for what the language says of the shapes (`Evaluation`). Of the known functions, `abs` is the one that may answer with
a value of any type, so what is inferred is right if and only if it is right of the calls of `abs` (`inferred_iff`).

A small evaluator with numbers, texts and spans of time is an `Evaluation` (`reckoning`). With an `abs` that takes numbers
only, all inferred types are right of it; with the one of the language, `abs` of a span is a span and no number
(`abs_of_span`).
-/

namespace Mender.BaseType

open Syntax Node

/-- The name that is called. -/
def calls? : Node → Option String
  | .mk .call _ [_, .mk .name f _ _, _, _, _, _] _ => some f
  | _ => none

/-- The values that expressions can have where names are those of the language and only values of one type are added. -/
structure Evaluation (V : Type) where
  type? : V → Option BaseType
  Gives : Node → V → Prop
  number {n v} : Gives n v → n.kind ∈ [.integer, .imaginary, .float] → type? v = some .number
  list {n v} : Gives n v → n.kind ∈ [.list, .listComp] → type? v = some .list
  text {n v} : Gives n v → n.kind = .formattedString → type? v = some .string
  literal {n v} : Gives n v → n.kind = .simpleString →
    type? v = some (if (Literal.parts n.text).mark.toList.contains 'b' then .bytes else .string)
  counted {n v f} : Gives n v → calls? n = some f → f ∈ ["int", "float", "len"] → type? v = some .number
  written {n v} : Gives n v → calls? n = some "str" → type? v = some .string
  sum {n v} : Gives n v → n.kind = .concatenatedString ∨ n.kind = .binaryOperation ∧ (n.get .operator).kind = .add →
    ∃ a b, Gives (n.get .left) a ∧ Gives (n.get .right) b ∧ type? v = type? a ∧ type? v = type? b
  choice {n v} : Gives n v → n.kind = .ifExp → Gives (n.get .body) v ∨ Gives (n.get .orelse) v

section

variable {V : Type} {n : Node} {t : BaseType} {v : V}

lemma type?_of_infer? (E : Evaluation V)
    (habs : ∀ n v, calls? n = some "abs" → E.Gives n v → E.type? v = some .number) (hn : infer? n = some t)
    (hv : E.Gives n v) : E.type? v = some t := by
  fun_induction infer? n generalizing t v with
  | case1 | case2 | case3 =>
    cases hn
    exact E.number hv (by simp [kind])
  | case4 _ _ f _ _ _ _ _ _ _ hf =>
    cases hn
    by_cases hname : f = "abs"
    · subst hname
      exact habs _ v rfl hv
    · exact E.counted hv rfl (by simp_all [numberFunctions])
  | case5 _ _ _ _ _ _ _ _ _ _ _ hf =>
    cases hn
    obtain rfl := beq_iff_eq.1 hf
    exact E.written hv rfl
  | case7 | case8 =>
    cases hn
    exact E.list hv (by simp [kind])
  | case9 =>
    cases hn
    exact E.text hv rfl
  | case10 _ _ _ hb =>
    rw [← hn, E.literal hv rfl]
    exact congrArg some (if_pos hb)
  | case11 _ _ _ hb =>
    rw [← hn, E.literal hv rfl]
    exact congrArg some (if_neg hb)
  | case12 _ _ _ _ _ _ _ ih =>
    obtain ⟨a, -, ha, -, heq, -⟩ := E.sum hv (.inl rfl)
    exact heq.trans (ih hn ha)
  | case13 _ _ _ _ _ _ _ _ _ _ hleft ih =>
    -- either operand has the type of the sum, so the one that is known settles it
    obtain ⟨a, -, ha, -, heq, -⟩ := E.sum hv (.inr ⟨rfl, rfl⟩)
    exact heq.trans (ih (hleft.trans hn) ha)
  | case14 _ _ _ _ _ _ _ _ _ _ _ ih =>
    obtain ⟨-, b, -, hb, -, heq⟩ := E.sum hv (.inr ⟨rfl, rfl⟩)
    exact heq.trans (ih hn hb)
  | case15 _ _ _ _ _ _ _ _ _ _ _ hsame ihBody ihElse =>
    rcases E.choice hv rfl with hv | hv
    · exact ihBody hn hv
    · exact ihElse (hsame ▸ hn) hv
  | case6 | case16 | case17 => cases hn

/-- **Inferred types are right of all values**, if and only if the calls of `abs` answer with numbers. -/
theorem inferred_iff (E : Evaluation V) : (∀ n t v, infer? n = some t → E.Gives n v → E.type? v = some t) ↔
    ∀ n v, calls? n = some "abs" → E.Gives n v → E.type? v = some .number := by
  refine ⟨fun h n v hn => h n .number v ?_, fun h n t v => type?_of_infer? E h⟩
  unfold calls? at hn
  split at hn
  next =>
    cases hn
    rfl
  next => cases hn

end

/-! ## An evaluation -/

/-- Values that the evaluator knows. Of a list it keeps the length. -/
inductive Value where
  | number (i : Int) | list (length : Nat) | text (s : String) | bytes (s : String) | span (days : Int)
  deriving DecidableEq

namespace Value

/-- The base type of a value; a span of time has none. -/
def type? : Value → Option BaseType
  | number _ => some .number
  | list _ => some .list
  | text _ => some .string
  | bytes _ => some .bytes
  | span _ => none

def isTruthy : Value → Bool
  | number i | span i => i != 0
  | list length => length != 0
  | text s | bytes s => s != ""

def add? : Value → Value → Option Value
  | number i, number j => some (number (i + j))
  | list l, list m => some (list (l + m))
  | text s, text s' => some (text (s ++ s'))
  | bytes s, bytes s' => some (bytes (s ++ s'))
  | _, _ => none

/-- The functions with one argument. Whether `abs` takes spans of time is left open. -/
def answer? (spans : Bool) : String → Value → Option Value
  | "int", number i | "float", number i => some (number i)
  | "len", list length => some (number length)
  | "len", text s | "len", bytes s => some (number s.length)
  | "str", number i => some (text (toString i))
  | "str", text s => some (text s)
  | "abs", number i => some (number i.natAbs)
  | "abs", span days => if spans then some (span days.natAbs) else none
  | "timedelta", number i => some (span i)
  | _, _ => none

lemma type?_of_add? {a b v : Value} (h : a.add? b = some v) : v.type? = a.type? ∧ v.type? = b.type? := by
  unfold add? at h
  split at h <;> cases h <;> exact ⟨rfl, rfl⟩

lemma type?_of_answer? {spans : Bool} {f : String} {a v : Value} (h : answer? spans f a = some v) :
    (f ∈ ["int", "float", "len"] → v.type? = some .number) ∧ (f = "str" → v.type? = some .string) ∧
      (f = "abs" → v.type? = some .number ∨ spans = true) := by
  unfold answer? at h
  split at h <;> simp_all
  all_goals
    subst h
    simp [type?]

end Value

/-- What an expression comes to: literals, sums, choices and calls of some built-in functions. -/
def value? (spans : Bool) : Node → Option Value
  | .mk .integer t _ _ => some (.number (Nat.ofDigitChars 10 t.toList 0))
  | .mk .simpleString t _ _ =>
    some ((if (Literal.parts t).mark.toList.contains 'b' then Value.bytes else Value.text) (Literal.parts t).raw)
  | .mk .list _ [_, _, .mk .seq _ elements _, _, _] _ => some (.list elements.length)
  | .mk .call _ [_, .mk .name f _ _, _, _, .mk .seq _ [.mk .arg _ [_, _, _, arg, _, _] _] _, _] _ => do
    Value.answer? spans f (← value? spans arg)
  | .mk .concatenatedString _ [_, left, _, right, _] _ => do (← value? spans left).add? (← value? spans right)
  | .mk .binaryOperation _ [_, left, .mk .add _ _ _, right, _] _ => do (← value? spans left).add? (← value? spans right)
  | .mk .ifExp _ [_, body, _, _, test, _, _, orelse, _] _ => do
    if (← value? spans test).isTruthy then value? spans body else value? spans orelse
  | _ => none

/-- What an expression is worth, by its shape. -/
inductive Worth (spans : Bool) : Node → Value → Prop
  | integer {t ps m i} : Worth spans (.mk .integer t ps m) (.number i)
  | literal {t ps m} : Worth spans (.mk .simpleString t ps m)
      ((if (Literal.parts t).mark.toList.contains 'b' then Value.bytes else Value.text) (Literal.parts t).raw)
  | list {t ps m l} : Worth spans (.mk .list t ps m) (.list l)
  | call {n f a v} : calls? n = some f → n.kind = .call → Value.answer? spans f a = some v → Worth spans n v
  | sum {n a b v} : n.kind = .concatenatedString ∨ n.kind = .binaryOperation → value? spans (n.get .left) = some a →
      value? spans (n.get .right) = some b → a.add? b = some v → Worth spans n v
  | choice {n v} : n.kind = .ifExp → value? spans (n.get .body) = some v ∨ value? spans (n.get .orelse) = some v →
      Worth spans n v

variable {spans : Bool} {n : Node} {v : Value} {f : String}

lemma worth_of_value? (h : value? spans n = some v) : Worth spans n v := by
  unfold value? at h
  split at h
  next =>
    cases h
    exact .integer
  next =>
    cases h
    exact .literal
  next =>
    cases h
    exact .list
  next =>
    obtain ⟨a, -, h⟩ := Option.bind_eq_some_iff.1 h
    exact .call rfl rfl h
  next =>
    obtain ⟨a, ha, h⟩ := Option.bind_eq_some_iff.1 h
    obtain ⟨b, hb, h⟩ := Option.bind_eq_some_iff.1 h
    exact .sum (.inl rfl) ha hb h
  next =>
    obtain ⟨a, ha, h⟩ := Option.bind_eq_some_iff.1 h
    obtain ⟨b, hb, h⟩ := Option.bind_eq_some_iff.1 h
    exact .sum (.inr rfl) ha hb h
  next =>
    obtain ⟨test, -, h⟩ := Option.bind_eq_some_iff.1 h
    refine .choice rfl ?_
    split at h
    · exact .inl h
    · exact .inr h
  next => cases h

lemma kind_of_calls? (h : calls? n = some f) : n.kind = .call := by
  unfold calls? at h
  split at h
  next => rfl
  next => cases h

lemma exists_of_calls? (h : value? spans n = some v) (hf : calls? n = some f) :
    ∃ a, Value.answer? spans f a = some v := by
  have hkind := kind_of_calls? hf
  cases worth_of_value? h with
  | call hf' _ ha =>
    cases hf.symm.trans hf'
    exact ⟨_, ha⟩
  | sum hkind' => simp [hkind] at hkind'
  | choice hkind' => simp [hkind] at hkind'
  | integer | literal | list => cases hkind

/-- The evaluator meets what is said of evaluations. -/
def reckoning (spans : Bool) : Evaluation Value where
  type? := Value.type?
  Gives n v := value? spans n = some v
  number h hkind := by
    cases worth_of_value? h with
    | integer => rfl
    | literal | list => simp [kind] at hkind
    | call _ hkind' | choice hkind' => simp [hkind'] at hkind
    | sum hkind' => rcases hkind' with hkind' | hkind' <;> simp [hkind'] at hkind
  list h hkind := by
    cases worth_of_value? h with
    | list => rfl
    | integer | literal => simp [kind] at hkind
    | call _ hkind' | choice hkind' => simp [hkind'] at hkind
    | sum hkind' => rcases hkind' with hkind' | hkind' <;> simp [hkind'] at hkind
  text h hkind := by
    cases worth_of_value? h with
    | integer | literal | list => cases hkind
    | call _ hkind' | choice hkind' => cases hkind.symm.trans hkind'
    | sum hkind' => rcases hkind' with hkind' | hkind' <;> cases hkind.symm.trans hkind'
  literal h hkind := by
    cases worth_of_value? h with
    | @literal t =>
      rw [text]
      split <;> rfl
    | integer | list => cases hkind
    | call _ hkind' | choice hkind' => cases hkind.symm.trans hkind'
    | sum hkind' => rcases hkind' with hkind' | hkind' <;> cases hkind.symm.trans hkind'
  counted h hf hmem := by
    obtain ⟨a, ha⟩ := exists_of_calls? h hf
    exact (Value.type?_of_answer? ha).1 hmem
  written h hf := by
    obtain ⟨a, ha⟩ := exists_of_calls? h hf
    exact (Value.type?_of_answer? ha).2.1 rfl
  sum h hkind := by
    cases worth_of_value? h with
    | sum _ ha hb h => exact ⟨_, _, ha, hb, Value.type?_of_add? h⟩
    | integer | literal | list => simp [kind] at hkind
    | call _ hkind' | choice hkind' => simp [hkind'] at hkind
  choice h hkind := by
    cases worth_of_value? h with
    | choice _ h => exact h
    | integer | literal | list => cases hkind
    | call _ hkind' => cases hkind.symm.trans hkind'
    | sum hkind' => rcases hkind' with hkind' | hkind' <;> cases hkind.symm.trans hkind'

/-- **Absolute values.** All that is inferred is right where `abs` takes numbers only, and not where it takes spans of
time. -/
theorem abs_of_span :
    (∀ n t v, infer? n = some t → (reckoning false).Gives n v → v.type? = some t) ∧
      (∃ n ∈ Node.ofExpression? "abs(timedelta(1))", infer? n = some .number ∧ (reckoning true).Gives n (.span 1)) ∧
      ¬ ∀ n t v, infer? n = some t → (reckoning true).Gives n v → v.type? = some t := by
  have hspan : ((Node.ofExpression? "abs(timedelta(1))").map fun n => (infer? n, calls? n, value? true n)) =
      some (some .number, some "abs", some (.span 1)) := by decide +kernel
  obtain ⟨n, hn, hspan⟩ := Option.map_eq_some_iff.1 hspan
  simp only [Prod.mk.injEq] at hspan
  obtain ⟨hinfer, hcalls, hvalue⟩ := hspan
  refine ⟨(inferred_iff (reckoning false)).2 fun n v hf h => ?_, ⟨n, hn, hinfer, hvalue⟩, fun hall => ?_⟩
  · obtain ⟨a, ha⟩ := exists_of_calls? h hf
    exact ((Value.type?_of_answer? ha).2.2 rfl).resolve_right Bool.false_ne_true
  · cases (inferred_iff (reckoning true)).1 hall n _ hcalls hvalue

end Mender.BaseType
