import Mender.Codemod.Django
import Mender.Proofs.Codemod.Generators

/-!
# Receivers on top

Of several receivers among the decorators of a function the last one is moved to the top, and the next run moves another.

* `decorated_of_makes` — what becomes of the decorators;
* `receivers_first_iff` — when another move is due.
-/

namespace Mender.Codemod

open Syntax Node List

namespace Task

/-! ## The last one to the front -/

section

variable {α β : Type} (test : α → Bool) (xs : List α)

lemma lastIndex?_append_singleton (a : α) :
    lastIndex? test (xs ++ [a]) = if test a then some xs.length else lastIndex? test xs := by
  rw [lastIndex?, zipIdx_append]
  cases ha : test a with
  | true => simp [ha]
  | false => simp [ha, lastIndex?]

lemma lastIndex?_map (f : β → α) (ys : List β) : lastIndex? test (ys.map f) = lastIndex? (test ∘ f) ys := by
  induction ys using reverseRecOn with
  | nil => rfl
  | append_singleton ys y ih =>
    rw [map_append, map_singleton, lastIndex?_append_singleton, lastIndex?_append_singleton, ih, length_map]
    rfl

lemma lastIndex?_cases : (lastIndex? test xs = none ∧ ∀ x ∈ xs, test x = false) ∨
    ∃ front x back, xs = front ++ x :: back ∧ lastIndex? test xs = some front.length ∧ test x = true ∧
      ∀ y ∈ back, test y = false := by
  induction xs using reverseRecOn with
  | nil => exact .inl ⟨rfl, by simp⟩
  | append_singleton xs a ih =>
    rw [lastIndex?_append_singleton]
    cases ha : test a with
    | true => exact .inr ⟨xs, a, [], rfl, rfl, ha, by simp⟩
    | false =>
      rcases ih with ⟨hnone, hxs⟩ | ⟨front, x, back, rfl, hlast, hx, hback⟩
      · refine .inl ⟨hnone, fun y hy => ?_⟩
        rcases mem_append.1 hy with hy | hy
        · exact hxs y hy
        · rwa [mem_singleton.1 hy]
      · refine .inr ⟨front, x, back ++ [a], by simp, hlast, hx, fun y hy => ?_⟩
        rcases mem_append.1 hy with hy | hy
        · exact hback y hy
        · rwa [mem_singleton.1 hy]

/-- The list with the last such member in front, unless it is there already. -/
def fronted? : Option (List α) :=
  match lastIndex? test xs with
  | some (i + 1) => some (moveToFront (i + 1) xs)
  | _ => none

lemma fronted?_cases : ((∀ x ∈ xs, test x = false) ∧ fronted? test xs = none) ∨
    ∃ front x back, xs = front ++ x :: back ∧ test x = true ∧ (∀ y ∈ back, test y = false) ∧
      fronted? test xs = if front = [] then none else some (x :: (front ++ back)) := by
  rcases lastIndex?_cases test xs with ⟨hnone, hxs⟩ | ⟨front, x, back, rfl, hlast, hx, hback⟩
  · exact .inl ⟨hxs, by rw [fronted?, hnone]⟩
  · refine .inr ⟨front, x, back, rfl, hx, hback, ?_⟩
    rw [fronted?, hlast]
    cases front with
    | nil => rfl
    | cons a front => simp [moveToFront, eraseIdx_append_of_length_le]

lemma isSome_fronted?_iff : (fronted? test xs).isSome = true ↔ ∃ x ∈ xs.tail, test x = true := by
  rcases fronted?_cases test xs with ⟨hxs, hnone⟩ | ⟨front, x, back, rfl, hx, hback, hfront⟩
  · simpa [hnone] using fun x h => hxs x (mem_of_mem_tail h)
  · rw [hfront]
    cases front with
    | nil => simpa using hback
    | cons a front => simpa using ⟨x, .inr (.inl rfl), hx⟩

end

/-! ## Functions -/

/-- Is a decorator a receiver of signals? -/
def isReceiver (t : Task) (d : Node) : Bool :=
  (t.facts.baseName? (d.get .decorator)).toOption == some (some "django.dispatch.receiver")

/-- The decorators that a function gets, if they are to change. -/
def newOrder (t : Task) (f : Node) : Option (List Node) :=
  if f.kind = .functionDef then fronted? t.isReceiver (f.list .decorators) else none

/-- What becomes of a node when functions get new decorators and all else is put together again. -/
def Decorated (order : Node → Option (List Node)) (n : Node) (e : Edit) : Prop :=
  ∃ n', RebuiltTo (fun c e => ∃ _ : c ∈ n.visited, Decorated order c e) n n' ∧
    e = .keep (((order n).map (n'.setList .decorators)).getD n')
termination_by n
decreasing_by exact sizeOf_lt_of_mem_visited ‹_›

variable {t : Task} {old new out n : Node} {e : Edit} {s s' notes : Notes}

lemma lastIndex?_names {ds : List Node} {names : List (Option String)}
    (h : ds.mapM (fun d => t.facts.baseName? (d.get .decorator)) = .ok names) :
    lastIndex? (· == some "django.dispatch.receiver") names = lastIndex? t.isReceiver ds := by
  have hmap : names.map (· == some "django.dispatch.receiver") = ds.map t.isReceiver := by
    rw [mapM_eq_ok_iff] at h
    induction h with
    | nil => rfl
    | cons hd _ ih =>
      rw [map_cons, map_cons, ih, isReceiver, hd]
      rfl
  have hid := lastIndex?_map id (· == some "django.dispatch.receiver") names
  rw [hmap, lastIndex?_map] at hid
  exact hid.symm

lemma leave_receiversFirst (h : (t.receiversFirst.leave old new).run s = .ok (e, s')) :
    e = .keep (((t.newOrder old).map (new.setList .decorators)).getD new) ∧ s'.needed = s.needed ∧ s'.superfluous = s.superfluous := by
  change ((if old.kind != .functionDef then pure (.keep new) else _ : Work Edit)).run s = _ at h
  rw [newOrder]
  split at h
  next hkind =>
    cases h
    rw [if_neg (bne_iff_ne.1 hkind)]
    exact ⟨rfl, rfl, rfl⟩
  next hkind =>
    have hkind : old.kind = .functionDef := by simpa using hkind
    obtain ⟨names, hnames, h⟩ := of_lift_bind h
    rw [lastIndex?_names hnames] at h
    split at h
    next i hlast =>
      obtain ⟨⟨⟩, s₁, hreport, h⟩ := of_run_bind h
      obtain ⟨line, -, hreport⟩ := of_lift_bind hreport
      cases hreport
      obtain ⟨n', hn', h⟩ := of_lift_bind h
      cases h
      rw [if_pos hkind, fronted?, hlast, eq_of_sound hn']
      exact ⟨rfl, rfl, rfl⟩
    next hlast =>
      cases h
      rw [if_pos hkind, fronted?]
      split
      next i hlast' => exact absurd hlast' (hlast i)
      next => exact ⟨rfl, rfl, rfl⟩

/-- Whether a move is due depends on which of the decorators are receivers only. -/
lemma isSome_fronted?_congr {p q : Node → Bool} {ds ds' : List Node} (h : ds.map p = ds'.map q) :
    (fronted? p ds).isSome = true ↔ (fronted? q ds').isSome = true := by
  have hmem (p : Node → Bool) (ds : List Node) : (fronted? p ds).isSome = true ↔ true ∈ (ds.map p).tail := by
    rw [isSome_fronted?_iff, ← map_tail, mem_map]
  rw [hmem, hmem, h]

lemma decorated_of_makes (h : t.receiversFirst.Makes n e) : Decorated t.newOrder n e := by
  induction n generalizing e with
  | h n ih =>
    obtain ⟨new, hnew, s, s', hleave⟩ := Pass.exists_rebuiltTo_along (fun _ => rfl)
      (R := fun c e => ∃ _ : c ∈ n.visited, Decorated t.newOrder c e) (fun c hc e h => ⟨hc, ih c hc h⟩) h
    rw [Decorated]
    exact ⟨new, hnew, (leave_receiversFirst hleave).1⟩

/-- **Receivers come first, one at a time.** In the new module a function has the decorators that it had, the last receiver
on top and the others in their order. Another move is due then just if there is one more receiver. So it is in a second
run, whatever the names of the new module mean, if it takes the same decorators of a function for receivers. -/
theorem receivers_first_iff (h : t.putReceiversFirst = .ok (out, notes)) :
    Decorated t.newOrder t.module (.keep out) ∧ ∀ f : Node, f.kind = .functionDef →
      ((∀ d ∈ f.list .decorators, t.isReceiver d = false) ∧ t.newOrder f = none) ∨
      ∃ front r back, f.list .decorators = front ++ r :: back ∧ t.isReceiver r = true ∧
        (∀ d ∈ back, t.isReceiver d = false) ∧
        t.newOrder f = (if front = [] then none else some (r :: (front ++ back))) ∧
        ((fronted? t.isReceiver (r :: (front ++ back))).isSome = true ↔ ∃ d ∈ front, t.isReceiver d = true) ∧
        ∀ (again : Task) (f' : Node), f'.kind = .functionDef →
          (f'.list .decorators).map again.isReceiver = (r :: (front ++ back)).map t.isReceiver →
          ((again.newOrder f').isSome = true ↔ ∃ d ∈ front, t.isReceiver d = true) := by
  have hrun := run_of_command (fun _ => rfl) (fun h => (leave_receiversFirst h).2) (of_withScopes h)
  refine ⟨decorated_of_makes ⟨_, _, hrun⟩, fun f hkind => ?_⟩
  rw [newOrder, if_pos hkind]
  rcases fronted?_cases t.isReceiver (f.list .decorators) with hnone | ⟨front, r, back, hds, hr, hback, hfront⟩
  · exact .inl hnone
  · have hdue : (fronted? t.isReceiver (r :: (front ++ back))).isSome = true ↔ ∃ d ∈ front, t.isReceiver d = true := by
      rw [isSome_fronted?_iff, tail_cons]
      constructor
      · rintro ⟨d, hd, hreceiver⟩
        rcases mem_append.1 hd with hd | hd
        · exact ⟨d, hd, hreceiver⟩
        · rw [hback d hd] at hreceiver
          cases hreceiver
      · rintro ⟨d, hd, hreceiver⟩
        exact ⟨d, mem_append_left _ hd, hreceiver⟩
    refine .inr ⟨front, r, back, hds, hr, hback, hfront, hdue, fun again f' hkind' hsame => ?_⟩
    rw [newOrder, if_pos hkind', isSome_fronted?_congr hsame]
    exact hdue

/-- Two receivers take turns at the top. -/
def twoReceivers : String := "from django.dispatch import receiver\n@receiver(a)\n@receiver(b)\ndef f(): pass\n"

def receiversTask (source : String) : Task := { facts := .of ((ofModule? source).getD .absent) }

lemma twoReceivers_run : ((receiversTask twoReceivers).putReceiversFirst.toOption.map fun r =>
      (r.1.code, (receiversTask r.1.code).putReceiversFirst.toOption.map fun r => r.1.code)) =
    some ("from django.dispatch import receiver\n@receiver(b)\n@receiver(a)\ndef f(): pass\n", some twoReceivers) := by
  decide +kernel

theorem twoReceivers_swapped : ∃ out notes, (receiversTask twoReceivers).putReceiversFirst = .ok (out, notes) ∧
    Decorated (receiversTask twoReceivers).newOrder (receiversTask twoReceivers).module (.keep out) ∧ out.code ≠ twoReceivers ∧
    (receiversTask out.code).putReceiversFirst.toOption.map (fun r => r.1.code) = some twoReceivers := by
  obtain ⟨⟨out, notes⟩, hrun, hcodes⟩ := exists_of_toOption_map twoReceivers_run
  obtain ⟨hcode, hagain⟩ := Prod.mk.inj hcodes
  refine ⟨out, notes, hrun, (receivers_first_iff hrun).1, ?_, hagain⟩
  rw [hcode]
  decide

end Task

end Mender.Codemod
