import Mathlib.Tactic.Common

/-!
# Postconditions of fallible computations

`Post E Q r` holds of the outcome `r` when a result satisfies `Q` and an error satisfies `E`.
The error side is carried along, so one triple says at the same time what a computation
establishes and how it may fail. A sequence of calls is verified call by call with `Post.bind`.
-/

namespace Outcome

universe u

variable {ε : Type*} {α β : Type u}

/-- A result satisfies `Q`, an error satisfies `E`. -/
def Post (E : ε → Prop) (Q : α → Prop) : Except ε α → Prop
  | .ok a => Q a
  | .error e => E e

/-- A result satisfies `Q`; nothing is asked of errors. -/
abbrev Ensures (Q : α → Prop) (r : Except ε α) : Prop := Post (fun _ => True) Q r

instance {Q : α → Prop} [DecidablePred Q] (r : Except ε α) :
    Decidable (Post (fun _ => False) Q r) :=
  match r with
  | .ok a => inferInstanceAs (Decidable (Q a))
  | .error _ => inferInstanceAs (Decidable False)

variable {E : ε → Prop} {Q R : α → Prop} {r : Except ε α}

@[simp] theorem post_ok {a : α} : Post E Q (.ok a) ↔ Q a := Iff.rfl

@[simp] theorem post_pure {a : α} : Post E Q (pure a) ↔ Q a := Iff.rfl

theorem Post.mono (h : Post E Q r) (hQ : ∀ a, Q a → R a) : Post E R r := by
  cases r with
  | ok a => exact hQ a h
  | error e => exact h

/-- The rule of sequence: the second part may assume what the first one ensures. -/
theorem Post.bind {S : β → Prop} {f : α → Except ε β} (h : Post E Q r)
    (hf : ∀ a, Q a → Post E S (f a)) : Post E S (r >>= f) := by
  cases r with
  | ok a => exact hf a h
  | error e => exact h

theorem Post.and {E' : ε → Prop} (h : Post E Q r) (h' : Post E' R r) :
    Post E (fun a => Q a ∧ R a) r := by
  cases r with
  | ok a => exact ⟨h, h'⟩
  | error e => exact h

/-- To ensure `Q` it is enough to look at the runs that end. -/
theorem Post.of_ok (h : ∀ a, r = .ok a → Q a) : Ensures Q r := by
  cases r with
  | ok a => exact h a rfl
  | error e => trivial

theorem Post.forget (h : Post E Q r) : Ensures Q r :=
  .of_ok fun a hr => by
    subst hr
    exact h

/-- The result is the one that the computation has. -/
theorem Post.with_eq (h : Post E Q r) : Post E (fun a => Q a ∧ r = .ok a) r := by
  cases r with
  | ok a => exact ⟨h, rfl⟩
  | error e => exact h

theorem Post.result {a : α} (h : Post E Q r) (hr : r = .ok a) : Q a := by
  subst hr
  exact h

/-- A sequence that ends has run both of its parts. -/
theorem bind_eq_ok {f : α → Except ε β} {b : β} (h : r >>= f = .ok b) :
    ∃ a, r = .ok a ∧ f a = .ok b := by
  cases r with
  | error e => cases h
  | ok a => exact ⟨a, rfl, h⟩

/-- If no error is allowed there is a result. -/
theorem Post.total (h : Post (fun _ => False) Q r) : ∃ a, r = .ok a ∧ Q a := by
  cases r with
  | ok a => exact ⟨a, rfl, h⟩
  | error e => exact h.elim

theorem Post.fault {e : ε} (h : Post E Q r) (hr : r = .error e) : E e := by
  subst hr
  exact h

end Outcome
