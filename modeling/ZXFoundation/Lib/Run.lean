import Mathlib.Logic.Function.Basic
import Mathlib.Tactic.Common

/-!
# Runs of a labelled transition system

A `Machine` has starting states and labelled steps; the labels are the operations a client
may call. `Exec` is a finite run that records its labels, `Reachable` the states some run
from a starting state ends in. The two rules for using them are `Exec.invariant` (what every
step preserves, every run preserves) and `Reachable.invariant` (and so every reachable state
has, once the starting states have it).
-/

namespace Runs

open Option

/-- Starting states and labelled steps. -/
structure Machine (σ : Type*) (ο : Type*) where
  start : σ → Prop
  step : σ → ο → σ → Prop

section Guard

variable {σ : Type*} {p : Prop} [Decidable p] {s t : σ}

theorem of_guard (h : (if p then none else some s) = some t) : ¬ p ∧ s = t :=
  (ite_none_left_eq_some.mp h).imp_right some.inj

theorem of_allow (h : (if p then some s else none) = some t) : p ∧ s = t :=
  (ite_none_right_eq_some.mp h).imp_right some.inj

end Guard

namespace Machine

variable {σ ο : Type*} (M : Machine σ ο)

/-- A run from the first state to the last that performs the listed operations. -/
inductive Exec : σ → List ο → σ → Prop where
  | nil (s : σ) : Exec s [] s
  | cons {s t u : σ} {o : ο} {os : List ο} (head : M.step s o t) (tail : Exec t os u) :
      Exec s (o :: os) u

def Reachable (s : σ) : Prop := ∃ s₀ os, M.start s₀ ∧ M.Exec s₀ os s

/-- The same machine with the steps that meet a condition. -/
def restrict (C : σ → ο → Prop) : Machine σ ο where
  start := M.start
  step := fun s o t => C s o ∧ M.step s o t

/-- The machine whose steps a function computes where it has a result. -/
def ofNext (start : σ → Prop) (next : σ → ο → Option σ) : Machine σ ο where
  start := start
  step := fun s o t => next s o = some t

variable {M} {os : List ο} {s : σ} {t : σ}

theorem Exec.append {u : σ} {os' : List ο} (h : M.Exec s os t) (h' : M.Exec t os' u) :
    M.Exec s (os ++ os') u := by
  induction h with
  | nil _ => exact h'
  | cons head _ ih => exact .cons head (ih h')

theorem Exec.single {o : ο} (h : M.step s o t) : M.Exec s [o] t :=
  .cons h (.nil t)

theorem Exec.snoc {u : σ} {o : ο} (h : M.Exec s os t) (h' : M.step t o u) :
    M.Exec s (os ++ [o]) u :=
  h.append (.single h')

variable {next : σ → ο → Option σ}

theorem Exec.of_foldlM (hnext : ∀ s o t, next s o = some t → M.step s o t)
    (h : os.foldlM next s = some t) :
    M.Exec s os t := by
  induction os generalizing s with
  | nil =>
    cases h
    exact .nil _
  | cons o os ih =>
    rw [List.foldlM_cons] at h
    obtain ⟨s₁, hfirst, hrest⟩ := bind_eq_some_iff.mp h
    exact .cons (hnext s o s₁ hfirst) (ih hrest)

theorem exec_ofNext {start : σ → Prop} (h : os.foldlM next s = some t) :
    (ofNext start next).Exec s os t :=
  .of_foldlM (fun _ _ _ h => h) h

/-! A run that is computed and ends in a state with a decidable property: the three rules leave the
computation as their last hypothesis. -/

section Computed

variable {start P : σ → Prop} {next : σ → ο → Option σ} {C : σ → ο → Prop} [DecidablePred P]
  [∀ s o, Decidable (C s o)] {s : σ}

theorem exists_exec_ofNext (h : (os.foldlM next s).any (fun t => decide (P t)) = true) :
    ∃ t, (ofNext start next).Exec s os t ∧ P t := by
  obtain ⟨t, ht, hP⟩ := (any_eq_true _ _).mp h
  exact ⟨t, exec_ofNext ht, of_decide_eq_true hP⟩

theorem exists_exec_restrict_ofNext
    (h : (os.foldlM (fun s o => if C s o then next s o else none) s).any
      (fun t => decide (P t)) = true) :
    ∃ t, ((ofNext start next).restrict C).Exec s os t ∧ P t := by
  obtain ⟨t, ht, hP⟩ := (any_eq_true _ _).mp h
  refine ⟨t, .of_foldlM (fun s o t hstep => ?_) ht, of_decide_eq_true hP⟩
  exact ite_none_right_eq_some.mp hstep

theorem exists_reachable_restrict_ofNext (os : List ο) (hs : start s)
    (h : (os.foldlM (fun s o => if C s o then next s o else none) s).any
      (fun t => decide (P t)) = true) :
    ∃ t, ((ofNext start next).restrict C).Reachable t ∧ P t := by
  obtain ⟨t, hexec, hP⟩ := exists_exec_restrict_ofNext h
  exact ⟨t, ⟨s, os, hs, hexec⟩, hP⟩

end Computed

variable {P : σ → Prop}

theorem Exec.invariant (hstep : ∀ s o t, P s → M.step s o t → P t) (h : M.Exec s os t) (hs : P s) :
    P t := by
  induction h with
  | nil _ => exact hs
  | cons head _ ih => exact ih (hstep _ _ _ hs head)

theorem Reachable.start (h : M.start s) : M.Reachable s := ⟨s, [], h, .nil s⟩

theorem Reachable.exec (h : M.Reachable s) (h' : M.Exec s os t) : M.Reachable t := by
  obtain ⟨s₀, os₀, h₀, hrun⟩ := h
  exact ⟨s₀, os₀ ++ os, h₀, hrun.append h'⟩

/-- What the starting states have and every step preserves, every reachable state has. -/
theorem Reachable.invariant (hstart : ∀ s, M.start s → P s)
    (hstep : ∀ s o t, P s → M.step s o t → P t)
    (h : M.Reachable s) : P s := by
  obtain ⟨s₀, os, h₀, hrun⟩ := h
  exact hrun.invariant hstep (hstart s₀ h₀)

end Machine

end Runs

namespace Function

variable {α β : Type*} [DecidableEq α] {f : α → β} {i : α} {v : β}

/-- An entry of a table after a write is the one written or one from before. -/
@[elab_as_elim]
theorem update_cases {motive : α → β → Prop} (a : α) (self : motive i v)
    (other : ∀ a, a ≠ i → motive a (f a)) :
    motive a (update f i v a) :=
  (forall_update_iff f motive).mpr ⟨self, other⟩ a

end Function
