import Mathlib.Algebra.BigOperators.Group.List.Basic
import Mathlib.Algebra.GroupWithZero.Nat

/-!
# Totals over a list of accounts

A ledger keeps an amount for each of finitely many accounts, and somebody keeps the total. The
accounts are a list without repetitions whose order does not matter. One lemma for each way in which
the ledger is edited says what the edit does to the total: an account changes its amount, is opened,
or is closed.
-/

namespace Ledger

variable {α : Type*} {l l' : List α} {f g : α → Nat} {a b : α}

/-- The sum of the amounts `f` over the accounts `l`. -/
def total (f : α → Nat) (l : List α) : Nat := (l.map f).sum

theorem total_cons : total f (a :: l) = f a + total f l := by
  simp [total]

theorem total_congr (h : ∀ b ∈ l, g b = f b) : total g l = total f l := by
  rw [total, total, List.map_congr_left h]

theorem total_perm (h : l'.Perm l) : total f l' = total f l := (h.map f).sum_eq

/-- An account is opened. -/
theorem total_open (hp : l'.Perm (b :: l)) (h : ∀ c ∈ l, g c = f c) :
    total g l' = total f l + g b := by
  rw [total_perm hp, total_cons, total_congr h, Nat.add_comm]

/-- An account is closed. -/
theorem total_close (hp : l.Perm (b :: l')) (h : ∀ c ∈ l', g c = f c) :
    total g l' + f b = total f l := by
  rw [total_perm hp, total_cons, total_congr h, Nat.add_comm]

/-- One account changes its amount. -/
theorem total_edit (hp : l'.Perm l) (hl : l.Nodup) (ha : a ∈ l) (h : ∀ c ∈ l, c ≠ a → g c = f c) :
    total g l' + f a = total f l + g a := by
  classical
  have herase := List.perm_cons_erase ha
  have hrest : ∀ c ∈ l.erase a, g c = f c := by
    intro c hc
    obtain ⟨hca, hc⟩ := hl.mem_erase_iff.mp hc
    exact h c hc hca
  rw [total_perm (hp.trans herase), total_perm herase, total_cons, total_cons, total_congr hrest]
  omega

end Ledger
