import Mathlib.Algebra.BigOperators.Group.Finset.Basic

/-!
# Counting array cells

An array is a function from indices to cells. `tally S p f` counts the cells of `f` at the
indices `S` that satisfy `p`. Every operation on such an array writes one cell at a time, so
`tally_update` (one write moves the count by the difference between the new and the old cell)
is the only counting argument the users need.
-/

namespace Tally

open Function Finset

variable {ι α : Type*}

/-- The number of indices in `S` whose cell satisfies `p`. -/
def tally (S : Finset ι) (p : α → Prop) [DecidablePred p] (f : ι → α) : Nat :=
  (S.filter fun i => p (f i)).card

variable {S : Finset ι} {p : α → Prop} {f : ι → α}

theorem tally_congr {q : α → Prop} [DecidablePred p] [DecidablePred q] {g : ι → α}
    (h : ∀ i ∈ S, p (f i) ↔ q (g i)) : tally S p f = tally S q g := by
  unfold tally
  rw [filter_congr h]

theorem tally_le_card (S : Finset ι) (p : α → Prop) [DecidablePred p] (f : ι → α) :
    tally S p f ≤ S.card :=
  card_filter_le _ _

theorem tally_eq_zero [DecidablePred p] : tally S p f = 0 ↔ ∀ i ∈ S, ¬ p (f i) := by
  simp [tally, filter_eq_empty_iff]

variable {i : ι}

theorem tally_pos [DecidablePred p] (hi : i ∈ S) (hp : p (f i)) : 0 < tally S p f :=
  card_pos.mpr ⟨i, by simp [hi, hp]⟩

section Update

variable [DecidableEq ι]

theorem tally_insert [DecidablePred p] (hi : i ∉ S) :
    tally (insert i S) p f = tally S p f + if p (f i) then 1 else 0 := by
  unfold tally
  rw [filter_insert]
  split
  · rw [card_insert_of_notMem (by simp [hi])]
  · rfl

theorem tally_update_of_notMem (p : α → Prop) [DecidablePred p] (f : ι → α) (hi : i ∉ S) (v : α) :
    tally S p (update f i v) = tally S p f := by
  refine tally_congr fun j hj => ?_
  have hji : j ≠ i := fun h => hi (h ▸ hj)
  rw [update_of_ne hji]

/-- One write moves the count by the difference between the new and the old cell. -/
theorem tally_update (p : α → Prop) [DecidablePred p] (f : ι → α) (hi : i ∈ S) (v : α) :
    tally S p (update f i v) + (if p (f i) then 1 else 0) = tally S p f + (if p v then 1
      else 0) := by
  obtain ⟨T, hT, rfl⟩ : ∃ T, i ∉ T ∧ insert i T = S :=
    ⟨S.erase i, notMem_erase i S, insert_erase hi⟩
  rw [tally_insert hT, tally_insert hT, tally_update_of_notMem p f hT, update_self]
  omega

/-- A write that `p` does not notice. -/
theorem tally_update_same [DecidablePred p] {v : α} (h : p v ↔ p (f i)) :
    tally S p (update f i v) = tally S p f := by
  refine tally_congr fun j _ => ?_
  by_cases hji : j = i
  · rw [hji, update_self]
    exact h
  · rw [update_of_ne hji]

end Update

end Tally
