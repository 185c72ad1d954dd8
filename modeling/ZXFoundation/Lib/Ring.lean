import Mathlib.Data.Nat.ModEq

/-!
# Ring buffers

A bounded queue in a circular buffer of `N` slots that keeps three redundant cursors: the slot of
the oldest entry, the slot the next entry goes to, and the number of entries. `Holds` says that the
cursors are in step and that the slots from the head on hold a list; the lemmas say what the usual
operations on the buffer do to that list.

`shiftDown` is the loop that closes a gap in the middle by moving the younger entries up one slot.
-/

namespace Ring

open Function

variable {α : Type} {N : Nat}

/-- The slot `i` places behind `head`. -/
def slot (N head i : Nat) : Nat := (head + i) % N

theorem slot_zero {head : Nat} (h : head < N) : slot N head 0 = head :=
  Nat.mod_eq_of_lt h

theorem slot_slot (head i j : Nat) : slot N (slot N head i) j = slot N head (i + j) := by
  unfold slot
  rw [Nat.mod_add_mod, Nat.add_assoc]

theorem slot_lt (hN : 0 < N) (head i : Nat) : slot N head i < N :=
  Nat.mod_lt _ hN

theorem slot_inj {head i j : Nat} (hi : i < N) (hj : j < N) (h : slot N head i = slot N head j) :
    i = j := by
  have hmod : i ≡ j [MOD N] := Nat.ModEq.add_left_cancel' head h
  exact Nat.ModEq.eq_of_lt_of_lt hmod hi hj

theorem slot_succ_ne (hN : 1 < N) {head i : Nat} : slot N head (i + 1) ≠ slot N head i := by
  intro heq
  rw [← slot_slot, ← slot_zero (slot_lt (by omega) head i), slot_slot] at heq
  exact absurd (slot_inj hN (by omega) heq) (by omega)

/-- The cursors are in step, and the buffer holds the list from `head` on. -/
structure Holds (N : Nat) (buf : Nat → α) (head tail count : Nat) (l : List α) : Prop where
  head_lt : head < N
  length_le : l.length ≤ N
  count_eq : count = l.length
  tail_eq : tail = slot N head count
  entry : ∀ i (h : i < l.length), buf (slot N head i) = l[i]

section Queue

variable {buf buf' : Nat → α} {head tail count : Nat} {l : List α} {e : α}

theorem holds_nil (hN : 0 < N) : Holds N buf 0 0 0 [] :=
  ⟨hN, Nat.zero_le _, rfl, (slot_zero hN).symm, fun _ h => absurd h (Nat.not_lt_zero _)⟩

theorem Holds.front (h : Holds N buf head tail count (e :: l)) : buf head = e := by
  have hentry := h.entry 0 (Nat.succ_pos _)
  rwa [slot_zero h.head_lt] at hentry

theorem Holds.push (h : Holds N buf head tail count l) (hroom : l.length < N) :
    Holds N (update buf tail e) head (slot N tail 1) (count + 1) (l ++ [e]) := by
  refine ⟨h.head_lt, ?_, ?_, ?_, fun i hi => ?_⟩
  · rw [List.length_append]
    exact hroom
  · rw [h.count_eq, List.length_append]
    rfl
  · rw [h.tail_eq, slot_slot]
  have htail : tail = slot N head l.length := by rw [h.tail_eq, h.count_eq]
  rw [List.length_append, List.length_singleton] at hi
  rcases Nat.lt_or_eq_of_le (Nat.le_of_lt_succ hi) with hold | rfl
  · -- the slot written to is none of the occupied ones
    have hne : slot N head i ≠ tail := by
      intro heq
      have := slot_inj (by omega) hroom (heq.trans htail)
      omega
    rw [update_of_ne hne, h.entry i hold, List.getElem_append_left hold]
  · rw [← htail, update_self, List.getElem_concat_length rfl]

theorem Holds.pop (h : Holds N buf head tail count (e :: l))
    (hkeep : ∀ j, j ≠ head → buf' j = buf j) : Holds N buf' (slot N head 1) tail (count - 1) l := by
  have hcount : count = l.length + 1 := h.count_eq
  have hlen : l.length + 1 ≤ N := h.length_le
  refine ⟨slot_lt (by omega) _ _, by omega, by omega, ?_, fun i hi => ?_⟩
  · rw [slot_slot, h.tail_eq]
    congr 1
    omega
  have hne : slot N head (1 + i) ≠ head := by
    intro heq
    rw [← slot_zero h.head_lt, slot_slot] at heq
    have := slot_inj (by omega) (by omega) heq
    omega
  rw [slot_slot, hkeep _ hne, Nat.add_comm 1 i, h.entry (i + 1) (Nat.succ_lt_succ hi)]
  rfl

end Queue

/-! ## Closing a gap -/

/-- Copy the next slot into slot `j`, then go on with the next one, until `last` is reached. -/
def shiftDown (N last : Nat) : Nat → (Nat → α) → Nat → (Nat → α)
  | 0, buf, _ => buf
  | fuel + 1, buf, j =>
    if j = last then buf
    else shiftDown N last fuel (update buf j (buf (slot N j 1))) (slot N j 1)

theorem shiftDown_slot {head k : Nat} :
    ∀ {fuel i m : Nat} (buf : Nat → α), k < fuel → i + k < N → m < N →
    shiftDown N (slot N head (i + k)) fuel buf (slot N head i) (slot N head m) =
      if i ≤ m ∧ m < i + k then buf (slot N head (m + 1)) else buf (slot N head m) := by
  induction k with
  | zero =>
    intro fuel i m buf hfuel _ _
    obtain ⟨fuel, rfl⟩ := Nat.exists_eq_succ_of_ne_zero (show fuel ≠ 0 by omega)
    rw [if_neg (by omega)]
    simp [shiftDown]
  | succ k ih =>
    intro fuel i m buf hfuel hik hm
    obtain ⟨fuel, rfl⟩ := Nat.exists_eq_succ_of_ne_zero (show fuel ≠ 0 by omega)
    have hne : slot N head i ≠ slot N head (i + (k + 1)) := by
      intro heq
      have := slot_inj (by omega) hik heq
      omega
    rw [shiftDown, if_neg hne, slot_slot, show i + (k + 1) = i + 1 + k by omega,
      ih _ (by omega) (by omega) hm]
    -- the one slot written before the rest of the loop is place `i`
    have hother : ∀ p, p < N → p ≠ i → ∀ v,
        update buf (slot N head i) v (slot N head p) = buf (slot N head p) := by
      intro p hp hpi v
      exact update_of_ne (fun heq => hpi (slot_inj hp (by omega) heq)) ..
    by_cases hmi : m = i
    · subst hmi
      rw [if_neg (by omega), if_pos (by omega), update_self]
    rw [hother m hm hmi]
    by_cases hin : i + 1 ≤ m ∧ m < i + 1 + k
    · rw [if_pos hin, if_pos (by omega), hother (m + 1) (by omega) (by omega)]
    · rw [if_neg hin, if_neg (by omega)]

/-- An entry is taken out of the middle. The tail has to come back by one slot. -/
theorem Holds.remove {buf : Nat → α} {head tail count : Nat} {l : List α}
    (h : Holds N buf head tail count l) {i : Nat} (hi : i < l.length) {fuel : Nat}
    (hfuel : N ≤ fuel)
    {v : α} :
    Holds N
      (update (shiftDown N (slot N head (count - 1)) fuel buf (slot N head i))
        (slot N head (count - 1)) v)
      head (slot N head (count - 1)) (count - 1) (l.eraseIdx i) := by
  have hcount := h.count_eq
  have hle := h.length_le
  have hlen : (l.eraseIdx i).length = l.length - 1 := List.length_eraseIdx_of_lt hi
  refine ⟨h.head_lt, by omega, by omega, rfl, fun m hm => ?_⟩
  have hne : slot N head m ≠ slot N head (count - 1) := by
    intro heq
    have := slot_inj (by omega) (by omega) heq
    omega
  have hlast : count - 1 = i + (count - 1 - i) := by omega
  have hm' : m + 1 < l.length := by omega
  rw [update_of_ne hne, hlast,
    shiftDown_slot buf (show count - 1 - i < fuel by omega) (by omega) (by omega),
    List.getElem_eraseIdx]
  by_cases hmi : m < i
  · rw [if_neg (by omega), dif_pos hmi, h.entry m]
  · rw [if_pos (by omega), dif_neg hmi, h.entry (m + 1) hm']

end Ring
