import ZXFoundation.Scoms.Machine

/-!
# The effect of revocation on the slots

`cap_release`, `cap_revoke`, `cap_revoke_for_domain` and `cap_revoke_target` all vacate a set of
active slots and leave the others alone. `Revoked` says so for a given set. For the two loops the
set is fixed when the loop starts: vacating a slot can reclaim its target, but not the target of a
slot that is still to be looked at.
-/

namespace ZXFoundation.Scoms

open Outcome Dgp.Cap Function

variable {cfg : Config} {w w' w'' : World} {x : Addr → Nat}

/-- The selected slots were vacated, once each, and nothing else changed but reference counts and
reclaimed objects. -/
structure Revoked (sel : Nat → Bool) (w w' : World) : Prop where
  step : SlotStep w w'
  slots : ∀ j, w'.capSlots j = if sel j then World.vacatedSlot (w.capSlots j) else w.capSlots j
  vacated : ∀ j, w'.vacated j = if sel j then w.vacated j + 1 else w.vacated j

theorem Revoked.none : Revoked (fun _ => false) w w :=
  ⟨.refl, fun _ => rfl, fun _ => rfl⟩

theorem revoked_vacateSlot {caps : Nat → CapabilitySlot} (hcaps : w.caps = some caps) {i : Nat}
    (hput : RefStep (w.vacateSlot caps i) w') : Revoked (· == i) w w' := by
  have hslots : w.capSlots = caps := capSlots_of_some hcaps
  refine ⟨SlotStep.setCaps.trans hput.quiet.toSlotStep, fun j => ?_, fun j => ?_⟩
  · have hcaps' : w'.capSlots = update caps i (World.vacatedSlot (caps i)) :=
      capSlots_of_some hput.caps
    rw [hcaps', hslots, update_apply]
    by_cases hj : j = i
    · simp [hj]
    · simp [hj]
  · rw [hput.vacated]
    change update w.vacated i _ j = _
    rw [update_apply]
    by_cases hj : j = i
    · simp [hj]
    · simp [hj]

theorem WF.target_live (h : WF cfg w x) {i : Nat} (hact : (w.capSlots i).active = true) :
    i < maxCapabilities ∧ ∃ a al, (w.capSlots i).target = some a ∧ w.allocation a = some al := by
  cases hcaps : w.caps with
  | none =>
    rw [World.capSlots, hcaps] at hact
    cases hact
  | some caps =>
    rw [capSlots_of_some hcaps] at hact ⊢
    obtain ⟨hi, a, ha⟩ := h.caps hcaps hact
    refine ⟨hi, a, ?_⟩
    cases hal : w.allocation a with
    | some al => exact ⟨al, ha, rfl⟩
    | none =>
    -- the slot is one of the references that storage without an object does not have
    have hzero := h.refs.dead hal
    have hpos := Tally.tally_pos (p := SlotNames a) (f := w.capSlots)
      (Finset.mem_range.mpr hi) (by rw [capSlots_of_some hcaps]; exact ⟨hact, ha⟩)
    rw [← capReferences_eq] at hpos
    unfold World.references at hzero
    omega

theorem vacateToken_outcome (h : WF cfg w x) {token : CapToken} :
    Post Trap.IsBenign (fun r => (∃ e, r = (.error e, w)) ∨
      ∃ i s, w.slotFor token = some (i, s) ∧ r.1 = .ok () ∧ Revoked (· == i) w r.2)
      (w.vacateToken cfg token) := by
  unfold World.vacateToken
  split_ifs
  · exact .inl ⟨_, rfl⟩
  split
  · next caps i s hcaps hslot =>
    split
    · trivial
    next a ha =>
    obtain ⟨caps', hcaps', -, rfl, -, -, hact, -⟩ := slotFor_eq_some hslot
    obtain rfl : caps' = caps := Option.some.inj (hcaps'.symm.trans hcaps)
    have hvac := h.vacateSlot hcaps hact
    rw [ha] at hvac
    exact hvac.put.with_eq.bind fun w' hw' =>
      .inr ⟨i, _, hslot, rfl, revoked_vacateSlot hcaps (refStep_put hw'.2)⟩
  · exact .inl ⟨_, rfl⟩

/-! ## The loops -/

/-- What a loop over the slots `i, …, i + fuel - 1` selects. -/
def selected (select : World → CapabilitySlot → Bool) (w : World) (i fuel j : Nat) : Bool :=
  decide (i ≤ j ∧ j < i + fuel) && (w.capSlots j).active && select w (w.capSlots j)

/-- The selection of a slot does not depend on what happens to other slots. -/
def Stable (cfg : Config) (x : Addr → Nat) (select : World → CapabilitySlot → Bool) : Prop :=
  ∀ {w w' : World} {j}, WF cfg w x → WF cfg w' x → SlotStep w w' → w'.capSlots j = w.capSlots j →
    (w.capSlots j).active = true → select w' (w.capSlots j) = select w (w.capSlots j)

theorem revokeLoop_outcome {select : World → CapabilitySlot → Bool} (hstable : Stable cfg x select)
    {fuel : Nat} : ∀ (i n : Nat) {w : World}, WF cfg w x →
      Post Trap.IsBenign (fun r => WF cfg r.2 x ∧ Revoked (selected select w i fuel) w r.2)
        (World.revokeLoop cfg select fuel i n w) := by
  induction fuel with
  | zero =>
    intro i n w h
    refine ⟨h, .refl, fun j => ?_, fun j => ?_⟩ <;>
    · have hout : selected select w i 0 j = false := by
        simp [selected]
      rw [hout]
      rfl
  | succ fuel ih =>
    intro i n w h
    rw [World.revokeLoop]
    split
    · trivial
    next caps hcaps =>
    have hslots : w.capSlots = caps := capSlots_of_some hcaps
    split_ifs with hsel
    · -- slot `i` is vacated, the later rounds see the other slots as they were
      simp only [Bool.and_eq_true] at hsel
      refine ((h.vacateSlot hcaps hsel.1).putPtr.with_eq).bind fun w₁ hw₁ => ?_
      obtain ⟨h₁, hput⟩ := hw₁
      have hfirst : Revoked (· == i) w w₁ := revoked_vacateSlot hcaps (refStep_putPtr hput)
      refine (ih (i + 1) (n + 1) h₁).mono fun r hr => ⟨hr.1, ?_⟩
      have hrest := hr.2
      have hother : ∀ j, j ≠ i → w₁.capSlots j = w.capSlots j ∧ w₁.vacated j = w.vacated j := by
        intro j hj
        rw [hfirst.slots, hfirst.vacated]
        simp [hj]
      have hagree : ∀ j, j ≠ i →
          selected select w₁ (i + 1) fuel j = selected select w i (fuel + 1) j := by
        intro j hj
        have hsame := (hother j hj).1
        unfold selected
        rw [hsame]
        cases hact : (w.capSlots j).active with
        | false => simp
        | true =>
          rw [hstable h h₁ hfirst.step hsame hact]
          congr 2
          rw [decide_eq_decide]
          omega
      have hself : selected select w₁ (i + 1) fuel i = false := by
        simp [selected]
      have hhead : selected select w i (fuel + 1) i = true := by
        simp [selected, hslots, hsel.1, hsel.2]
      refine ⟨hfirst.step.trans hrest.step, fun j => ?_, fun j => ?_⟩
      · rw [hrest.slots]
        by_cases hj : j = i
        · subst hj
          rw [hself, hhead, hfirst.slots]
          simp
        · rw [hagree j hj, (hother j hj).1]
      · rw [hrest.vacated]
        by_cases hj : j = i
        · subst hj
          rw [hself, hhead, hfirst.vacated]
          simp
        · rw [hagree j hj, (hother j hj).2]
    · refine (ih (i + 1) n h).mono fun r hr => ⟨hr.1, ?_⟩
      have hagree : selected select w (i + 1) fuel = selected select w i (fuel + 1) := by
        funext j
        by_cases hj : j = i
        · subst hj
          have hno : ((w.capSlots j).active && select w (w.capSlots j)) = false := by
            rw [hslots]
            simpa using hsel
          simp only [selected, Bool.and_assoc, hno, Bool.and_false]
        · unfold selected
          congr 2
          rw [decide_eq_decide]
          omega
      rw [← hagree]
      exact hr.2

end ZXFoundation.Scoms
