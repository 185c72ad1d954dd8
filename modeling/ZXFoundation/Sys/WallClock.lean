import Mathlib.Data.Nat.GCD.Basic
import Mathlib.Tactic.NormNum.GCD

/-!
# The wall clock

`sys/time.zcomponent/core.cxx`: the wall clock is the TOD clock, in nanoseconds, plus an offset.
`set_realtime` chooses the offset for the time of the call, and the tick callback of `sched_init`
adds the length of a tick to it. Since the TOD clock runs by itself, a tick is counted twice.

A call is one step; the critical section of the seqlock is not split.
-/

namespace ZXFoundation.Sys.Time

def wrap (ns : Nat) : Nat := ns % 2 ^ 64

theorem wrap_add (ns : Nat) : ∃ q, wrap ns + 2 ^ 64 * q = ns := ⟨_, Nat.mod_add_div ..⟩

def tickIntervalNs : Nat := 10_000_000

/-- `duration::from_tod`; the product has 128 bits. -/
def fromTod (tod : Nat) : Nat := wrap (tod * 125 / 2 ^ 9)

/-- `g_wall_offset` and `g_tick`. -/
structure Clock where
  wallOffset : Nat := 0
  tick : Nat := 0
  deriving Repr

namespace Clock

def realtimeNow (c : Clock) (tod : Nat) : Nat := wrap (fromTod tod + c.wallOffset)

def setRealtime (c : Clock) (now tod : Nat) :
    Clock := { c with wallOffset := wrap (now + 2 ^ 64 - fromTod tod) }

/-- `tick_advance_wall`. The source reads the offset and writes the sum in two sections of the
seqlock; they are one step here, so a `set_realtime` in between is left out. -/
def tickAdvanceWall (c : Clock) (tickNs : Nat) : Clock :=
  { wallOffset := wrap (c.wallOffset + tickNs), tick := wrap (c.tick + 1) }

/-- What may happen while the clock is not set: a tick, and a look at the clock. -/
inductive Call where
  | tick
  | realtimeNow (tod : Nat)

def run (c : Clock) : Call → Clock
  | .tick => c.tickAdvanceWall tickIntervalNs
  | .realtimeNow _ => c

def ticks : List Call → Nat
  | [] => 0
  | .tick :: calls => ticks calls + 1
  | .realtimeNow _ :: calls => ticks calls

theorem wallOffset_foldl {c : Clock} {calls : List Call} :
    ∃ q, (calls.foldl run c).wallOffset + 2 ^ 64 * q =
      c.wallOffset + ticks calls * tickIntervalNs := by
  induction calls generalizing c with
  | nil => exact ⟨0, by simp [ticks]⟩
  | cons call calls ih =>
    cases call with
    | realtimeNow tod => exact ih
    | tick =>
      obtain ⟨q, hq⟩ := ih (c := c.tickAdvanceWall tickIntervalNs)
      obtain ⟨r, hr⟩ := wrap_add (c.wallOffset + tickIntervalNs)
      refine ⟨q + r, ?_⟩
      simp only [tickAdvanceWall, tickIntervalNs] at hq hr
      simp only [List.foldl_cons, run, ticks, tickAdvanceWall, tickIntervalNs]
      omega

/-- The same number of 64 bits, up to one unit. -/
def Near (a b : Nat) : Prop := a = wrap b ∨ a = wrap (b + 1) ∨ wrap (a + 1) = wrap b

theorem near_wrap_add {y n : Nat} :
    Near (wrap (y + n)) y ↔ n % 2 ^ 64 = 0 ∨ n % 2 ^ 64 = 1 ∨ n % 2 ^ 64 = 2 ^ 64 - 1 := by
  unfold Near wrap
  omega

theorem fromTod_sub {t₀ t₁ : Nat} (ht : t₀ ≤ t₁) (hlt : t₁ < 2 ^ 64) :
    ∃ r ≤ 1, fromTod t₁ = fromTod t₀ + fromTod (t₁ - t₀) + r := by
  have hns : ∀ t < 2 ^ 64, fromTod t = t * 125 / 512 := fun t h => Nat.mod_eq_of_lt (by omega)
  rw [hns _ hlt, hns t₀ (by omega), hns _ (by omega)]
  exact ⟨t₁ * 125 / 512 - t₀ * 125 / 512 - (t₁ - t₀) * 125 / 512, by omega, by omega⟩

/-- The length of a tick is 128 times an odd number. -/
theorem pow_dvd_ticks_iff {n : Nat} : 2 ^ 64 ∣ n * tickIntervalNs ↔ 2 ^ 57 ∣ n := by
  have hcop : Nat.Coprime (2 ^ 57) 78125 := by norm_num
  rw [show tickIntervalNs = 78125 * 128 from rfl, ← Nat.mul_assoc, show 2 ^ 64 = 2 ^ 57 * 128 from
    rfl,
    Nat.mul_dvd_mul_iff_right (by decide), hcop.dvd_mul_right]

/-- **A reading is right exactly when the ticks since the setting add up to nothing in 64 bits.** -/
theorem realtimeNow_near_iff {c : Clock} {x t₀ t₁ : Nat} {calls : List Call} (ht : t₀ ≤ t₁)
    (hlt : t₁ < 2 ^ 64) :
    Near ((calls.foldl run (c.setRealtime x t₀)).realtimeNow t₁) (x + fromTod (t₁ - t₀)) ↔
      2 ^ 57 ∣ ticks calls := by
  obtain ⟨q, hq⟩ := @wallOffset_foldl (c.setRealtime x t₀) calls
  obtain ⟨r, hr, hns⟩ := fromTod_sub ht hlt
  have hle : fromTod t₀ < 2 ^ 64 := Nat.mod_lt _ (by decide)
  have hreading : (calls.foldl run (c.setRealtime x t₀)).realtimeNow t₁ =
      wrap (x + fromTod (t₁ - t₀) + (r + ticks calls * tickIntervalNs)) := by
    obtain ⟨p, hp⟩ := wrap_add (x + 2 ^ 64 - fromTod t₀)
    simp only [setRealtime] at hq
    unfold realtimeNow wrap
    simp only [setRealtime]
    omega
  rw [hreading, near_wrap_add, ← pow_dvd_ticks_iff, Nat.dvd_iff_mod_eq_zero]
  -- a multiple of 128 that is near nothing is nothing
  have h128 : ticks calls * tickIntervalNs % 2 ^ 64 % 128 = 0 := by
    rw [Nat.mod_mod_of_dvd _ (by decide), tickIntervalNs]
    omega
  generalize ticks calls * tickIntervalNs = n at h128 ⊢
  omega

theorem realtimeNow_near_unticked :
    Near (([.realtimeNow 100].foldl run (({} : Clock).setRealtime 5 1)).realtimeNow 4096)
      (5 + fromTod (4096 - 1)) ↔
      2 ^ 57 ∣ ticks [.realtimeNow 100] :=
  realtimeNow_near_iff (by decide) (by decide)

/-- **One tick after the clock was set, it has gone forward by two ticks.** -/
theorem realtimeNow_after_tick :
    ¬ Near (([Call.tick].foldl run (({} : Clock).setRealtime 0 0)).realtimeNow 40_960_000)
      (0 + fromTod (40_960_000 - 0)) := by
  unfold Near
  decide

end Clock

end ZXFoundation.Sys.Time
