import Mathlib.Algebra.Group.Nat.Defs
import Mathlib.Order.Nat
import Mathlib.Tactic.Common

/-!
# Load tracking

`sched/pelt.zcomponent`: the sums of an entity decay with every millisecond that passes, so that a
contribution is half as much after 32 of them. `decay_load` takes whole halvings off with a shift
and does the rest with a factor from a table.

The factors should have 32 fractional bits. But for the first, those of the table have 60 or 64, and
so a sum that survives the shift is multiplied by more than `2 ^ 26`.
-/

namespace ZXFoundation.Sched.Pelt

def peltPeriodNs : Nat := 1_000_000

def peltHalfLife : Nat := 32

def loadAvgMax : Nat := 47742 * 1024

def decayQ32Table : List Nat :=
  [0x100000000, 0x0Fa83FF2C61FA6C9, 0x0F5257D048F8406A, 0x0EFC8B6E54DA5527, 0x0EA83A1C0B5C8C8A7,
    0x0E519193D66D53368, 0x0DFD3A11CE5A836B, 0x0DAE2B6CF3793B27, 0x0D588E68CFB9FB5A8,
      0x0D0A4E4B6E9D5B7C3,
    0x0CBCC2FA8D7F84A09, 0x0C6EF15B6B1A4DA7B, 0x0C21AF6A2E0F2A0E, 0x0BD456B53ED8D6FB5,
      0x0B86E4B8B0EE1D40F,
    0x0B37AF9D67A8B4FA0, 0x0AE14C3E9DE7E7FE3, 0x0A8C08A6E3F25B5D2, 0x0A360D5B5B7FF4ED7,
      0x09E103C6D3D5F1A02,
    0x098EE0DBE5CB9C08, 0x093B41DE29D85CD0, 0x08E6F1D2B9F6B5F5, 0x089B2C8E5B5D9C8D,
      0x085BB4E6B5EB4DAA,
    0x0808FFA6F25EF0AA, 0x07C362D0CF46FC99, 0x077D69F32E2B59ED, 0x07393C56BF30B26F,
      0x06F2F1B5ABC4C7B1,
    0x06B0842A77C5ACF9, 0x066CD0D2E5B7E4A8, 0x062A35F8B126B2C7, 0x05E785FA2DCE7DC0,
      0x05A80E18E1DD1FAC,
    0x0569C9B1F97CD9E1, 0x052B593E8B00C849, 0x04EDF8D29DAF6F0E, 0x04B07EC9F0B2440E,
    0x0473F23B5C2D80E1]

/-- The product has 128 bits. -/
def mulQ32 (a b : Nat) : Nat := a * b / 2 ^ 32 % 2 ^ 64

def yN (n : Nat) : Nat := decayQ32Table.getD n 0

def decayLoad (value periods : Nat) : Nat :=
  if value = 0 ∨ periods = 0 then value
  else if peltHalfLife * 22 ≤ periods then 0
  else if 64 ≤ periods / 32 then 0
  else
    let value := value >>> (periods / 32)
    if periods % 32 = 0 then value else mulQ32 value (yN (periods % 32))

structure SchedAvg where
  loadSum : Nat := 0
  runnableSum : Nat := 0
  utilSum : Nat := 0
  loadAvg : Nat := 0
  runnableAvg : Nat := 0
  utilAvg : Nat := 0
  periodContribNs : Nat := 0
  lastUpdateTimeNs : Nat := 0
  deriving Repr

namespace SchedAvg

variable (sa : SchedAvg)

/-- The sums after the decay; a sum whose mask is set does not decay. -/
def decayed (periods runnable running : Nat) : SchedAvg :=
  if 0 < periods then
    { sa with
      loadSum := decayLoad sa.loadSum periods
      runnableSum := if runnable = 0 then decayLoad sa.runnableSum periods else sa.runnableSum
      utilSum := if running = 0 then decayLoad sa.utilSum periods else sa.utilSum }
  else sa

/-- `accumulate_sum`, for a delta that is not zero. -/
def accumulateSum (deltaNs load runnable running : Nat) : SchedAvg :=
  let last := (sa.lastUpdateTimeNs + deltaNs) % 2 ^ 64
  if peltHalfLife * 4 * peltPeriodNs ≤ deltaNs then
    { sa with
      loadSum := load, runnableSum := runnable, utilSum := running, periodContribNs := 0,
        lastUpdateTimeNs := last }
  else
    let residual := deltaNs % peltPeriodNs
    let sa := sa.decayed (deltaNs / peltPeriodNs) runnable running
    let contribution :=
      (residual * 1024 + sa.periodContribNs * 1024 % 2 ^ 64 / peltPeriodNs) % 2 ^ 64
    let contrib := contribution * 1024 % 2 ^ 64 / 2 ^ 10 % 2 ^ 32
    { sa with
      loadSum := if load ≠ 0 then (sa.loadSum + contrib * load % 2 ^ 32) % 2 ^ 64 else sa.loadSum
      runnableSum := if runnable ≠ 0 then (sa.runnableSum + contrib) % 2 ^ 64 else sa.runnableSum
      utilSum := if running ≠ 0 then (sa.utilSum + contrib) % 2 ^ 64 else sa.utilSum
      periodContribNs := residual, lastUpdateTimeNs := last }

def updateLoadAvg (weight : Nat) : SchedAvg :=
  let loadSum := min sa.loadSum loadAvgMax
  let runnableSum := min sa.runnableSum loadAvgMax
  let utilSum := min sa.utilSum loadAvgMax
  let w := if weight = 0 then 1024 else weight
  { sa with
    loadSum, runnableSum, utilSum
    loadAvg := loadSum * w / loadAvgMax, runnableAvg := runnableSum / loadAvgMax,
      utilAvg := utilSum / loadAvgMax }

def updateEntityLoadAvg (nowNs weight runnable running : Nat) : SchedAvg :=
  let deltaNs := nowNs - sa.lastUpdateTimeNs
  let weight := if weight = 0 then 1024 else weight
  if deltaNs = 0 then sa
    else (sa.accumulateSum deltaNs weight runnable running).updateLoadAvg weight

end SchedAvg

/-! ## The law of decay -/

variable {v n : Nat}

/-- What is asked of the decay of a sum over a number of periods, and of the update of an entity
after them. -/
structure Decays (v n : Nat) : Prop where
  le : decayLoad v n ≤ v
  antitone : ∀ m, n ≤ m → decayLoad v m ≤ decayLoad v n
  half : decayLoad v (n + 32) ≤ decayLoad v n / 2 + 1 ∧ decayLoad v n / 2 ≤ decayLoad v (n + 32) + 1
  idle : ∀ (sa : SchedAvg) (nowNs weight : Nat), (nowNs - sa.lastUpdateTimeNs) / peltPeriodNs = n →
    (sa.runnableSum = v → (sa.updateEntityLoadAvg nowNs weight 0 0).runnableSum ≤ v) ∧
      (sa.utilSum = v → (sa.updateEntityLoadAvg nowNs weight 0 0).utilSum ≤ v)

/-- Nothing is left of the sum: by the bound on the periods or by the shift. -/
def Gone (v n : Nat) : Prop := 704 ≤ n ∨ v < 2 ^ (n / 32)

theorem Gone.mono {m : Nat} (h : Gone v n) (hm : n ≤ m) : Gone v m :=
  h.imp (Nat.le_trans · hm)
    (Nat.lt_of_lt_of_le · (Nat.pow_le_pow_right (by decide) (Nat.div_le_div_right hm)))

theorem decayLoad_of_gone (h : Gone v n) : decayLoad v n = 0 := by
  unfold decayLoad
  by_cases hv : v = 0
  · simp [hv]
  have hn : n ≠ 0 := by
    rintro rfl
    obtain h | h := h
    · omega
    · exact hv (by simpa using h)
  rw [if_neg (by simp [hv, hn])]
  split
  · rfl
  next hlt =>
    have hshift : v >>> (n / 32) = 0 := by
      rw [Nat.shiftRight_eq_div_pow]
      exact Nat.div_eq_of_lt (h.resolve_left hlt)
    simp [hshift, mulQ32]

theorem yN_bounds : ∀ d < 32, d ≠ 0 → 2 ^ 58 ≤ yN d ∧ yN d < 2 ^ 64 := by decide

/-- **What the shift leaves is multiplied instead of decayed.** -/
theorem lt_decayLoad (hv : v ≤ loadAvgMax) (hd : n % 32 ≠ 0) (h : ¬ Gone v n) :
    v < decayLoad v n := by
  simp only [Gone, not_or, Nat.not_le, Nat.not_lt] at h
  obtain ⟨hlt, hpow⟩ := h
  have hpos : 0 < 2 ^ (n / 32) := Nat.two_pow_pos _
  have hpow21 : 2 ^ (n / 32) ≤ 2 ^ 21 := Nat.pow_le_pow_right (by decide) (by omega)
  have hself := Nat.div_add_mod v (2 ^ (n / 32))
  have hmod := Nat.mod_lt v hpos
  have hone : 1 ≤ v / 2 ^ (n / 32) := Nat.div_pos hpow hpos
  have hmax : v / 2 ^ (n / 32) ≤ loadAvgMax := (Nat.div_le_self ..).trans hv
  obtain ⟨hlow, hhigh⟩ := yN_bounds _ (Nat.mod_lt n (by decide)) hd
  rw [decayLoad, if_neg (by omega), if_neg (by unfold peltHalfLife; omega), if_neg (by omega)]
  simp only [if_neg hd, mulQ32, Nat.shiftRight_eq_div_pow]
  generalize v / 2 ^ (n / 32) = w at hself hone hmax ⊢
  generalize yN (n % 32) = y at hlow hhigh ⊢
  have hup : w * y < loadAvgMax * 2 ^ 64 + 1 := Nat.lt_succ_of_le (Nat.mul_le_mul hmax hhigh.le)
  have hdown : w * 2 ^ 58 ≤ w * y := Nat.mul_le_mul_left w hlow
  have hbelow : 2 ^ (n / 32) * w ≤ 2 ^ 21 * w := Nat.mul_le_mul_right w hpow21
  unfold loadAvgMax at hup
  rw [Nat.mod_eq_of_lt (by omega)]
  omega

/-- **A sum decays as it should exactly when nothing is left of it.** -/
theorem decays_iff (hv : v ≤ loadAvgMax) : Decays v n ↔ 704 ≤ n ∨ v < 2 ^ (n / 32) := by
  change _ ↔ Gone v n
  constructor
  · intro h
    by_contra hgone
    by_cases hd : n % 32 = 0
    · -- nothing is multiplied at whole half-lives, but one period later
      have hnext : ¬ Gone v (n + 1) := by
        simp only [Gone, not_or] at hgone ⊢
        rw [show (n + 1) / 32 = n / 32 by omega]
        omega
      exact absurd ((h.antitone _ n.le_succ).trans h.le)
        (Nat.not_le.mpr (lt_decayLoad hv (by omega) hnext))
    · exact absurd h.le (Nat.not_le.mpr (lt_decayLoad hv hd hgone))
  · intro h
    have hzero : ∀ m, n ≤ m → decayLoad v m = 0 := fun m hm => decayLoad_of_gone (h.mono hm)
    refine ⟨by simp [hzero n le_rfl], fun m hm => by simp [hzero m hm], by simp [hzero],
      fun sa nowNs weight hn => ?_⟩
    have hsum : ∀ sum, sum = v → (if 0 < n then decayLoad sum n else sum) ≤ v := by
      rintro sum rfl
      split
      · simp [hzero n le_rfl]
      · exact le_rfl
    unfold SchedAvg.updateEntityLoadAvg SchedAvg.updateLoadAvg SchedAvg.accumulateSum
      SchedAvg.decayed
    dsimp only
    rw [hn]
    split
    · exact ⟨le_of_eq, le_of_eq⟩
    split
    · simp
    · refine ⟨fun heq => (Nat.min_le_left ..).trans ?_, fun heq => (Nat.min_le_left ..).trans ?_⟩
        <;>
        simpa [apply_ite] using hsum _ heq

theorem decays_iff_shifted_out : Decays 1000 320 ↔ 704 ≤ 320 ∨ 1000 < 2 ^ (320 / 32) :=
  decays_iff (by decide)

theorem not_decays_one : ¬ Decays 1 1 := fun h => absurd h.le (by decide)

end ZXFoundation.Sched.Pelt
