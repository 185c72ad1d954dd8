import ZXFoundation.Lib.Locking
import ZXFoundation.Sched.Core

/-!
# The run-queue locks on the path through the steal

`schedule` takes the local run-queue lock, calls `try_steal_strand_locked` when it finds nothing to
run, and goes on under the assumption that the lock is still held. The callee orders the two locks
by CPU id, takes the second and gives both back:

* with the local id the smaller, it returns with the local lock given back;
* with the local id the larger, the second lock is the local one, which the CPU holds.

So the discipline holds on a path exactly when the scan finds no CPU to steal from.
-/

namespace ZXFoundation.Sched

open Locking

variable (S : System) (cpu : CpuId)

/-- The lock events of `try_steal_strand_locked`, entered with the local lock held. -/
def stealEvents : Option CpuId → List (Event CpuId)
  | none => [.access cpu]
  | some b =>
    -- `first` and `second` of the source
    let first := if cpu < b then cpu else b
    let second := if cpu < b then b else cpu
    let unlockBoth := if second ≠ first then [.release first, .release second] else [.release first]
    -- the topology record is refreshed from the local counter before the scan
    [.access cpu, .acquire second, .access b] ++
      (if !S.online b || decide ((S.rq b).nrRunning ≤ 1) then unlockBoth
       else [.access b, .access cpu, .access b] ++ unlockBoth)

/-- The lock events of `schedule` after the steal: the stolen strand is queued and the queue asked
again. -/
def afterStealEvents : Option CpuId → List (Event CpuId)
  | none => []
  | some b =>
    match trySteal S cpu b with
    | (_, none) => []
    | (S, some s) =>
      match Classed.enqueue S cpu s with
      | .error _ => [.access cpu]
      | .ok _ => [.access cpu, .access cpu]

/-- Whether `schedule` asks for a steal, and the state in which it does. -/
def stealState : Option System :=
  match requeuePrev S cpu with
  | .error _ => none
  | .ok S' => if (selectWork S' cpu).isNone && S'.initialized then some S' else none

variable (busiest : Option CpuId)

/-- The lock events of `schedule` up to the switch. The exits through `syschk_fatal` give the lock
back as well. -/
def scheduleEvents : List (Event CpuId) :=
  [.acquire cpu, .access cpu] ++
    (match stealState S cpu with
     | none => []
     | some S' => stealEvents S' cpu busiest ++ afterStealEvents S' cpu busiest) ++
    [.access cpu, .release cpu]

/-- What the path keeps to: the discipline from no lock held, and a steal that returns with the
locks it was entered with. -/
def LockDiscipline : Prop :=
  Disciplined ∅ (scheduleEvents S cpu busiest) ∧
    ∀ S', stealState S cpu = some S' → heldAfter {cpu} (stealEvents S' cpu busiest) = {cpu}

/-- With a busiest CPU the steal never returns with the local lock: either it has given it back, or
it asked for a lock it holds. -/
theorem steal_breaks_discipline {cpu b : CpuId} :
    ¬ (Disciplined {cpu} (stealEvents S cpu (some b)) ∧
      heldAfter {cpu} (stealEvents S cpu (some b)) = {cpu}) := by
  rintro ⟨hd, hheld⟩
  rcases Nat.lt_or_ge cpu b with hlt | hge
  · -- the local lock is `first` and is given back
    have hne : b ≠ cpu := Nat.ne_of_gt hlt
    simp only [stealEvents, if_pos hlt, if_pos hne] at hheld
    have hmem : cpu ∈ ({cpu} : Finset CpuId) := Finset.mem_singleton_self cpu
    rw [← hheld] at hmem
    split at hmem <;> simp [heldAfter] at hmem
  · -- the local lock is `second` and is asked for again
    simp only [stealEvents, if_neg (Nat.not_lt.mpr hge)] at hd
    rw [disciplined_append] at hd
    obtain ⟨⟨_, hfree, _⟩, _⟩ := hd
    exact hfree (Finset.mem_singleton_self cpu)

theorem not_lockDiscipline {S S' : System} {cpu b : CpuId} (h : stealState S cpu = some S') :
    ¬ LockDiscipline S cpu (some b) := by
  rintro ⟨hd, hheld⟩
  simp only [scheduleEvents, h, List.append_assoc, disciplined_append] at hd
  obtain ⟨_, hsteal, _⟩ := hd
  exact steal_breaks_discipline S' ⟨hsteal, hheld S' h⟩

/-- On the path `schedule`, `try_steal_strand_locked`, `schedule` no lock is taken twice or given
back without being held, the local queue is touched only under its lock and the steal returns with
the locks it was entered with, exactly when the scan finds no busiest CPU or no steal is asked
for. -/
theorem lock_discipline_iff :
    LockDiscipline S cpu busiest ↔ stealState S cpu = none ∨ busiest = none := by
  constructor
  · intro hdisc
    cases hst : stealState S cpu with
    | none => exact .inl rfl
    | some S' =>
      cases busiest with
      | none => exact .inr rfl
      | some b => exact absurd hdisc (not_lockDiscipline hst)
  · have hpath : ∀ es : List (Event CpuId), es = [] ∨ es = [.access cpu] →
        Disciplined ∅ ([.acquire cpu, .access cpu] ++ es ++ [.access cpu, .release cpu]) := by
      rintro es (rfl | rfl) <;> simp [Disciplined]
    intro h
    cases hst : stealState S cpu with
    | none =>
      refine ⟨?_, fun S' h' => by rw [hst] at h'; cases h'⟩
      unfold scheduleEvents
      rw [hst]
      exact hpath [] (.inl rfl)
    | some S' =>
      rcases h with h | rfl
      · rw [hst] at h
        cases h
      refine ⟨?_, fun _ _ => rfl⟩
      unfold scheduleEvents
      rw [hst]
      exact hpath [.access cpu] (.inr rfl)

def lockExample (idle busy : CpuId) : System :=
  { rq := Function.update (Function.update (fun _ => {}) idle
    { curr := some 8, idleStrand := some 8 })
      busy { curr := some 9, idleStrand := some 9, fairTree := [1, 2], nrRunning := 2 }
    strand := fun s => { cpu := busy, onRq := s == 1 || s == 2, idle := s == 8 || s == 9 } }

/-- CPU 0 steals strand 2 from CPU 1 and goes on without the lock of its own queue; CPU 1 in CPU 0's
place asks for its own lock a second time. -/
theorem steal_lock_counterexample :
    (trySteal (lockExample 0 1) 0 1).2 = some 2 ∧
      0 ∉ heldAfter {0} (stealEvents (lockExample 0 1) 0 (some 1)) ∧
      schedule (lockExample 1 0) 1 (some 0) = .error .deadlock ∧
      ¬ LockDiscipline (lockExample 0 1) 0 (some 1) ∧
        ¬ LockDiscipline (lockExample 1 0) 1 (some 0) := by
  have hsteals : ∀ idle busy, (stealState (lockExample idle busy) idle).isSome = true →
      ¬ LockDiscipline (lockExample idle busy) idle (some busy) := by
    intro idle busy hsome
    obtain ⟨S', hS'⟩ := Option.isSome_iff_exists.mp hsome
    exact not_lockDiscipline hS'
  exact ⟨by decide, by decide, by rfl, hsteals 0 1 (by decide), hsteals 1 0 (by decide)⟩

end ZXFoundation.Sched
