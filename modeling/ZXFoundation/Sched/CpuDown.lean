import ZXFoundation.Sched.Core
import ZXFoundation.Sched.Queueing

/-!
# A CPU goes offline

`cpu_down` of `sched/core.cxx`. Its loop covers the fair tree only and writes the queue it moves a
strand to with the lock of the CPU that goes down; what is on the real-time and the deadline queue,
and the strand that runs, stays behind. So it does what it is for on a CPU without work, and on no
other.
-/

namespace ZXFoundation.Sched

open Function

/-- A state, with the queues that strands were moved to. -/
structure Down where
  sys : System
  written : List CpuId := []

variable (S : System) (cpu : CpuId) (s : StrandId)

def destCpu :
    CpuId := ((List.range configMaxCpus).find? fun i => decide (i ≠ cpu) && S.online i).getD 0

/-- One turn of the loop. The result of the enqueue is discarded. -/
def moveOff (D : Down) (s : StrandId) : Down :=
  let S := Classed.dequeue D.sys cpu s
  let dest := destCpu S cpu
  let S := S.setStrand s { S.strand s with cpu := dest, onRq := false, substate := .runnable }
  match Classed.enqueue S dest s with
  | .error _ => { D with sys := S }
  | .ok S => ⟨S, dest :: D.written⟩

/-- `cpu_down`. The iterator takes the next node before the strand is dequeued. -/
def cpuDown : Down :=
  if configMaxCpus ≤ cpu then ⟨S, []⟩
  else
    let D := (S.rq cpu).fairTree.foldl (moveOff cpu) ⟨S, []⟩
    { D with
      sys :=
        { D.sys.setRq cpu { D.sys.rq cpu with idleStrand := none, curr := none } with
          online := update D.sys.online cpu false } }

/-- The strand is queued on the CPU, or is its current strand and could go on. -/
def Works : Prop :=
  s ∈ (S.rq cpu).linked ∨
    (S.rq cpu).curr = some s ∧ (S.strand s).idle = false ∧
      ((S.strand s).substate = .running ∨ (S.strand s).substate = .runnable)

/-- The strand is queued exactly once, on another CPU, which is online and counts its strands. -/
def Rehoused : Prop :=
  let c := (S.strand s).cpu
  c ≠ cpu ∧ S.online c = true ∧ (S.strand s).onRq = true ∧ (S.rq c).linked.count s = 1 ∧
    (∀ c', c' ≠ c → s ∉ (S.rq c').linked) ∧ (S.rq c).nrRunning = (S.rq c).linked.length

/-- **No work is lost**, and no queue was written but that of the CPU, whose lock is the only one
held. -/
structure Evacuated (D : Down) : Prop where
  rehoused : ∀ s, Works S cpu s → Rehoused D.sys cpu s
  counted : (D.sys.rq cpu).nrRunning = (D.sys.rq cpu).linked.length
  locked : ∀ c ∈ D.written, c = cpu

variable {S cpu s} {T : System} {D : Down} {l : List StrandId}

theorem rehoused_congr (hstrand : T.strand = S.strand)
    (hlinked : ∀ c, (T.rq c).linked = (S.rq c).linked)
    (hcount : ∀ c, (T.rq c).nrRunning = (S.rq c).nrRunning) (honline : ∀ c, c ≠ cpu →
      T.online c = S.online c) :
    Rehoused T cpu s ↔ Rehoused S cpu s := by
  unfold Rehoused
  simp only [hstrand, hlinked, hcount]
  exact and_congr_right fun hne => by rw [honline _ hne]

theorem destCpu_ne (h : ∃ c < configMaxCpus, c ≠ cpu ∧ S.online c = true) :
    destCpu S cpu ≠ cpu := by
  obtain ⟨c, hc, hne, honline⟩ := h
  unfold destCpu
  cases hfind : (List.range configMaxCpus).find? fun i => decide (i ≠ cpu) && S.online i with
  | none =>
    have hno := List.find?_eq_none.mp hfind c (List.mem_range.mpr hc)
    simp [hne, honline] at hno
  | some i =>
    have hi := List.find?_some hfind
    simp only [Bool.and_eq_true, decide_eq_true_eq] at hi
    exact hi.1

theorem moveOff_cases (h : ∃ c < configMaxCpus, c ≠ cpu ∧ D.sys.online c = true) :
    (∃ c ∈ (moveOff cpu D s).written, c ≠ cpu) ∨
      (moveOff cpu D s).sys.online = D.sys.online ∧ ((moveOff cpu D s).sys.strand s).onRq = false ∧
        ∀ t, t ≠ s → (moveOff cpu D s).sys.strand t = D.sys.strand t := by
  have hframe : (Classed.dequeue D.sys cpu s).online = D.sys.online ∧
      ∀ t, t ≠ s → (Classed.dequeue D.sys cpu s).strand t = D.sys.strand t :=
    Classed.dequeue_rule ⟨rfl, fun _ _ => rfl⟩ fun _ hd =>
      ⟨(congrArg System.online hd.frame :), fun _ => hd.strand_of_ne⟩
  unfold moveOff
  dsimp only
  split
  · refine .inr ⟨hframe.1, ?_, fun t ht => ?_⟩
    · rw [System.setStrand_self]
    · rw [System.setStrand_strand, update_of_ne ht]
      exact hframe.2 t ht
  · exact .inl ⟨_, .head _, destCpu_ne (by rwa [hframe.1])⟩

theorem mem_written {c : CpuId} (hc : c ∈ D.written) : c ∈ (l.foldl (moveOff cpu) D).written := by
  induction l generalizing D with
  | nil => exact hc
  | cons s l ih =>
    refine ih ?_
    unfold moveOff
    dsimp only
    split
    · exact hc
    · exact .tail _ hc

theorem foldl_onRq (h : ∃ c < configMaxCpus, c ≠ cpu ∧ D.sys.online c = true)
    (hlocked : ∀ c ∈ (l.foldl (moveOff cpu) D).written, c = cpu)
    (hs : s ∈ l ∨ (D.sys.strand s).onRq = false) :
    ((l.foldl (moveOff cpu) D).sys.strand s).onRq = false := by
  induction l generalizing D with
  | nil => exact hs.resolve_left nofun
  | cons t l ih =>
    rcases moveOff_cases (s := t) h with ⟨c, hc, hne⟩ | ⟨honline, hoff, hother⟩
    · exact absurd (hlocked c (mem_written (D := moveOff cpu D t) hc)) hne
    refine ih (by rwa [honline]) hlocked ?_
    by_cases hst : s = t
    · exact .inr (hst ▸ hoff)
    · rw [hother s hst]
      exact hs.imp_left fun hmem => (List.mem_cons.mp hmem).resolve_left hst

/-- **`cpu_down` loses no work** if and only if nothing is queued on the CPU and its current strand,
if it could go on, is queued elsewhere already. -/
theorem cpuDown_evacuated_iff (h : ∃ c < configMaxCpus, c ≠ cpu ∧ S.online c = true) :
    Evacuated S cpu (cpuDown S cpu) ↔ (S.rq cpu).linked = [] ∧ Evacuated S cpu ⟨S, []⟩ := by
  -- a CPU with an empty tree
  have hsame : (S.rq cpu).fairTree = [] → (cpuDown S cpu).written = [] ∧
      (cpuDown S cpu).sys.strand = S.strand ∧
        (∀ c, ((cpuDown S cpu).sys.rq c).linked = (S.rq c).linked) ∧
      (∀ c, ((cpuDown S cpu).sys.rq c).nrRunning = (S.rq c).nrRunning) ∧
      ∀ c, c ≠ cpu → (cpuDown S cpu).sys.online c = S.online c := by
    intro htree
    unfold cpuDown
    rw [htree]
    split
    · exact ⟨rfl, rfl, fun _ => rfl, fun _ => rfl, fun _ _ => rfl⟩
    refine ⟨rfl, rfl, fun c => ?_, fun c => ?_, fun c hc => update_of_ne hc _ _⟩
    all_goals
      by_cases hc : c = cpu
      · subst hc
        simp [RunQueue.linked]
      · simp [update_of_ne hc]
  constructor
  · intro hev
    have htree : (S.rq cpu).fairTree = [] := by
      by_contra hne
      obtain ⟨s, hs⟩ := List.exists_mem_of_ne_nil _ hne
      have hre := hev.rehoused s (.inl (RunQueue.mem_linked.mpr (.inl hs)))
      have hlocked := hev.locked
      unfold cpuDown at hre hlocked
      split at hre
      · exact hre.2.2.2.2.1 cpu (Ne.symm hre.1) (RunQueue.mem_linked.mpr (.inl hs))
      · rename_i hlt
        rw [if_neg hlt] at hlocked
        exact Bool.false_ne_true
          ((foldl_onRq (D := ⟨S, []⟩) h hlocked (.inl hs)).symm.trans hre.2.2.1)
    obtain ⟨_, hstrand, hlinked, hcount, honline⟩ := hsame htree
    have hre : ∀ s, Works S cpu s → Rehoused S cpu s := fun s hs =>
      (rehoused_congr hstrand hlinked hcount honline).mp (hev.rehoused s hs)
    refine ⟨List.eq_nil_iff_forall_not_mem.mpr fun s hs => ?_, hre, ?_, List.forall_mem_nil _⟩
    · obtain ⟨hne, _, _, _, hout, _⟩ := hre s (.inl hs)
      exact hout cpu (Ne.symm hne) hs
    · rw [← hlinked, ← hcount]
      exact hev.counted
  · rintro ⟨hempty, hev⟩
    have htree : (S.rq cpu).fairTree = [] := by
      simp only [RunQueue.linked, List.append_eq_nil_iff] at hempty
      exact hempty.1.1
    obtain ⟨hwritten, hstrand, hlinked, hcount, honline⟩ := hsame htree
    refine ⟨fun s hs => (rehoused_congr hstrand hlinked hcount honline).mpr
      (hev.rehoused s hs), ?_, ?_⟩
    · rw [hlinked, hcount]
      exact hev.counted
    · rw [hwritten]
      exact List.forall_mem_nil _

/-- CPU 0 still runs a strand that CPU 1 has stolen and queued; another strand runs there. -/
def stolenWork : System where
  rq c := if c = 0 then { curr := some 1 } else if c = 1 then
    { nrRunning := 1, curr := some 2, fairTree := [1] } else {}
  strand _ := { substate := .runnable, cpu := 1, onRq := true, lastQueued := .fair, lastRq := 1 }

theorem cpuDown_evacuated_stolen :
    (∃ c < configMaxCpus, c ≠ 0 ∧ stolenWork.online c = true) ∧ Works stolenWork 0 1 ∧
      Evacuated stolenWork 0 (cpuDown stolenWork 0) := by
  have h : ∃ c < configMaxCpus, c ≠ 0 ∧ stolenWork.online c = true :=
    ⟨1, by decide, by decide, rfl⟩
  refine ⟨h, .inr (by decide), (cpuDown_evacuated_iff h).mpr ⟨rfl, fun s hs => ?_, rfl, nofun⟩⟩
  rcases hs with hmem | ⟨hcurr, _⟩
  · exact absurd hmem List.not_mem_nil
  obtain rfl : s = 1 := (Option.some.inj hcurr).symm
  refine ⟨by decide, rfl, rfl, rfl, fun c (hc : c ≠ 1) hmem => ?_, rfl⟩
  by_cases hzero : c = 0
  · simp [stolenWork, hzero, RunQueue.linked] at hmem
  · simp [stolenWork, hzero, hc, RunQueue.linked] at hmem

/-- A real-time strand that was admitted with its runtime is queued on CPU 0. -/
def rtWork : System where
  rq c := if c = 0 then { nrRunning := 1, rtQueue := [1] } else {}
  strand _ :=
    { substate := .runnable, onRq := true, lastQueued := .rt
      policy := rtMillisecond
      admission := { classId := .rt, admittedRuntimeNs := rtMillisecond.runtimeNs,
                     admittedPeriodNs := rtMillisecond.periodNs } }

/-- The strand stays on the CPU that goes offline. -/
theorem cpuDown_loses :
    (∃ c < configMaxCpus, c ≠ 0 ∧ rtWork.online c = true) ∧
      ¬ Evacuated rtWork 0 (cpuDown rtWork 0) := by
  refine ⟨⟨1, by decide, by decide, rfl⟩, fun hev => ?_⟩
  exact (hev.rehoused 1 (.inl (by decide))).1 (by decide)

end ZXFoundation.Sched
