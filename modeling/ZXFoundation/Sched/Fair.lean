import Mathlib.Data.List.Sort
import ZXFoundation.Sched.Types

/-!
# The fair class

`sched/fair.zcomponent/core.cxx`: earliest eligible virtual deadline first. The tree is ordered by
the virtual deadline that a strand is given when it is queued, and `pick_next` takes the first
queued strand whose virtual runtime is not ahead of the queue's average.

The descent of an insertion goes left exactly when the new deadline is earlier, which is
`List.orderedInsert`. A strand left queued while it runs has its deadline moved inside the tree; the
model keeps the same rule then.
-/

namespace ZXFoundation.Sched.Fair

def nice0Weight : Nat := 1024

def weightMax : Nat := 1024

def eevdfDefaultSliceNs : Nat := 40_960_000

variable (se : SchedEntity)

def weightOf : Nat := if se.weight = 0 then nice0Weight else se.weight

def calcDeltaFair (delta : Nat) (se : SchedEntity) : Nat :=
  if weightOf se = nice0Weight then delta else delta * weightMax / weightOf se

/-- `avg_vruntime`: the division drops the fraction towards zero. -/
def avgVruntime (minVruntime : Nat) (acc : Int) (weightAcc : Nat) : Int :=
  if weightAcc = 0 then minVruntime else acc.tdiv weightAcc + minVruntime

def avgVruntimeAdd (rq : RunQueue) : RunQueue :=
  { rq with
    avgVruntimeAcc := rq.avgVruntimeAcc + weightOf se * ((se.vruntime : Int) - rq.minVruntime)
    avgWeightAcc := rq.avgWeightAcc + weightOf se }

def avgVruntimeSub (rq : RunQueue) : RunQueue :=
  { rq with
    avgVruntimeAcc := rq.avgVruntimeAcc - weightOf se * ((se.vruntime : Int) - rq.minVruntime)
    avgWeightAcc := rq.avgWeightAcc - weightOf se }

def updateMinVruntime (minVruntime newFloor : Nat) : Nat :=
  if newFloor > minVruntime then newFloor else minVruntime + 1

def entityEligible (avg : Int) : Bool := (se.vruntime : Int) - avg ≤ 0

def schedSlice (nrRunning : Nat) : Nat :=
  calcDeltaFair (eevdfDefaultSliceNs / (if nrRunning = 0 then 1 else nrRunning)) se

def placeEntity (avg : Int) (minVruntime nrRunning : Nat) (initial : Bool) : SchedEntity :=
  let offset := eevdfDefaultSliceNs >>> 1
  let se :=
    if initial then
      let base := if avg > minVruntime then avg.toNat else minVruntime
      let vruntime := if base > offset then base - offset else 0
      { se with vruntime, lag := (vruntime : Int) - base }
    else
      let vruntime := if se.vruntime < minVruntime then minVruntime else se.vruntime
      { se with vruntime, lag := (vruntime : Int) - avg }
  let slice := schedSlice se nrRunning
  { se with slice, deadline := se.vruntime + slice }

/-- `update_curr`: the entity and the queue's floor afterwards. -/
def updateCurr (minVruntime delta : Nat) : SchedEntity × Nat :=
  if delta = 0 then (se, minVruntime)
  else
    let vruntime := se.vruntime + calcDeltaFair delta se
    let floor := if vruntime > minVruntime then updateMinVruntime minVruntime vruntime
      else minVruntime
    if vruntime ≥ se.deadline then
      ({ se with vruntime, deadline := vruntime + se.slice, lag := (vruntime : Int) - floor },
        floor)
    else ({ se with vruntime }, floor)

def migrateEntity (srcMin dstMin : Nat) : SchedEntity :=
  let delta := if se.vruntime > srcMin then se.vruntime - srcMin else 0
  { se with
    vruntime := dstMin + delta
    deadline := dstMin + delta + se.slice
    lag := ((dstMin + delta : Nat) : Int) - dstMin
    relCount := se.relCount + 1 }

/-- The descent and the link of `enqueue`. -/
def insertNode (deadline : StrandId → Nat) (s : StrandId) (tree : List StrandId) : List StrandId :=
  tree.orderedInsert (fun a b => deadline a < deadline b) s

theorem mem_insertNode {deadline : StrandId → Nat} {s t : StrandId} {tree : List StrandId} :
    t ∈ insertNode deadline s tree ↔ t = s ∨ t ∈ tree :=
  List.mem_orderedInsert _

theorem perm_insertNode (deadline : StrandId → Nat) (s : StrandId) (tree : List StrandId) :
    (insertNode deadline s tree).Perm (s :: tree) :=
  List.perm_orderedInsert _ s tree

def decNrRunning (n : Nat) : Nat := if n = 0 then 2 ^ 32 - 1 else n - 1

variable (S : System) (cpu : CpuId) (s : StrandId)

/-- What `enqueue` writes to the strand. -/
def placed : SchedEntity :=
  let rq := S.rq cpu
  let se := (S.strand s).se
  placeEntity se (avgVruntime rq.minVruntime rq.avgVruntimeAcc rq.avgWeightAcc) rq.minVruntime
    (rq.nrRunning + 1) (se.deadline == 0)

/-- The state after `enqueue` has passed its check. -/
def link : System :=
  let S₁ := S.setStrand s { S.strand s with
    se := placed S cpu s, onRq := true, lastQueued := .fair, lastRq := cpu }
  let rq := avgVruntimeAdd (placed S cpu s) (S.rq cpu)
  S₁.setRq cpu { rq with
    fairTree := insertNode (fun t => (S₁.strand t).se.deadline) s rq.fairTree
    nrRunning := rq.nrRunning + 1 }

/-- `enqueue`. It does not ask whether the strand is queued already. -/
def enqueue : Except KernelError System :=
  if !(S.strand s).policy.allowSmtSibling && S.smtDenied s cpu then .error (.generic .invalidArg)
  else .ok (link S cpu s)

/-- `dequeue`. Erasing a node that is not in the tree follows stale links in the source; here it
changes the flag and the counters alone. -/
def dequeue : System :=
  if !(S.strand s).onRq then S
  else
    let rq := avgVruntimeSub (S.strand s).se (S.rq cpu)
    (S.setStrand s { S.strand s with onRq := false }).setRq cpu { rq with
      fairTree := rq.fairTree.erase s
      nrRunning := decNrRunning rq.nrRunning }

/-- `pick_next`: the first eligible strand of the tree, and the first of all if none is. -/
def pickNext : Option StrandId :=
  let rq := S.rq cpu
  let avg := avgVruntime rq.minVruntime rq.avgVruntimeAcc rq.avgWeightAcc
  (rq.fairTree.find? fun s => entityEligible (S.strand s).se avg).or rq.fairTree.head?

def tick : System :=
  let rq := S.rq cpu
  let (se, floor) := updateCurr (S.strand s).se rq.minVruntime eevdfDefaultSliceNs
  (S.setStrand s { S.strand s with se }).setRq cpu { rq with minVruntime := floor }

theorem pickNext_mem {S : System} {cpu : CpuId} {s : StrandId} (h : pickNext S cpu = some s) :
    s ∈ (S.rq cpu).fairTree := by
  unfold pickNext at h
  rcases Option.or_eq_some_iff.mp h with hfind | ⟨_, hhead⟩
  · exact List.mem_of_find?_eq_some hfind
  · exact List.mem_of_mem_head? hhead

end ZXFoundation.Sched.Fair
