import Mathlib.Data.List.Perm.Subperm
import ZXFoundation.Sched.Admission

/-!
# Groups of a scheduling domain

`tree_build` of `sched/sd.zcomponent/core.cxx`. Every level of a CPU's tree takes its groups from
the same four entries of `g_group_pool`. A level writes over the ring of the level below it, and
from its fifth CPU on over its own, so the rings cover the spans only where all levels write the
same few groups.
-/

namespace ZXFoundation.Sched.Sd

open Function List

/-- `sched_group`; a pointer is a place in `g_group_pool`. -/
structure SchedGroup where
  cpus : List CpuId := []
  next : Option Nat := none
  deriving DecidableEq

abbrev Pool := Nat → SchedGroup

/-- `sched_domain`, with the pool as it was when the level had been built. -/
structure SchedDomain where
  spanCpus : List CpuId
  groups : Option Nat
  built : Pool

def cpusOf (mask : CpuId → Bool) : List CpuId := (List.range configMaxCpus).filter mask

/-- `g_group_pool` and the local variables of `build_group_ring`. -/
structure Ring where
  pool : Pool
  ringHead : Option Nat := none
  ringTail : Option Nat := none
  groupN : Nat := 0

variable (localCpu : CpuId)

def groupIndex (groupN : Nat) : Nat := localCpu * 4 + groupN % 4

/-- One turn of the loop over the CPUs of the span. -/
def addGroup (R : Ring) (cpu : CpuId) : Ring :=
  let sg := groupIndex localCpu R.groupN
  let pool := update R.pool sg { cpus := [cpu] }
  match R.ringTail with
  | none => ⟨pool, some sg, some sg, R.groupN + 1⟩
  | some tail => ⟨update pool tail { pool tail with next := some sg }, R.ringHead, some sg,
    R.groupN + 1⟩

def buildGroupRing (pool : Pool) (span : List CpuId) : Pool × Option Nat :=
  let R := span.foldl (addGroup localCpu) { pool }
  match R.ringTail with
  | none => (R.pool, R.ringHead)
  | some tail => (update R.pool tail { R.pool tail with next := R.ringHead }, R.ringHead)

/-- The loop of `tree_build` over the levels, given by their spans. -/
def buildLevels (pool : Pool) : List (List CpuId) → Pool × List SchedDomain
  | [] => (pool, [])
  | span :: spans =>
    let built := buildGroupRing localCpu pool span
    let rest := buildLevels built.1 spans
    (rest.1, ⟨span, built.2, built.1⟩ :: rest.2)

/-- `tree_build`, of the record's `smt_evidence`; `none` is the null pointer. -/
def treeBuild (pool : Pool) (topoRecord : Option TopologyEvidence) (online : Bool)
    (nodeMask : CpuId → Bool) :
    Pool × List SchedDomain :=
  match topoRecord with
  | none => (pool, [])
  | some evidence =>
    if !online then (pool, [])
    else
      let node := cpusOf nodeMask
      let smt := if evidence = .degraded then cpusOf (· = localCpu) else node
      buildLevels localCpu pool [smt, node, node, node, node]

/-- The groups `for_each_group` visits from `cur` on; `none` if they are more than the fuel. -/
def forEachGroup (pool : Pool) (head : Option Nat) : Nat → Option Nat → Option (List SchedGroup)
  | 0, _ => none
  | _ + 1, none => some []
  | fuel + 1, some cur =>
    if (pool cur).next = head then some [pool cur]
    else (forEachGroup pool head fuel (pool cur).next).map (pool cur :: ·)

def Visits (pool : Pool) (D : SchedDomain) (gs : List SchedGroup) : Prop :=
  ∃ fuel, forEachGroup pool D.groups fuel D.groups = some gs

/-- **The groups are a cycle of disjoint sets that cover the span**, and those that were built. -/
def Covered (pool : Pool) (D : SchedDomain) : Prop :=
  ∃ gs, Visits pool D gs ∧ Visits D.built D gs ∧ (∀ g ∈ gs.getLast?, g.next = D.groups) ∧
    gs.Pairwise (fun g g' => g.cpus.Disjoint g'.cpus) ∧ ∀ c, c ∈ D.spanCpus ↔ ∃ g ∈ gs, c ∈ g.cpus

/-! ## Up to four CPUs -/

variable {cpu : Nat} {pool built : Pool} {head cur : Option Nat} {fuel fuel' : Nat} {l : List CpuId}
  {gs gs' : List SchedGroup} {D : SchedDomain}

theorem forEachGroup_mono (h : forEachGroup pool head fuel cur = some gs) (hle : fuel ≤ fuel') :
    forEachGroup pool head fuel' cur = some gs := by
  induction fuel generalizing fuel' cur gs with
  | zero => cases h
  | succ fuel ih =>
    cases fuel' with
    | zero => omega
    | succ fuel' =>
    cases cur with
    | none => exact h
    | some cur =>
    rw [forEachGroup] at h ⊢
    split at h
    · rw [if_pos ‹_›, h]
    · obtain ⟨rest, hrest, rfl⟩ := Option.map_eq_some_iff.mp h
      rw [if_neg ‹_›, ih hrest (by omega)]
      rfl

theorem Visits.unique (h : Visits pool D gs) (h' : Visits pool D gs') : gs = gs' := by
  obtain ⟨fuel, h⟩ := h
  obtain ⟨fuel', h'⟩ := h'
  have hmax := forEachGroup_mono h (Nat.le_max_left fuel fuel')
  rw [forEachGroup_mono h' (Nat.le_max_right fuel fuel')] at hmax
  exact (Option.some.inj hmax).symm

/-- Up to four CPUs are threaded through the entries in order, whatever the pool was before. -/
theorem exists_ring (cpu : CpuId) (hl : l.length ≤ 4) (hne : l ≠ []) : ∃ gs,
    (∀ pool, (buildGroupRing cpu pool l).2 = some (cpu * 4) ∧
      forEachGroup (buildGroupRing cpu pool l).1 (some (cpu * 4)) 4 (some (cpu * 4)) = some gs) ∧
    gs.map (·.cpus) = l.map ([·]) ∧ ∀ g ∈ gs.getLast?, g.next = some (cpu * 4) := by
  rcases l with _ | ⟨a, _ | ⟨b, _ | ⟨c, _ | ⟨d, _ | ⟨e, l⟩⟩⟩⟩⟩
  · exact absurd rfl hne
  · refine ⟨[⟨[a], some (cpu * 4)⟩], fun pool => ?_, rfl, by simp⟩
    simp [buildGroupRing, addGroup, groupIndex, forEachGroup]
  · refine ⟨[⟨[a], some (cpu * 4 + 1)⟩, ⟨[b], some (cpu * 4)⟩], fun pool => ?_, rfl, by simp⟩
    simp [buildGroupRing, addGroup, groupIndex, forEachGroup]
  · refine ⟨[⟨[a], some (cpu * 4 + 1)⟩, ⟨[b], some (cpu * 4 + 2)⟩, ⟨[c], some (cpu * 4)⟩],
      fun pool => ?_, rfl, by simp⟩
    simp [buildGroupRing, addGroup, groupIndex, forEachGroup]
  · refine ⟨[⟨[a], some (cpu * 4 + 1)⟩, ⟨[b], some (cpu * 4 + 2)⟩, ⟨[c], some (cpu * 4 + 3)⟩,
      ⟨[d], some (cpu * 4)⟩], fun pool => ?_, rfl, by simp⟩
    simp [buildGroupRing, addGroup, groupIndex, forEachGroup]
  · simp only [length_cons] at hl
    omega

theorem mem_of_map_cpus {c : CpuId} (h : gs.map (·.cpus) = l.map ([·])) :
    c ∈ l ↔ ∃ g ∈ gs, c ∈ g.cpus := by
  have hmap : (∃ s ∈ gs.map (·.cpus), c ∈ s) ↔ ∃ s ∈ l.map ([·]), c ∈ s := by rw [h]
  simpa using hmap.symm

theorem covered_nil :
    Covered pool ⟨[], none, built⟩ := ⟨[], ⟨1, rfl⟩, ⟨1, rfl⟩, nofun, .nil, by simp⟩

theorem covered_buildGroupRing {pool' : Pool} (hnodup : l.Nodup) (hl : l.length ≤ 4)
    (hne : l ≠ []) :
    Covered (buildGroupRing cpu pool l).1
      ⟨l, (buildGroupRing cpu pool' l).2, (buildGroupRing cpu pool' l).1⟩ := by
  obtain ⟨gs, hring, hcpus, hlast⟩ := exists_ring cpu hl hne
  rw [(hring pool').1]
  refine ⟨gs, ⟨4, (hring pool).2⟩, ⟨4, (hring pool').2⟩, hlast, ?_, fun c => mem_of_map_cpus hcpus⟩
  have hpair : (gs.map (·.cpus)).Pairwise List.Disjoint := by
    rw [hcpus, pairwise_map]
    exact hnodup.imp fun hab => by simpa using Ne.symm hab
  exact pairwise_map.mp hpair

/-! ## More than four CPUs -/

def Entry (cpu i : Nat) : Prop := cpu * 4 ≤ i ∧ i < cpu * 4 + 4

/-- The four entries hold one CPU each, and no pointer leaves them. -/
def Confined (cpu : Nat) (pool : Pool) : Prop :=
  ∀ i, Entry cpu i → (pool i).cpus.length = 1 ∧ ∀ j ∈ (pool i).next, Entry cpu j

theorem Confined.update {g : SchedGroup} {i : Nat} (h : Confined cpu pool)
    (hg : g.cpus.length = 1 ∧ ∀ j ∈ g.next, Entry cpu j) : Confined cpu (update pool i g) := by
  intro j hj
  by_cases hji : j = i
  · rw [hji, update_self]
    exact hg
  · rw [update_of_ne hji]
    exact h j hj

/-- What the loop keeps once the four entries have been written. -/
structure Wrapped (cpu : Nat) (R : Ring) : Prop where
  head : ∃ i, R.ringHead = some i ∧ Entry cpu i
  tail : ∃ i, R.ringTail = some i ∧ Entry cpu i
  confined : Confined cpu R.pool

theorem Wrapped.foldl {R : Ring} (h : Wrapped cpu R) : Wrapped cpu (l.foldl (addGroup cpu) R) := by
  induction l generalizing R with
  | nil => exact h
  | cons c l ih =>
    refine ih ?_
    obtain ⟨tail, htail, hin⟩ := h.tail
    have hsg : Entry cpu (groupIndex cpu R.groupN) :=
      ⟨Nat.le_add_right .., Nat.add_lt_add_left (Nat.mod_lt _ (by decide)) _⟩
    have hwritten := h.confined.update (g := { cpus := [c] }) (i := groupIndex cpu R.groupN)
      ⟨rfl, nofun⟩
    simp only [addGroup, htail]
    exact ⟨h.head, ⟨_, rfl, hsg⟩,
      hwritten.update ⟨(hwritten tail hin).1, fun j hj => by cases hj; exact hsg⟩⟩

theorem wrapped_four {a b c d : CpuId} :
    Wrapped cpu ([a, b, c, d].foldl (addGroup cpu) { pool }) := by
  refine ⟨⟨cpu * 4, ?_, by unfold Entry; omega⟩, ⟨cpu * 4 + 3, ?_, by unfold Entry; omega⟩,
    fun i hi => ?_⟩
  · simp [addGroup, groupIndex]
  · simp [addGroup, groupIndex]
  · unfold Entry at hi
    obtain rfl | rfl | rfl | rfl : i = cpu * 4 ∨ i = cpu * 4 + 1 ∨ i = cpu * 4 + 2 ∨
      i = cpu * 4 + 3 := by omega
    all_goals simp [addGroup, groupIndex, Entry]

theorem Confined.forEachGroup (h : Confined cpu pool) (hcur : ∀ i ∈ cur, Entry cpu i)
    (hwalk : forEachGroup pool head fuel cur = some gs) : ∀ g ∈ gs, ∃ i, Entry cpu i ∧
      g = pool i := by
  induction fuel generalizing cur gs with
  | zero => cases hwalk
  | succ fuel ih =>
    cases cur with
    | none =>
      cases hwalk
      nofun
    | some i =>
    have hi := hcur i rfl
    rw [Sd.forEachGroup] at hwalk
    split at hwalk
    · cases hwalk
      intro g hg
      exact ⟨i, hi, mem_singleton.mp hg⟩
    · obtain ⟨rest, hrest, rfl⟩ := Option.map_eq_some_iff.mp hwalk
      rintro g (_ | ⟨_, hg⟩)
      · exact ⟨i, hi, rfl⟩
      · exact ih (h i hi).2 hrest g hg

theorem length_le_of_covered (hnodup : l.Nodup)
    (h : Covered (buildGroupRing cpu pool l).1 ⟨l, (buildGroupRing cpu pool l).2, built⟩) :
    l.length ≤ 4 := by
  rcases l with _ | ⟨a, _ | ⟨b, _ | ⟨c, _ | ⟨d, l⟩⟩⟩⟩
  iterate 4 · simp
  generalize hR : (a :: b :: c :: d :: l).foldl (addGroup cpu) { pool } = R at h
  have hwrapped : Wrapped cpu R := by
    rw [← hR, show a :: b :: c :: d :: l = [a, b, c, d] ++ l from rfl, foldl_append]
    exact wrapped_four.foldl
  obtain ⟨tail, htail, hin⟩ := hwrapped.tail
  obtain ⟨first, hfirst, hstart⟩ := hwrapped.head
  simp only [buildGroupRing, hR, htail, hfirst] at h
  have hconf := hwrapped.confined.update (g := { R.pool tail with next := some first }) (i := tail)
    ⟨(hwrapped.confined tail hin).1, fun j hj => by cases hj; exact hstart⟩
  generalize update R.pool tail { R.pool tail with next := some first } = pool' at h hconf
  obtain ⟨gs, ⟨fuel, hwalk⟩, _, _, _, hspan⟩ := h
  have hsub : a :: b :: c :: d :: l ⊆ (range 4).flatMap fun k => (pool' (cpu * 4 + k)).cpus := by
    intro x hx
    obtain ⟨g, hg, hxg⟩ := (hspan x).mp hx
    obtain ⟨i, hi, rfl⟩ := hconf.forEachGroup (fun i hi => by cases hi; exact hstart) hwalk g hg
    obtain ⟨k, rfl⟩ := Nat.exists_eq_add_of_le hi.1
    exact mem_flatMap.mpr ⟨k, mem_range.mpr (Nat.lt_of_add_lt_add_left hi.2), hxg⟩
  have hone : ∀ k < 4, (pool' (cpu * 4 + k)).cpus.length = 1 := fun k hk =>
    (hconf _ ⟨Nat.le_add_right .., Nat.add_lt_add_left hk _⟩).1
  refine Nat.le_trans (hnodup.subperm hsub).length_le (Nat.le_of_eq ?_)
  rw [length_flatMap, map_congr_left fun k hk => hone k (mem_range.mp hk)]
  rfl

/-! ## The tree -/

theorem nodup_cpusOf {mask : CpuId → Bool} : (cpusOf mask).Nodup := nodup_range.filter _

theorem cpusOf_ext {m m' : CpuId → Bool} (h : ∀ c, c ∈ cpusOf m ↔ c ∈ cpusOf m') :
    cpusOf m = cpusOf m' := by
  refine filter_congr fun c hc => Bool.eq_iff_iff.mpr ?_
  simpa [cpusOf, mem_range.mp hc] using h c

theorem buildLevels_covered_iff {smt node : List CpuId} (hnode : node.Nodup) (hsmt : smt.Nodup)
    (hlen : smt.length ≤ 4 ∨ smt = node) (hext : (∀ c, c ∈ node ↔ c ∈ smt) → node = smt) :
    (∀ D ∈ (buildLevels cpu pool [smt, node, node, node, node]).2,
        Covered (buildLevels cpu pool [smt, node, node, node, node]).1 D) ↔
      node.length ≤ 4 ∧ (node = [] ∨ node = smt ∨ smt = []) := by
  simp only [buildLevels, forall_mem_cons]
  constructor
  · rintro ⟨hfirst, _, _, _, hlast, _⟩
    have hl := length_le_of_covered hnode hlast
    refine ⟨hl, ?_⟩
    by_contra hno
    simp only [not_or] at hno
    obtain ⟨gs, hring, hcpus, _⟩ := exists_ring cpu hl hno.1
    obtain ⟨_, hring', _⟩ := exists_ring cpu (hlen.elim id fun heq => heq ▸ hl) hno.2.2
    rw [(hring' _).1] at hfirst
    -- the ring in the pool is that of the node
    obtain ⟨gs', hvisits, _, _, _, hspan⟩ := hfirst
    obtain rfl : gs' = gs := hvisits.unique ⟨4, (hring _).2⟩
    exact hno.2.1 (hext fun c => (mem_of_map_cpus hcpus).trans (hspan c).symm)
  · rintro ⟨hl, hcase⟩
    by_cases hne : node = []
    · subst hne
      refine ⟨?_, covered_nil, covered_nil, covered_nil, covered_nil, forall_mem_nil _⟩
      by_cases hne' : smt = []
      · subst hne'
        exact covered_nil
      · exact covered_buildGroupRing hsmt (hlen.elim id fun heq => absurd heq hne') hne'
    · have hall : ∀ {P P' : Pool}, Covered (buildGroupRing cpu P node).1
          ⟨node, (buildGroupRing cpu P' node).2, (buildGroupRing cpu P' node).1⟩ :=
        covered_buildGroupRing hnode hl hne
      refine ⟨?_, hall, hall, hall, hall, forall_mem_nil _⟩
      rcases hcase.resolve_left hne with rfl | rfl
      · exact hall
      · exact covered_nil

/-- **The groups of every level cover its span** if and only if nothing is built, or the node has at
most four CPUs and, with degraded evidence, these are the CPU itself. -/
theorem treeBuild_covered_iff (localCpu : CpuId) (pool : Pool)
    (topoRecord : Option TopologyEvidence) (online : Bool)
    (nodeMask : CpuId → Bool) : (∀ D ∈ (treeBuild localCpu pool topoRecord online nodeMask).2,
        Covered (treeBuild localCpu pool topoRecord online nodeMask).1 D) ↔
      topoRecord = none ∨ online = false ∨ (cpusOf nodeMask).length ≤ 4 ∧
        (topoRecord = some .degraded →
        cpusOf nodeMask = [] ∨ cpusOf nodeMask = cpusOf (· = localCpu) ∨
          cpusOf (· = localCpu) = []) := by
  cases topoRecord with
  | none => exact iff_of_true nofun (.inl rfl)
  | some evidence =>
  cases online with
  | false => exact iff_of_true nofun (.inr (.inl rfl))
  | true =>
  by_cases hev : evidence = .degraded
  · have hsub : cpusOf (· = localCpu) ⊆ [localCpu] := fun c hc => by
      simpa using (List.mem_filter.mp hc).2
    have hsmt := Nat.le_trans (nodup_cpusOf.subperm hsub).length_le (by decide : 1 ≤ 4)
    simpa [treeBuild, hev] using buildLevels_covered_iff nodup_cpusOf nodup_cpusOf
      (.inl hsmt) cpusOf_ext
  · simpa [treeBuild, hev] using buildLevels_covered_iff nodup_cpusOf nodup_cpusOf (.inr rfl)
      fun _ => rfl

/-- A node of five CPUs: the fifth group takes the place of the first. -/
theorem treeBuild_uncovered : ¬ ∀ D ∈ (treeBuild 0 (fun _ => {}) (some .verified) true (· < 5)).2,
    Covered (treeBuild 0 (fun _ => {}) (some .verified) true (· < 5)).1 D := by
  intro h
  simp only [treeBuild, Bool.not_true, Bool.false_eq_true, if_false, reduceCtorEq] at h
  have hnode := ((buildLevels_covered_iff nodup_cpusOf nodup_cpusOf (.inr rfl) fun _ => rfl).mp h).1
  exact absurd hnode (by decide +kernel)

end ZXFoundation.Sched.Sd
