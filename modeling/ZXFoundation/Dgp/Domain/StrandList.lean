import ZXFoundation.Dgp.Domain.Lifecycle

/-!
# The strand behind a node of the strand list

A domain links its secondary strands through the `strand_list` node of their bodies. A body is a
block of its own that the strand points to, but `quiesce_domain` and `domain_destroy` go from the
node to the strand as if the body lay inside it.

The address they compute lies 104 bytes before the body, so a strand there would reach over the
body's first byte. The allocator hands out blocks that do not overlap, so no strand is ever there.
-/

namespace ZXFoundation.Dgp.Domain

open Scoms Outcome Memory

variable {cfg : Config} {n : Nucleus} {d b : Addr}

/-- `sizeof(strand)`: the members up to `ksp` take 128 bytes, `sched_link` 16, `sched_policy` 64 and
`sched_admission` 24. -/
def strandSize : Nat := 232

def strandBodySize : Nat := 976

/-- A `strand` lies at this address. -/
def IsStrand (n : Nucleus) (s : Addr) : Prop :=
  ∃ al, n.world.allocation s = some al ∧ al.home = strandTable

/-- A list as `strand_create_impl` links it: every body on it is a block of its own, to which one of
the domain's strands points. -/
structure Linked (n : Nucleus) (d : Addr) : Prop where
  body : ∀ b ∈ (n.domain d).strands, ∃ body, n.strandBody b = some body
  strand : ∀ b ∈ (n.domain d).strands, ∃ s, IsStrand n s ∧ (n.strand s).owner = some d ∧
    (n.strand s).body = some b
  apart : ∀ b ∈ (n.domain d).strands, ∀ s, IsStrand n s →
    s + strandSize ≤ b ∨ b + strandBodySize ≤ s

/-- From every node the strand is found whose `body` points to the body around the node. -/
def Recovers (n : Nucleus) (d : Addr) : Prop :=
  ∀ b ∈ (n.domain d).strands, ∃ s, strandOfBody n b = .ok s ∧ (n.strand s).body = some b

/-- A strand 104 bytes before a body begins no later than the body and ends behind its first
byte. -/
theorem not_apart_at_offset {b : Nat} :
    ¬ (b - 104 + strandSize ≤ b ∨ b + strandBodySize ≤ b - 104) := by
  unfold strandSize strandBodySize
  omega

theorem isStrand_of_strandOfBody {s : Addr} (h : strandOfBody n b = .ok s) :
    s = b - 104 ∧ IsStrand n s := by
  unfold strandOfBody at h
  split_ifs at h with hany
  cases h
  rw [Option.any_eq_true] at hany
  obtain ⟨al, hal, hhome⟩ := hany
  exact ⟨rfl, al, hal, eq_of_beq hhome⟩

/-- The computed address belongs to no strand at all, let alone to the right one. -/
theorem Linked.strandOfBody_eq (h : Linked n d) (hb : b ∈ (n.domain d).strands) :
    strandOfBody n b = .error .wildPointer := by
  have hnone : ∀ s, strandOfBody n b ≠ .ok s := by
    intro s hs
    obtain ⟨rfl, hstrand⟩ := isStrand_of_strandOfBody hs
    exact not_apart_at_offset (h.apart b hb _ hstrand)
  unfold strandOfBody at hnone ⊢
  split_ifs with hany
  · exact absurd rfl (if_pos hany ▸ hnone (b - 104))
  · rfl

theorem Linked.recovers_iff (h : Linked n d) : Recovers n d ↔ (n.domain d).strands = [] := by
  constructor
  · intro hrec
    refine List.eq_nil_iff_forall_not_mem.mpr fun b hb => ?_
    obtain ⟨s, hs, -⟩ := hrec b hb
    rw [h.strandOfBody_eq hb] at hs
    cases hs
  · intro hnil b hb
    rw [hnil] at hb
    cases hb

theorem Linked.updatePrimary (h : Linked n d) (f : Domain → Domain)
    (hf : (f (n.domain d)).strands = (n.domain d).strands) : Linked (n.updateDomain d f) d := by
  have hlist : ((n.updateDomain d f).domain d).strands = (n.domain d).strands := by
    simp only [Nucleus.updateDomain, Function.update_self]
    exact hf
  constructor
  · rw [hlist]; exact h.body
  · rw [hlist]; exact h.strand
  · rw [hlist]; exact h.apart

theorem Linked.quiesceStrands_eq (h : Linked n d) (hne : (n.domain d).strands ≠ []) :
    quiesceStrands (n.domain d).strands n = .error .wildPointer := by
  cases hlist : (n.domain d).strands with
  | nil => exact absurd hlist hne
  | cons b bs =>
    have hwild := h.strandOfBody_eq (b := b) (by rw [hlist]; exact List.mem_cons_self)
    rw [quiesceStrands, hwild]
    rfl

theorem Linked.quiesceDomain_eq (h : Linked n d)
    (hidle : ¬ (n.currentDomain = some d ∨ (n.domain d).primaryStrand.substate = .running))
    (hne : (n.domain d).strands ≠ []) : quiesceDomain n d = .error .wildPointer := by
  unfold quiesceDomain
  rw [if_neg hidle]
  dsimp only
  split_ifs with hrq
  · have h' := h.updatePrimary
      (fun dom => { dom with primaryStrand := dequeue dom.primaryStrand }) rfl
    refine h'.quiesceStrands_eq ?_
    simpa only [Nucleus.updateDomain, Function.update_self] using hne
  · exact h.quiesceStrands_eq hne

theorem freeStrands_cons_eq {bs : List Addr} {body : StrandBody}
    (hbody : n.strandBody b = some body)
    (hwild : strandOfBody n b = .error .wildPointer) :
    freeStrands cfg d (b :: bs) n = .error .wildPointer := by
  -- neither the body nor the strand objects change when the node is taken off the list
  have hat : (n.updateDomain d fun dom => { dom with strands := bs }).bodyAt (some b) =
      .ok (b, body) := by
    simp only [Nucleus.bodyAt, Nucleus.updateDomain, hbody]
    rfl
  have hof : strandOfBody (n.updateDomain d fun dom => { dom with strands := bs }) b =
      .error .wildPointer := hwild
  rw [freeStrands]
  dsimp only
  rw [hat]
  show (do let s ← strandOfBody _ b; _) = _
  rw [hof]
  rfl

theorem Linked.freeStrands_eq (h : Linked n d) (hne : (n.domain d).strands ≠ []) :
    freeStrands cfg d (n.domain d).strands n = .error .wildPointer := by
  cases hlist : (n.domain d).strands with
  | nil => exact absurd hlist hne
  | cons b bs =>
    have hb : b ∈ (n.domain d).strands := by rw [hlist]; exact List.mem_cons_self
    obtain ⟨body, hbody⟩ := h.body b hb
    exact freeStrands_cons_eq hbody (h.strandOfBody_eq hb)

/-- **The strand list is walked exactly iff it is empty.** On any other list the address computed
from a node is no strand: `quiesce_domain`, unless it is refused before the list, and the loop of
`domain_destroy` use a wild pointer. -/
theorem strand_recovery_iff (h : Linked n d) : (Recovers n d ↔ (n.domain d).strands = []) ∧
    ((n.domain d).strands ≠ [] →
      (∀ b ∈ (n.domain d).strands, strandOfBody n b = .error .wildPointer) ∧
      (¬ (n.currentDomain = some d ∨ (n.domain d).primaryStrand.substate = .running) →
        quiesceDomain n d = .error .wildPointer) ∧
      ∀ cfg, freeStrands cfg d (n.domain d).strands n = .error .wildPointer) :=
  ⟨h.recovers_iff, fun hne => ⟨fun _ hb => h.strandOfBody_eq hb,
    fun hidle => h.quiesceDomain_eq hidle hne, fun _ => h.freeStrands_eq hne⟩⟩

/-- The nucleus domain, at 1000, with one strand, at 5000, whose body lies at 6000. -/
def oneStrand : Nucleus :=
  let n := Nucleus.boot fun _ => {}
  { n with
    world := { n.world with
      allocation := fun a => if a = 5000 then some ⟨0, strandTable⟩ else none }
    domain := fun d => if d = 1000 then { strands := [6000] } else {}
    strand := fun s => if s = 5000 then { owner := some 1000, body := some 6000 } else {}
    strandBody := fun b => if b = 6000 then some {} else none }

theorem isStrand_oneStrand {s : Addr} (h : IsStrand oneStrand s) : s = 5000 := by
  obtain ⟨al, hal, -⟩ := h
  by_contra hne
  have hnone : oneStrand.world.allocation s = none := if_neg hne
  rw [hnone] at hal
  cases hal

theorem linked_oneStrand : Linked oneStrand 1000 where
  body := fun b hb => by
    obtain rfl := List.mem_singleton.mp hb
    exact ⟨{}, rfl⟩
  strand := fun b hb => by
    obtain rfl := List.mem_singleton.mp hb
    exact ⟨5000, ⟨_, rfl, rfl⟩, rfl, rfl⟩
  apart := fun b hb s hs => by
    obtain rfl := List.mem_singleton.mp hb
    obtain rfl := isStrand_oneStrand hs
    decide

/-- The strand at 5000 is sought at 5896. -/
theorem strand_recovery_oneStrand : Linked oneStrand 1000 ∧ ¬ Recovers oneStrand 1000 ∧
    quiesceDomain oneStrand 1000 = .error .wildPointer := by
  have hne : (oneStrand.domain 1000).strands ≠ [] := by decide
  have h := strand_recovery_iff linked_oneStrand
  exact ⟨linked_oneStrand, fun hrec => hne (h.1.mp hrec), (h.2 hne).2.1 (by decide)⟩

/-- After the boot sequence `strand_create` makes a strand of the nucleus domain, whose body is then
on the list; from its node both loops compute an address that is no strand. -/
theorem strand_recovery_wild : ∃ n n₁, (nucleusMachine smallConfig).Reachable n ∧
    strandCreate smallConfig n (some 1000) 0 strandPlenty = .ok (.ok 5000, n₁) ∧
    (n₁.domain 1000).strands = [6000] ∧ (n₁.strand 5000).body = some 6000 ∧
    strandOfBody n₁ 6000 = .error .wildPointer ∧ quiesceStrands [6000] n₁ = .error .wildPointer ∧
    freeStrands smallConfig 1000 [6000] n₁ = .error .wildPointer := by
  obtain ⟨n, hreach, hcreate⟩ := reachable_with
    (Q := fun n => Post (fun _ => False)
      (fun r => r.1 = .ok 5000 ∧ (r.2.domain 1000).strands = [6000] ∧
        (r.2.strand 5000).body = some 6000 ∧ (r.2.strandBody 6000).isSome = true ∧
        ((r.2.world.allocation 5896).any fun al => al.home == strandTable) = false)
      (strandCreate smallConfig n (some 1000) 0 strandPlenty))
    bootOps (by decide +kernel)
  obtain ⟨⟨_, n₁⟩, hn₁, rfl, hlist, hpoints, hlive, hnone⟩ := hcreate.total
  have hwild : strandOfBody n₁ 6000 = .error .wildPointer := if_neg (by simpa using hnone)
  obtain ⟨body, hbody⟩ := Option.isSome_iff_exists.mp hlive
  refine ⟨n, n₁, hreach, hn₁, hlist, hpoints, hwild, ?_, ?_⟩
  · rw [quiesceStrands, hwild]
    rfl
  · exact freeStrands_cons_eq hbody hwild

end ZXFoundation.Dgp.Domain
