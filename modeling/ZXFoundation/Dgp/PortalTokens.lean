import ZXFoundation.Arch.Aste
import ZXFoundation.Lib.Run

/-!
# The tokens of portals over whole histories

A portal gives its source domain a token for an access-list entry, and the entry designates an ASTE
by its address and its sequence number. The sequence number of every ASTE is 1, so an entry that
outlives its ASTE designates whatever is installed there next. The sequence number of an entry has
eight bits and skips 0, so the 255th reuse of an entry accepts the first token again.

The history keeps how often each ASTE was allocated, for which allocation each entry was made, how
often each entry was given up, and the tokens that were given up.
-/

namespace ZXFoundation.Dgp.PortalTokens

open Arch.Aste Runs Function AccessList

/-- `portal_desc`: what `portal_destroy` gives back of it in the access-list tables. -/
structure Desc where
  active : Bool := false
  sourceDomain : Nat := 0
  targetDomain : Nat := 0
  alet : UInt32 := 0
  asteIndex : Nat := 0xFFFFFFFF
  deriving DecidableEq, Repr

structure Tokens where
  table : Table := { initialized := true }
  /-- The domains that `domain_find` finds, with their access lists. -/
  domain : Nat → Option AccessList := fun _ => none
  portal : Nat → Option Desc := fun _ => none
  /-- How often the ASTE has been allocated. -/
  serial : Nat → Nat := fun _ => 0
  /-- The allocation that the entry of the domain's access list was created for. -/
  madeFor : Nat → Nat → Nat := fun _ _ => 0
  /-- How often the entry has been given up since the list was set up. -/
  given : Nat → Nat → Nat := fun _ _ => 0
  /-- The tokens that were destroyed, by the domain of their list. -/
  dead : List (Nat × UInt32) := []

namespace Tokens

variable (S : Tokens)

/-! ## The access-list calls -/

def asteAlloc (asce : UInt64) (ax : Nat) : Except KernelError (Nat × Tokens) := do
  let (i, table) ← S.table.alloc asce ax
  return (i, { S with table := table, serial := update S.serial i (S.serial i + 1) })

def asteFree (i : Nat) : Except KernelError Tokens := do
  let table ← S.table.free i
  return { S with table := table }

def aleCreate (d i : Nat) : Except KernelError (UInt32 × Tokens) :=
  match S.domain d with
  | none => .error (.generic .notFound)
  | some L => do
    let (alet, L) ← L.create S.table i
    return (alet, { S with
      domain := update S.domain d (some L)
      madeFor := update S.madeFor d (update (S.madeFor d) (aletAlen alet) (S.serial i)) })

def aleDestroy (d : Nat) (alet : UInt32) : Except KernelError Tokens :=
  match S.domain d with
  | none => .error (.generic .notFound)
  | some L => do
    let L ← L.destroy S.table alet
    return { S with
      domain := update S.domain d (some L)
      given := update S.given d (update (S.given d) (aletAlen alet) (S.given d (aletAlen alet) + 1))
      dead := (d, alet) :: S.dead }

def discard (r : Except KernelError Tokens) : Tokens :=
  match r with
  | .ok S' => S'
  | .error _ => S

def setPortal (id : Nat) (desc : Option Desc) : Tokens :=
  { S with portal := update S.portal id desc }

/-! ## Portals -/

/-- `g_portal_table.release`. A portal that the object layer does not let go stays in its slot,
dying. -/
def releaseSlot (id : Nat) (released : Bool) : Tokens :=
  S.setPortal id (if released then none
    else (S.portal id).map fun desc => { desc with active := false })

/-- What `portal_create` meets. -/
structure CreateAnswers where
  /-- The arguments are valid, the call is authorized, an access register is free. -/
  admitted : Bool := true
  /-- `g_portal_table.alloc`. -/
  slot : Option Nat := none
  /-- The steps from the slot to `portal_root_create`: the address space of the portal. -/
  root : Option UInt64 := none
  /-- `g_portal_table.release` in the rollback. -/
  released : Bool := true

/-- `portal_create`. The rollback of an ALE is not reached: nothing fails after `ale_create`. -/
def portalCreate (source target : Nat) (answers : CreateAnswers) : Tokens :=
  if (S.domain source).isNone ∨ (S.domain target).isNone ∨ !answers.admitted then S
  else match answers.slot with
    | none => S
    | some id =>
      let desc : Desc := { sourceDomain := source, targetDomain := target }
      match answers.root with
      | none => (S.setPortal id (some desc)).releaseSlot id answers.released
      | some asce =>
        match S.asteAlloc asce 0 with
        | .error _ => (S.setPortal id (some desc)).releaseSlot id answers.released
        | .ok (i, S) =>
          match S.aleCreate source i with
          | .error _ =>
            let S := S.discard (S.asteFree i)
            (S.setPortal id (some { desc with asteIndex := i })).releaseSlot id answers.released
          | .ok (alet, S) =>
            S.setPortal id (some { desc with active := true, alet := alet, asteIndex := i })

/-- What `portal_destroy` and `destroy_for_domain` share. A source that is not found keeps
nothing. -/
def teardown (desc : Desc) : Tokens :=
  let S := if (S.domain desc.sourceDomain).isSome ∧ desc.alet.toNat > aletReservedMax then
      S.discard (S.aleDestroy desc.sourceDomain desc.alet)
    else S
  if desc.asteIndex ≠ 0xFFFFFFFF then S.discard (S.asteFree desc.asteIndex) else S

/-- `portal_destroy`. `revoked` says that the capabilities were revoked and that the source, if it
is found, let the teardown begin. -/
def portalDestroy (id : Nat) (revoked released : Bool) : Tokens :=
  match S.portal id with
  | none => S
  | some desc => if !revoked then S else (S.teardown desc).releaseSlot id released

/-- One turn of the loop of `destroy_if` in `destroy_for_domain`. -/
def destroyMatching (domainId : Nat) (released : Nat → Bool) (id : Nat) : Tokens :=
  match S.portal id with
  | none => S
  | some desc =>
    if desc.active ∧ (desc.sourceDomain = domainId ∨ desc.targetDomain = domainId) then
      (S.teardown desc).releaseSlot id (released id)
    else S

def maxPortals : Nat := 1024

def destroyForDomain (domainId : Nat) (released : Nat → Bool) : Tokens :=
  (List.range maxPortals).foldl (fun S id => S.destroyMatching domainId released id) S

/-! ## Domains -/

/-- `domain_create`: the new domain has a fresh context from `art_context_init`, and no token for it
was ever made. -/
def enter (d : Nat) : Tokens :=
  { S with
    domain := update S.domain d (some { present := true })
    given := update S.given d fun _ => 0
    dead := S.dead.filter fun p => p.1 ≠ d }

/-- `art_context_destroy`, in `domain_destroy`. -/
def closeContext (d : Nat) : Tokens :=
  { S with domain := update S.domain d ((S.domain d).map fun _ => {}) }

/-- The domain's slot is released, after its context. -/
def leave (d : Nat) : Tokens := { S with domain := update S.domain d none }

end Tokens

open Tokens

/-! ## Histories -/

inductive TokenOp where
  | asteAlloc (asce : UInt64) (ax : Nat)
  | asteFree (i : Nat)
  | aleCreate (d i : Nat)
  | aleDestroy (d : Nat) (alet : UInt32)
  | portalCreate (source target : Nat) (answers : CreateAnswers)
  | portalDestroy (id : Nat) (revoked released : Bool)
  | destroyForDomain (d : Nat) (released : Nat → Bool)
  | enter (d : Nat)
  | closeContext (d : Nat)
  | leave (d : Nat)

/-- The state after a call. The portal table hands out free slots, a domain that enters is new, and
one that leaves has no context. -/
def next (S : Tokens) : TokenOp → Option Tokens
  | .asteAlloc asce ax => some (S.discard ((S.asteAlloc asce ax).map (·.2)))
  | .asteFree i => some (S.discard (S.asteFree i))
  | .aleCreate d i => some (S.discard ((S.aleCreate d i).map (·.2)))
  | .aleDestroy d alet => some (S.discard (S.aleDestroy d alet))
  | .portalCreate source target answers =>
    if answers.slot.any fun id => (S.portal id).isSome then none
    else some (S.portalCreate source target answers)
  | .portalDestroy id revoked released => some (S.portalDestroy id revoked released)
  | .destroyForDomain d released => some (S.destroyForDomain d released)
  | .enter d => if S.domain d = none then some (S.enter d) else none
  | .closeContext d => some (S.closeContext d)
  | .leave d => if (S.domain d).any (·.present) then none else some (S.leave d)

def tokenMachine : Machine Tokens TokenOp := .ofNext (· = {}) next

/-- Every valid entry of a live context designates the allocation it was created for: it names an
ASTE by address, the sequence number is the same for all allocations of it, and the last one is that
allocation. And no destroyed token is accepted. -/
structure Sound (S : Tokens) : Prop where
  designates : ∀ d L k, S.domain d = some L → L.present = true → L.Taken k →
    S.serial (L.entry k).asteIndex = S.madeFor d k
  refused : ∀ d L alet, S.domain d = some L → (d, alet) ∈ S.dead → ¬ L.Accepts alet

/-- The ASTE that `aste_alloc` takes is designated by no valid entry. -/
def SparesAste (S : Tokens) (asce : UInt64) (ax : Nat) : Prop :=
  ∀ i S', S.asteAlloc asce ax = .ok (i, S') →
    ∀ d L k, S.domain d = some L → L.present = true → L.Taken k → (L.entry k).asteIndex ≠ i

/-- The entry that `ale_create` takes was given up fewer than 255 times. -/
def SparesAle (S : Tokens) (d i : Nat) : Prop :=
  ∀ alet S', S.aleCreate d i = .ok (alet, S') → S.given d (aletAlen alet) < 255

/-- `portal_create` takes an ASTE and then an entry, if it gets that far. -/
def SparesPortal (S : Tokens) (source target : Nat) (answers : CreateAnswers) : Prop :=
  ¬ ((S.domain source).isNone ∨ (S.domain target).isNone ∨ !answers.admitted) →
    answers.slot.isSome → ∀ asce, answers.root = some asce →
      SparesAste S asce 0 ∧ ∀ i S', S.asteAlloc asce 0 = .ok (i, S') → SparesAle S' source i

/-- The calls that take an ASTE or an entry take one that nothing stale refers to. -/
def Spares (S : Tokens) : TokenOp → Prop
  | .asteAlloc asce ax => SparesAste S asce ax
  | .aleCreate d i => SparesAle S d i
  | .portalCreate source target answers => SparesPortal S source target answers
  | _ => True

/-! ## Sequence numbers -/

/-- The sequence number of an entry that was given up `n` times. -/
def sequenceOf (n : Nat) : UInt8 := UInt8.ofNat (1 + n % 255)

theorem aleSequenceNext_sequenceOf {n : Nat} :
    aleSequenceNext (sequenceOf n) = sequenceOf (n + 1) := by
  have hall : ∀ m : Fin 255, aleSequenceNext (UInt8.ofNat (1 + m.val)) =
      UInt8.ofNat (1 + (m.val + 1) % 255) := by decide +kernel
  have hmod : (n + 1) % 255 = (n % 255 + 1) % 255 := by omega
  unfold sequenceOf
  rw [hmod]
  exact hall ⟨n % 255, Nat.mod_lt _ (by decide)⟩

theorem sequenceOf_inj {m n : Nat} (h : sequenceOf m = sequenceOf n) : m % 255 = n % 255 := by
  have hnat := congrArg UInt8.toNat h
  unfold sequenceOf at hnat
  rw [UInt8.toNat_ofNat', UInt8.toNat_ofNat'] at hnat
  omega

/-! ## The books of one access list -/

/-- The designations of an access list, and what its history says about sequence numbers and dead
tokens. Every sequence number before the present one of an entry belongs to a dead token. -/
structure Books (serial madeFor given : Nat → Nat) (dead : UInt32 → Prop) (L : AccessList) :
    Prop where
  designates : ∀ k, L.Taken k → serial (L.entry k).asteIndex = madeFor k
  sequence : ∀ k, L.sequence k = sequenceOf (given k)
  entry : ∀ k, L.Taken k → (L.entry k).sequence = L.sequence k ∧ given k < 255
  dead_lt : ∀ alet, dead alet → ∃ j < given (aletAlen alet), aletAlesn alet = sequenceOf j
  dead_all : ∀ k j, j < given k →
    ∃ alet, dead alet ∧ aletReserved alet = 0 ∧ aletAlen alet = k ∧ aletAlesn alet = sequenceOf j

section Books

variable {serial madeFor given : Nat → Nat} {dead : UInt32 → Prop} {L L' : AccessList} {T : Table}
    {i : Nat}
  {alet : UInt32}

theorem books_fresh : Books serial madeFor (fun _ => 0) (fun _ => False) { present := true } where
  designates := fun k hk => by cases hk.2.2
  sequence := fun _ => rfl
  entry := fun k hk => by cases hk.2.2
  dead_lt := fun _ hdead => hdead.elim
  dead_all := fun _ _ hj => absurd hj (Nat.not_lt_zero _)

variable (h : Books serial madeFor given dead L)
include h

theorem Books.refused (hdead : dead alet) : ¬ L.Accepts alet := by
  intro hacc
  obtain ⟨hseq, hlt⟩ := h.entry _ hacc.taken
  obtain ⟨j, hj, halesn⟩ := h.dead_lt alet hdead
  -- fewer than 255 incarnations of an entry have pairwise different sequence numbers
  rw [hacc.sequence, halesn, h.sequence] at hseq
  have hmod := sequenceOf_inj hseq
  omega

theorem Books.allocated (hspares : ∀ k, L.Taken k → (L.entry k).asteIndex ≠ i) :
    Books (update serial i (serial i + 1)) madeFor given dead L := by
  refine ⟨fun k hk => ?_, h.sequence, h.entry, h.dead_lt, h.dead_all⟩
  rw [update_of_ne (hspares k hk)]
  exact h.designates k hk

theorem Books.created (hok : L.create T i = .ok (alet, L'))
    (hspares : given (aletAlen alet) < 255) :
    Books serial (update madeFor (aletAlen alet) (serial i)) given dead L' := by
  obtain ⟨-, -, hseq, -, -, -, -, hnew, hkeep⟩ := create_ok hok
  refine ⟨fun j hj => ?_, fun j => ?_, fun j hj => ?_, h.dead_lt, h.dead_all⟩
  · by_cases hk : j = aletAlen alet
    · rw [hk, hnew, update_self]
    · rw [update_of_ne hk, hkeep j hk]
      exact h.designates j ((taken_congr (hkeep j hk)).mp hj)
  · rw [hseq]
    exact h.sequence j
  · rw [hseq]
    by_cases hk : j = aletAlen alet
    · rw [hk, hnew]
      exact ⟨rfl, hspares⟩
    · rw [hkeep j hk]
      exact h.entry j ((taken_congr (hkeep j hk)).mp hj)

theorem Books.resurrected (hok : L.create T i = .ok (alet, L'))
    (hspent : 255 ≤ given (aletAlen alet)) : ∃ old, dead old ∧ L'.Accepts old := by
  obtain ⟨-, hpresent, -, -, hlo, hhi, -, hnew, -⟩ := create_ok hok
  generalize hk : aletAlen alet = k at *
  obtain ⟨old, hdead, hreserved, hold, halesn⟩ := h.dead_all k (given k - 255) (by omega)
  refine ⟨old, hdead, hpresent, hreserved, ?_, ?_⟩
  · rw [hold]
    exact ⟨hlo, hhi, by rw [hnew]⟩
  rw [hold, hnew, halesn, h.sequence k]
  have hmod : given k % 255 = (given k - 255) % 255 := by omega
  unfold sequenceOf
  rw [hmod]

theorem Books.destroyed (hok : L.destroy T alet = .ok L') :
    Books serial madeFor (update given (aletAlen alet) (given (aletAlen alet) + 1))
      (fun a => a = alet ∨ dead a) L' := by
  obtain ⟨hacc, -, hinvalid, hnext, hkeep⟩ := destroy_ok hok
  have halesn : aletAlesn alet = sequenceOf (given (aletAlen alet)) := by
    rw [← hacc.sequence, (h.entry _ hacc.taken).1, h.sequence]
  generalize hk : aletAlen alet = k at *
  -- the entry is invalid now, so what is taken was taken before
  have htaken : ∀ j, L'.Taken j → j ≠ k ∧ L.Taken j := by
    intro j hj
    have hjk : j ≠ k := by
      rintro rfl
      rw [hj.2.2] at hinvalid
      cases hinvalid
    exact ⟨hjk, (taken_congr (hkeep j hjk).1).mp hj⟩
  refine ⟨fun j hj => ?_, fun j => ?_, fun j hj => ?_, ?_, fun j m hm => ?_⟩
  · obtain ⟨hjk, hj⟩ := htaken j hj
    rw [(hkeep j hjk).1]
    exact h.designates j hj
  · by_cases hjk : j = k
    · rw [hjk, hnext, update_self, h.sequence, aleSequenceNext_sequenceOf]
    · rw [(hkeep j hjk).2, update_of_ne hjk]
      exact h.sequence j
  · obtain ⟨hjk, hj⟩ := htaken j hj
    rw [(hkeep j hjk).1, (hkeep j hjk).2, update_of_ne hjk]
    exact h.entry j hj
  · rintro a (rfl | hdead)
    · rw [hk, update_self]
      exact ⟨given k, Nat.lt_succ_self _, halesn⟩
    obtain ⟨m, hm, hseq⟩ := h.dead_lt a hdead
    refine ⟨m, ?_, hseq⟩
    by_cases hak : aletAlen a = k
    · rw [hak] at hm ⊢
      rw [update_self]
      omega
    · rwa [update_of_ne hak]
  · by_cases hjk : j = k
    · subst hjk
      rw [update_self] at hm
      rcases Nat.lt_succ_iff_lt_or_eq.mp hm with hlt | rfl
      · obtain ⟨a, hdead, hrest⟩ := h.dead_all j m hlt
        exact ⟨a, .inr hdead, hrest⟩
      · exact ⟨alet, .inl rfl, hacc.reserved, hk, halesn⟩
    · rw [update_of_ne hjk] at hm
      obtain ⟨a, hdead, hrest⟩ := h.dead_all j m hm
      exact ⟨a, .inr hdead, hrest⟩

end Books

/-! ## One call -/

/-- The books of every live context are in order. -/
def Inv (S : Tokens) : Prop :=
  ∀ d L, S.domain d = some L → L.present = true →
    Books S.serial (S.madeFor d) (S.given d) (fun alet => (d, alet) ∈ S.dead) L

variable {S S' : Tokens} {d i : Nat} {alet : UInt32}

theorem Inv.sound (h : Inv S) : Sound S where
  designates := fun d L k hd hpresent hk => (h d L hd hpresent).designates k hk
  refused := fun d L _ hd hdead hacc => (h d L hd hacc.present).refused hdead hacc

theorem Inv.of_domain (h : Inv S) (hserial : S'.serial = S.serial)
    (hother : ∀ d', d' ≠ d → S'.domain d' = S.domain d' ∧ S'.madeFor d' = S.madeFor d' ∧
      S'.given d' = S.given d' ∧ ∀ alet, (d', alet) ∈ S'.dead ↔ (d', alet) ∈ S.dead)
    (hself : ∀ L, S'.domain d = some L → L.present = true →
      Books S.serial (S'.madeFor d) (S'.given d) (fun alet => (d, alet) ∈ S'.dead) L) : Inv S' := by
  intro d' L hd' hpresent
  by_cases hd : d' = d
  · subst hd
    rw [hserial]
    exact hself L hd' hpresent
  obtain ⟨hdomain, hmade, hgiven, hdead⟩ := hother d' hd
  rw [hserial, hmade, hgiven]
  simp only [hdead]
  exact h d' L (hdomain ▸ hd') hpresent

variable {asce : UInt64} {ax : Nat}

theorem asteAlloc_ok (h : S.asteAlloc asce ax = .ok (i, S')) :
    ∃ T, S' = { S with table := T, serial := update S.serial i (S.serial i + 1) } := by
  unfold Tokens.asteAlloc at h
  cases htable : S.table.alloc asce ax with
  | error e => rw [htable] at h; cases h
  | ok r => rw [htable] at h; cases h; exact ⟨r.2, rfl⟩

theorem Inv.asteAlloc (h : Inv S) (hspares : SparesAste S asce ax)
    (hok : S.asteAlloc asce ax = .ok (i, S')) : Inv S' := by
  have hfree := hspares i S' hok
  obtain ⟨T, rfl⟩ := asteAlloc_ok hok
  intro d L hd hpresent
  exact (h d L hd hpresent).allocated fun k hk => hfree d L k hd hpresent hk

/-- A valid entry of a live context designates an allocation that it was not created for. -/
def Misdesignates (S : Tokens) : Prop :=
  ∃ d L k, S.domain d = some L ∧ L.present = true ∧ L.Taken k ∧
    S.serial (L.entry k).asteIndex ≠ S.madeFor d k

theorem Misdesignates.not_sound (h : Misdesignates S) : ¬ Sound S := by
  obtain ⟨d, L, k, hd, hpresent, hk, hne⟩ := h
  exact fun hsound => hne (hsound.designates d L k hd hpresent hk)

section

variable (h : Inv S)
include h

theorem Inv.misdesignates (hnot : ¬ SparesAste S asce ax) :
    ∃ i S', S.asteAlloc asce ax = .ok (i, S') ∧ Misdesignates S' := by
  simp only [SparesAste, not_forall, not_not] at hnot
  obtain ⟨i, S', hok, d, L, k, hd, hpresent, hk, hi⟩ := hnot
  have hold := (h d L hd hpresent).designates k hk
  refine ⟨i, S', hok, d, L, k, ?_⟩
  obtain ⟨T, rfl⟩ := asteAlloc_ok hok
  refine ⟨hd, hpresent, hk, ?_⟩
  dsimp only
  rw [hi, update_self, ← hold, hi]
  omega

theorem Inv.asteFree : Inv (S.discard (S.asteFree i)) := by
  unfold Tokens.asteFree
  cases S.table.free i with
  | error e => exact h
  | ok T => exact h

omit h in
theorem aleCreate_ok (h : S.aleCreate d i = .ok (alet, S')) :
    ∃ L L', S.domain d = some L ∧ L.create S.table i = .ok (alet, L') ∧
      S' = { S with
        domain := update S.domain d (some L')
        madeFor := update S.madeFor d (update (S.madeFor d) (aletAlen alet) (S.serial i)) } := by
  unfold Tokens.aleCreate at h
  cases hd : S.domain d with
  | none => rw [hd] at h; cases h
  | some L =>
    rw [hd] at h
    cases hlist : L.create S.table i with
    | error e => simp only [hlist] at h; cases h
    | ok r => simp only [hlist] at h; cases h; exact ⟨L, r.2, rfl, hlist, rfl⟩

omit h in
theorem Misdesignates.aleCreate (h : Misdesignates S) (hok : S.aleCreate d i = .ok (alet, S')) :
    Misdesignates S' := by
  obtain ⟨d₁, L₁, k, hd₁, hpresent, hk, hne⟩ := h
  obtain ⟨L, L', hd, hlist, rfl⟩ := aleCreate_ok hok
  by_cases heq : d₁ = d
  · subst heq
    rw [hd] at hd₁
    cases hd₁
    obtain ⟨-, hpresent', -, -, -, -, hinvalid, -, hkeep⟩ := create_ok hlist
    have hother : k ≠ aletAlen alet := by
      rintro rfl
      rw [hk.2.2] at hinvalid
      cases hinvalid
    refine ⟨d₁, L', k, update_self .., hpresent', (taken_congr (hkeep k hother)).mpr hk, ?_⟩
    dsimp only
    rw [update_self, update_of_ne hother, hkeep k hother]
    exact hne
  · refine ⟨d₁, L₁, k, ?_, hpresent, hk, ?_⟩
    · exact (update_of_ne heq ..).trans hd₁
    · dsimp only
      rw [update_of_ne heq]
      exact hne

theorem Inv.aleCreate (hspares : SparesAle S d i) (hok : S.aleCreate d i = .ok (alet, S')) :
    Inv S' := by
  have hlt := hspares alet S' hok
  obtain ⟨L, L', hd, hlist, rfl⟩ := aleCreate_ok hok
  refine h.of_domain (d := d) rfl (fun d' hd' => ?_) fun L₁ hL₁ _ => ?_
  · exact ⟨update_of_ne hd' .., update_of_ne hd' .., rfl, fun _ => Iff.rfl⟩
  dsimp only at hL₁ ⊢
  rw [update_self] at hL₁ ⊢
  cases hL₁
  exact (h d L hd (create_ok hlist).1).created hlist hlt

theorem Inv.not_refused (hnot : ¬ SparesAle S d i) :
    ∃ alet S', S.aleCreate d i = .ok (alet, S') ∧ ¬ Sound S' := by
  simp only [SparesAle, not_forall, Nat.not_lt] at hnot
  obtain ⟨alet, S', hok, hspent⟩ := hnot
  refine ⟨alet, S', hok, fun hsound => ?_⟩
  obtain ⟨L, L', hd, hlist, rfl⟩ := aleCreate_ok hok
  obtain ⟨old, hdead, hacc⟩ := (h d L hd (create_ok hlist).1).resurrected hlist hspent
  exact hsound.refused d L' old (update_self ..) hdead hacc

theorem Inv.aleDestroy : Inv (S.discard (S.aleDestroy d alet)) := by
  unfold Tokens.aleDestroy
  cases hd : S.domain d with
  | none => exact h
  | some L =>
  cases hlist : L.destroy S.table alet with
  | error e => simp only [hlist]; exact h
  | ok L' =>
  simp only [hlist]
  have hbooks := (h d L hd (destroy_ok hlist).1.present).destroyed hlist
  refine h.of_domain (d := d) rfl (fun d' hd' => ?_) fun L₁ hL₁ _ => ?_
  · refine ⟨update_of_ne hd' .., rfl, update_of_ne hd' .., fun a => ?_⟩
    show (d', a) ∈ (d, alet) :: S.dead ↔ _
    simp [hd']
  have hL₁' : update S.domain d (some L') d = some L₁ := hL₁
  rw [update_self] at hL₁'
  cases hL₁'
  show Books S.serial (S.madeFor d) (update S.given d _ d)
    (fun a => (d, a) ∈ (d, alet) :: S.dead) L'
  rw [update_self]
  simpa using hbooks

theorem Inv.enter : Inv (S.enter d) := by
  refine h.of_domain (d := d) rfl (fun d' hd' => ?_) fun L hL _ => ?_
  · refine ⟨update_of_ne hd' .., rfl, update_of_ne hd' .., fun a => ?_⟩
    show (d', a) ∈ S.dead.filter _ ↔ _
    simp [hd']
  have hL' : update S.domain d (some { present := true }) d = some L := hL
  rw [update_self] at hL'
  cases hL'
  show Books S.serial (S.madeFor d) (update S.given d _ d) (fun a => (d, a) ∈ S.dead.filter _) _
  rw [update_self]
  simpa using books_fresh

theorem Inv.close {o : Option AccessList} (ho : ∀ L, o = some L → L.present = false) :
    Inv { S with domain := update S.domain d o } := by
  refine h.of_domain (d := d) rfl (fun d' hd' => ?_) fun L hL hpresent => ?_
  · exact ⟨update_of_ne hd' .., rfl, rfl, fun _ => Iff.rfl⟩
  have hL' : update S.domain d o d = some L := hL
  rw [update_self] at hL'
  rw [ho L hL'] at hpresent
  cases hpresent

/-! ## Portals -/

theorem Inv.teardown {desc : Desc} : Inv (S.teardown desc) := by
  unfold Tokens.teardown
  have hale : Inv (if (S.domain desc.sourceDomain).isSome ∧ desc.alet.toNat > aletReservedMax then
      S.discard (S.aleDestroy desc.sourceDomain desc.alet) else S) := by
    split_ifs
    · exact h.aleDestroy
    · exact h
  dsimp only
  generalize (if (S.domain desc.sourceDomain).isSome ∧ desc.alet.toNat > aletReservedMax then
      S.discard (S.aleDestroy desc.sourceDomain desc.alet) else S) = S₁ at hale ⊢
  split_ifs
  · exact hale.asteFree
  · exact hale

theorem Inv.portalDestroy {id : Nat} {revoked released : Bool} :
    Inv (S.portalDestroy id revoked released) := by
  unfold Tokens.portalDestroy
  split
  · exact h
  · split_ifs
    · exact h
    · exact h.teardown

theorem Inv.destroyMatching {released : Nat → Bool} {id : Nat} :
    Inv (S.destroyMatching d released id) := by
  unfold Tokens.destroyMatching
  split
  · exact h
  · split_ifs
    · exact h.teardown
    · exact h

theorem Inv.destroyForDomain {released : Nat → Bool} : Inv (S.destroyForDomain d released) := by
  unfold Tokens.destroyForDomain
  generalize List.range maxPortals = ids
  induction ids generalizing S with
  | nil => exact h
  | cons id ids ih => exact ih h.destroyMatching

theorem Inv.portalCreate {source target : Nat} {answers : CreateAnswers}
    (hspares : SparesPortal S source target answers) :
    Inv (S.portalCreate source target answers) := by
  unfold Tokens.portalCreate
  split_ifs with hrefused
  · exact h
  split
  · exact h
  next id hslot =>
  dsimp only
  split
  · exact h
  next asce hroot =>
  obtain ⟨haste, hale⟩ := hspares hrefused (by rw [hslot]; rfl) asce hroot
  split
  · exact h
  next i S₁ halloc =>
  have h₁ := h.asteAlloc haste halloc
  split
  · exact h₁.asteFree
  · next alet S₂ hcreate =>
    have h₂ := h₁.aleCreate (hale i S₁ halloc) hcreate
    exact h₂

theorem Inv.not_sound_portalCreate {source target : Nat} {answers : CreateAnswers}
    (hnot : ¬ SparesPortal S source target answers) :
    ¬ Sound (S.portalCreate source target answers) := by
  simp only [SparesPortal, Classical.not_imp, not_forall, not_and_or] at hnot
  obtain ⟨hrefused, hslot, asce, hroot, hnot⟩ := hnot
  obtain ⟨id, hslot⟩ := Option.isSome_iff_exists.mp hslot
  unfold Tokens.portalCreate
  rw [if_neg (by simpa only [not_or] using hrefused)]
  simp only [hslot, hroot]
  by_cases haste : SparesAste S asce 0
  · -- the ASTE is free of entries, so the entry is the stale one
    rcases hnot with hnot | ⟨i, S₁, halloc, hnot⟩
    · exact absurd haste hnot
    · obtain ⟨alet, S₂, hcreate, hbad⟩ := (h.asteAlloc haste halloc).not_refused hnot
      simp only [halloc, hcreate]
      exact fun hsound => hbad ⟨hsound.designates, hsound.refused⟩
  · obtain ⟨i, S₁, halloc, hbad⟩ := h.misdesignates haste
    simp only [halloc]
    cases hcreate : S₁.aleCreate source i with
    | ok r => exact (hbad.aleCreate hcreate).not_sound ∘ fun hsound => ⟨hsound.1, hsound.2⟩
    | error e =>
      -- the ASTE is freed again, but it has been allocated
      unfold Tokens.asteFree
      cases S₁.table.free i <;> exact hbad.not_sound ∘ fun hsound => ⟨hsound.1, hsound.2⟩

/-! ## Histories -/

theorem Inv.next_iff {op : TokenOp} (hnext : next S op = some S') :
    (Spares S op → Inv S') ∧ (¬ Spares S op → ¬ Sound S') := by
  have hspared : Inv S' → (True → Inv S') ∧ (¬ True → ¬ Sound S') :=
    fun h' => ⟨fun _ => h', fun hnot => absurd trivial hnot⟩
  cases op with
  | asteAlloc asce ax =>
    cases hnext
    refine ⟨fun hspares => ?_, fun hnot => ?_⟩
    · cases hok : S.asteAlloc asce ax with
      | error e => exact h
      | ok r => exact h.asteAlloc hspares hok
    · obtain ⟨i, S₁, hok, hbad⟩ := h.misdesignates hnot
      rw [hok]
      exact hbad.not_sound
  | aleCreate d i =>
    cases hnext
    refine ⟨fun hspares => ?_, fun hnot => ?_⟩
    · cases hok : S.aleCreate d i with
      | error e => exact h
      | ok r => exact h.aleCreate hspares hok
    · obtain ⟨alet, S₁, hok, hbad⟩ := h.not_refused hnot
      rw [hok]
      exact hbad
  | portalCreate source target answers =>
    obtain ⟨_, rfl⟩ := of_guard hnext
    exact ⟨h.portalCreate, h.not_sound_portalCreate⟩
  | asteFree i => cases hnext; exact hspared h.asteFree
  | aleDestroy d alet =>
    cases hnext
    exact hspared h.aleDestroy
  | portalDestroy id revoked released =>
    cases hnext
    exact hspared h.portalDestroy
  | destroyForDomain d released =>
    exact hspared (Option.some.inj hnext ▸ h.destroyForDomain)
  | enter d =>
    obtain ⟨_, rfl⟩ := of_allow hnext
    exact hspared h.enter
  | closeContext d =>
    cases hnext
    refine hspared (h.close fun L hL => ?_)
    obtain ⟨L', -, rfl⟩ := Option.map_eq_some_iff.mp hL
    rfl
  | leave d =>
    obtain ⟨_, rfl⟩ := of_guard hnext
    exact hspared (h.close fun _ hL => nomatch hL)

end

theorem inv_of_reachable (h : (tokenMachine.restrict Spares).Reachable S) : Inv S := by
  refine h.invariant (P := Inv) ?_ ?_
  · rintro S₀ rfl d L hd
    cases hd
  · rintro S₁ op S₂ h₁ ⟨hspares, hnext⟩
    exact (h₁.next_iff hnext).1 hspares

/-- **Tokens are resurrected exactly by taking what something stale refers to.** In every history
whose calls so far have spared the stale references, entries designate what they were created for
and dead tokens are refused, and the next call keeps it so iff it spares them too. -/
theorem tokens_not_resurrected_iff {op : TokenOp} (h : (tokenMachine.restrict Spares).Reachable S)
    (hnext : next S op = some S') : Sound S ∧ (Sound S' ↔ Spares S op) := by
  have hinv := inv_of_reachable h
  obtain ⟨hkeep, hbreak⟩ := hinv.next_iff hnext
  refine ⟨hinv.sound, fun hsound => ?_, fun hspares => (hkeep hspares).sound⟩
  by_contra hnot
  exact hbreak hnot hsound

def twoDomains : Tokens := (({} : Tokens).enter 1).enter 2

theorem reachable_twoDomains : (tokenMachine.restrict Spares).Reachable twoDomains :=
  ⟨{}, [.enter 1, .enter 2], rfl, .cons ⟨trivial, rfl⟩ (.cons ⟨trivial, rfl⟩ (.nil _))⟩

theorem not_taken_twoDomains {d k : Nat} {L : AccessList} (hd : twoDomains.domain d = some L) :
    ¬ L.Taken k := by
  simp only [twoDomains, enter, update_apply] at hd
  split_ifs at hd
  all_goals
    cases hd
    exact fun hk => nomatch hk.2.2

/-- The first portal of domain 1 into domain 2. -/
theorem tokens_not_resurrected_firstPortal :
    Sound (twoDomains.portalCreate 1 2 { slot := some 0, root := some 0xA000 }) := by
  have hnext : next twoDomains (.portalCreate 1 2 { slot := some 0, root := some 0xA000 }) =
    some _ := rfl
  refine (tokens_not_resurrected_iff reachable_twoDomains hnext).2.mpr ?_
  intro _ _ asce _
  refine ⟨fun i S' _ d L k hd _ hk => absurd hk (not_taken_twoDomains hd), fun i S' hok => ?_⟩
  intro alet S'' _
  obtain ⟨T, rfl⟩ := asteAlloc_ok hok
  simp [twoDomains, enter]

/-- Domain 1 has an entry for the ASTE of the address space `0xA000`; the ASTE is freed, and the
next allocation installs `0xB000` behind the entry. -/
def freedFirst : List TokenOp :=
  [.enter 1, .asteAlloc 0xA000 0, .aleCreate 1 0, .asteFree 0, .asteAlloc 0xB000 0]

theorem tokens_resurrected :
    ∃ S, tokenMachine.Reachable S ∧ Misdesignates S ∧ (S.table.entry 0).asce = 0xB000 := by
  have hfreed : (freedFirst.foldlM next {}).any
    (fun (S : Tokens) => (S.domain 1).any fun L => decide
      (L.present = true ∧ L.Taken 3 ∧ (L.entry 3).asteIndex = 0 ∧ S.serial 0 = 2 ∧
        S.madeFor 1 3 = 1 ∧
        (S.table.entry 0).asce = 0xB000)) = true := by
    decide +kernel
  obtain ⟨S, hrun, hS⟩ := (Option.any_eq_true _ _).mp hfreed
  obtain ⟨L, hd, hL⟩ := (Option.any_eq_true _ _).mp hS
  obtain ⟨hpresent, htaken, hindex, hserial, hmade, hasce⟩ := of_decide_eq_true hL
  refine ⟨S, ⟨{}, _, rfl, Machine.exec_ofNext hrun⟩, ⟨1, L, 3, hd, hpresent, htaken, ?_⟩, hasce⟩
  rw [hindex, hserial, hmade]
  decide

end ZXFoundation.Dgp.PortalTokens
