import ZXFoundation.Sys.IoRequests

/-!
# A request is completed once and the binding is ready for the next

Seen from the driver a request is started, runs, has its status on the way, and is done: `Progress`.
`Tracks` says how the binding and the subchannel entry spell each of these stages. The two places
change apart, and it is the status on its way that ties them together.

What breaks the tie: a status that ends the request while `start_io` is still publishing it, a
record or another `unbind` between the two sections of one that gives up, and a status with an
error.
-/

namespace ZXFoundation.Sys.Zxio

open Runs IoSystem Machine IoBinding List Option

/-! ## Records -/

namespace IoBinding

variable (b : IoBinding) (status : Irb)

theorem makeRoom_field {α : Type} (f : IoBinding → α) (hf : ∀ head count dropped, f { b with
    completionHead := head, completionCount := count, completionDropped := dropped } = f b) :
      f b.makeRoom = f b := by
  unfold makeRoom
  split
  · exact hf _ _ _
  · rfl

theorem makeRoom_completion : b.makeRoom.completion status = b.completion status :=
  b.makeRoom_field (·.completion status) fun _ _ _ => rfl

theorem makeRoom_generation : b.makeRoom.generation = b.generation :=
  b.makeRoom_field (·.generation) fun _ _ _ => rfl

end IoBinding

/-- The request that has been accepted and has no record yet. -/
def IoSystem.waiting (S : IoSystem) : List UInt64 :=
  if S.binding.pendingRequestId = 0 ∨ S.submitting = true then [] else [S.binding.pendingRequestId]

/-- Every accepted request has one record or is waiting for it, in order; the records that have not
left are in the ring, in order; and the count of the dropped ones is right. -/
structure Records (S : IoSystem) : Prop where
  ring : ∃ l, Ring.Holds ioCompletionDepth S.binding.completions S.binding.completionHead
    S.binding.completionTail
      S.binding.completionCount l ∧ S.completed.map Prod.snd = S.taken.map Prod.snd ++ l
  drops : S.binding.completionDropped = UInt32.ofNat (S.taken.countP fun t => t.1 = .dropped)
  made : ∀ c ∈ S.completed, c.1 = S.binding.generation
  log : S.accepted = S.completed.map (fun c => c.2.requestId) ++ S.waiting

namespace Records

variable {S : IoSystem}

theorem roomed (h : Records S) :
    ∃ l, Ring.Holds ioCompletionDepth S.binding.makeRoom.completions
      S.binding.makeRoom.completionHead
        S.binding.makeRoom.completionTail S.binding.makeRoom.completionCount l ∧
          l.length < ioCompletionDepth ∧
      ∃ taken, taken = (if S.binding.completionCount = ioCompletionDepth then
          S.taken ++ [(.dropped, S.binding.completions S.binding.completionHead)] else S.taken) ∧
        S.completed.map Prod.snd = taken.map Prod.snd ++ l ∧
        S.binding.makeRoom.completionDropped = UInt32.ofNat
          (taken.countP fun t => t.1 = .dropped) := by
  obtain ⟨l, hholds, hsplit⟩ := h.ring
  unfold makeRoom
  by_cases hfull : S.binding.completionCount = ioCompletionDepth
  · cases l with
    | nil =>
      rw [hholds.count_eq] at hfull
      cases hfull
    | cons e l =>
      have hlen := hholds.count_eq
      rw [length_cons] at hlen
      simp only [if_pos hfull]
      refine ⟨l, hholds.pop fun _ _ => rfl, by omega, _, rfl, ?_, ?_⟩
      · rw [hsplit, hholds.front]
        simp
      · simp [h.drops, UInt32.ofNat_add]
  · simp only [if_neg hfull]
    refine ⟨l, hholds, ?_, S.taken, rfl, hsplit, h.drops⟩
    have hle := hholds.length_le
    have hcount := hholds.count_eq
    omega

theorem enqueued (h : Records S) (hsub : S.submitting = false) (status : Irb) :
    Records (S.enqueueCompletion S.binding.generation status) := by
  unfold enqueueCompletion
  split
  · rename_i hawaits
    have hpend : S.binding.pendingRequestId ≠ 0 := by
      simp only [awaits, Bool.and_eq_true, bne_iff_ne] at hawaits
      exact hawaits.1.2
    obtain ⟨l, hholds, hroom, taken, rfl, hsplit, hdrops⟩ := h.roomed
    refine ⟨⟨l ++ [S.binding.completion status], ?_, ?_⟩, hdrops, fun c hc => ?_, ?_⟩
    · rw [← makeRoom_completion]
      exact hholds.push hroom
    · rw [map_append, hsplit, append_assoc]
      rfl
    · show c.1 = S.binding.makeRoom.generation
      rw [makeRoom_generation]
      rcases mem_append.mp hc with hc | hc
      · exact h.made c hc
      · rw [mem_singleton.mp hc]
    · -- the pending request has its record
      have hlog := h.log
      rw [waiting, if_neg (by simp [hpend, hsub])] at hlog
      simp [waiting, finish, completion, hlog]
  · exact h

theorem dequeued (h : Records S) : Records S.completionDequeue.2 := by
  unfold completionDequeue
  split
  · exact h
  rename_i hcount
  obtain ⟨l, hholds, hsplit⟩ := h.ring
  cases l with
  | nil => exact absurd hholds.count_eq hcount
  | cons e l =>
    refine ⟨⟨l, hholds.pop fun _ _ => rfl, ?_⟩, ?_, h.made, h.log⟩
    · rw [hsplit, ← hholds.front]
      simp
    · simp [h.drops]

end Records

/-! ## Stages of a request -/

inductive Progress where
  | idle
  /-- `start_io` has published the request and not returned. -/
  | starting
  | running
  /-- The interrupt has been taken and the sink not called. -/
  | finishing (d : Delivery)

namespace IoSystem

variable (S : IoSystem)

/-- The statuses on their way to this generation of the binding. -/
def ownDeliveries : List Delivery := S.inflight.filter fun d => d.generation = S.binding.generation

def Busy : Prop := S.entry.state = .active ∧ S.entry.activeBindingId = some S.binding.id

def Tracks : Progress → Prop
  | .idle =>
    S.submitting = false ∧ S.binding.pendingRequestId = 0 ∧ S.entry.state = .idle ∧
      S.ownDeliveries = []
  | .starting => S.submitting = true ∧ S.binding.pendingRequestId ≠ 0 ∧ S.Busy ∧
    S.ownDeliveries = []
  | .running => S.submitting = false ∧ S.binding.pendingRequestId ≠ 0 ∧ S.Busy ∧
    S.ownDeliveries = []
  | .finishing d =>
    S.submitting = false ∧ S.binding.pendingRequestId ≠ 0 ∧ S.entry.state = .idle ∧
      S.ownDeliveries = [d]

/-- No teardown has passed the retirement of the DMA extent. -/
def Open : Prop := S.binding.teardownStarted = false ∨ S.retiring ≠ none

end IoSystem

structure Controls (S : IoSystem) : Prop where
  claimed : ∀ x, S.entry.bindingId = some x →
    x = S.binding.id ∧ S.entry.bindingGeneration = S.binding.generation
  own : ∀ d ∈ S.inflight, d.bindingId = S.binding.id
  normal : S.binding.teardownStarted = false → S.retiring = none ∧
    (S.binding.pendingRequestId = 0 ∧ S.binding.opState = .bound ∨
      S.binding.pendingRequestId ≠ 0 ∧ S.binding.opState = .pending)
  torn : S.binding.teardownStarted = true → S.binding.opState = .revoking ∧ S.submitting = false
  prior : ∀ p, S.retiring = some p → S.binding.teardownStarted = true ∧
    (p = .bound ∧ S.binding.pendingRequestId = 0 ∨ p = .pending)
  opened : S.Open → S.binding.active = true ∧ S.entry.bindingId = some S.binding.id ∧
    S.fences = [] ∧
    ∃ p, S.Tracks p
  live : S.binding.active = true → S.binding.pendingRequestId ≠ 0 → S.submitting = false →
    S.owned = true ∨ S.ownDeliveries ≠ []
  released : S.entry.bindingId = none → S.binding.teardownStarted = true ∧ S.retiring = none ∧
    S.binding.pendingRequestId = 0 ∧ S.fences = [] ∧ S.entry.state = .idle
  gone : S.binding.active = false → S.entry.bindingId = none
  passing : S.binding.teardownStarted = false → S.passed = 0
  fencing : S.Open → S.fenced = 0
  unclaimed : S.unclaimed ≠ 0 → S.entry.bindingId = none
  ended : S.binding.active = false → S.passed = 0 ∧ S.fenced = 0 ∧ S.unclaimed = 0

namespace Controls

variable {S : IoSystem} {status : Irb}

theorem active_of_normal (h : Controls S) (htd : S.binding.teardownStarted = false) :
    S.binding.active = true ∧ S.entry.bindingId = some S.binding.id ∧ S.fences = [] ∧
      ∃ p, S.Tracks p :=
  h.opened (.inl htd)

theorem ready (h : Controls S) (htd : S.binding.teardownStarted = false)
    (hpend : S.binding.pendingRequestId = 0) :
    S.binding.opState = .bound ∧ S.entry.bindingId = some S.binding.id ∧ S.entry.state = .idle ∧
      S.ownDeliveries = [] := by
  obtain ⟨_, hclaimed, _, p, hp⟩ := h.active_of_normal htd
  have hop : S.binding.opState = .bound := by
    rcases (h.normal htd).2 with ⟨_, hop⟩ | ⟨hne, _⟩
    · exact hop
    · exact absurd hpend hne
  cases p with
  | idle => exact ⟨hop, hclaimed, hp.2.2.1, hp.2.2.2⟩
  | starting | running | finishing d => exact absurd hpend hp.2.1

theorem starting_of_submitting (h : Controls S) (hsub : S.submitting = true) :
    S.binding.teardownStarted = false ∧ S.Tracks .starting := by
  have htd : S.binding.teardownStarted = false := by
    cases htd : S.binding.teardownStarted with
    | false => rfl
    | true =>
      have := (h.torn htd).2
      rw [hsub] at this
      cases this
  obtain ⟨_, _, _, p, hp⟩ := h.active_of_normal htd
  refine ⟨htd, ?_⟩
  cases p with
  | starting => exact hp
  | idle | running | finishing d =>
    rw [hp.1] at hsub
    cases hsub

/-- No `unbind` is past its first section. -/
theorem nobody (h : Controls S) (htd : S.binding.teardownStarted = false) :
    S.passed = 0 ∧ S.fenced = 0 ∧ S.unclaimed = 0 := by
  refine ⟨h.passing htd, h.fencing (.inl htd), ?_⟩
  by_contra hne
  have hnone := h.unclaimed hne
  rw [(h.active_of_normal htd).2.1] at hnone
  cases hnone

/-- Everything but the stage of a request that is not torn down follows from it. -/
theorem of_normal (htd : S.binding.teardownStarted = false) (hret : S.retiring = none)
    (hactive : S.binding.active = true) (hclaimed : S.entry.bindingId = some S.binding.id)
    (hgen : S.entry.bindingGeneration = S.binding.generation) (hfences : S.fences = [])
    (hcalls : S.passed = 0 ∧ S.fenced = 0 ∧ S.unclaimed = 0)
    (hown : ∀ d ∈ S.inflight, d.bindingId = S.binding.id)
    (hop : S.binding.pendingRequestId = 0 ∧ S.binding.opState = .bound ∨
      S.binding.pendingRequestId ≠ 0 ∧ S.binding.opState = .pending)
    {p : Progress} (hp : S.Tracks p) : Controls S where
  claimed x hx := ⟨some.inj (hx.symm.trans hclaimed), hgen⟩
  own := hown
  normal _ := ⟨hret, hop⟩
  torn h := by
    rw [htd] at h
    cases h
  prior q hq := by
    rw [hret] at hq
    cases hq
  opened _ := ⟨hactive, hclaimed, hfences, p, hp⟩
  live _ hpend hsub := by
    cases p with
    | idle => exact absurd hp.2.1 hpend
    | starting =>
      have := hp.1
      rw [hsub] at this
      cases this
    | running =>
      left
      simp [owned, hp.2.2.1.1, hp.2.2.1.2, hclaimed]
    | finishing d =>
      right
      rw [hp.2.2.2]
      exact cons_ne_nil _ _
  released h := by
    rw [hclaimed] at h
    cases h
  gone h := by
    rw [hactive] at h
    cases h
  passing _ := hcalls.1
  fencing _ := hcalls.2.1
  unclaimed h := absurd hcalls.2.2 h
  ended _ := hcalls

end Controls

variable {reads : Nat → CcwReads} {request : IoRequest} {staged : List Ccw} {area : DmaArea}

theorem requestId_ne_zero (h : verifyAndStageCcws area request reads = .ok staged) :
    request.requestId ≠ 0 := by
  intro hzero
  unfold verifyAndStageCcws at h
  rw [if_pos (.inl hzero)] at h
  cases h

/-! ## Submission -/

section Submission

variable {S : IoSystem}

theorem submitBegin_ready (h : Controls S) (htd : S.binding.teardownStarted = false)
    (hpend : S.binding.pendingRequestId = 0)
    (hstaged : verifyAndStageCcws S.binding.area request reads = .ok staged) :
    S.submitBegin request reads = (.ok (),
      { S with
        binding := { S.binding with opState := .pending, pendingRequestId := request.requestId }
        entry := { S.entry with state := .active, activeBindingId := S.entry.bindingId }
        submitting := true }) := by
  obtain ⟨hop, hclaimed, hidle, _⟩ := h.ready htd hpend
  simp [submitBegin, htd, hop, hstaged, hclaimed, hidle]

theorem submitBegin_cases (h : Controls S) : (S.submitBegin request reads).2 = S ∨
      S.binding.teardownStarted = false ∧ S.binding.pendingRequestId = 0 ∧ request.requestId ≠ 0 ∧
      (S.submitBegin request reads).2 =
        { S with
          binding := { S.binding with opState := .pending, pendingRequestId := request.requestId }
          entry := { S.entry with state := .active, activeBindingId := S.entry.bindingId }
          submitting := true } := by
  by_cases hbusy : S.binding.teardownStarted ∨ S.binding.opState ≠ .bound
  · left
    unfold submitBegin
    simp only [if_pos hbusy]
  push Not at hbusy
  have htd : S.binding.teardownStarted = false := by simpa using hbusy.1
  have hpend : S.binding.pendingRequestId = 0 := by
    rcases (h.normal htd).2 with ⟨hzero, _⟩ | ⟨_, hop⟩
    · exact hzero
    · rw [hbusy.2] at hop
      cases hop
  cases hstaged : verifyAndStageCcws S.binding.area request reads with
  | error e =>
    left
    simp [submitBegin, htd, hbusy.2, hstaged]
  | ok staged =>
    exact .inr
      ⟨htd, hpend, requestId_ne_zero hstaged, by rw [submitBegin_ready h htd hpend hstaged]⟩

theorem Controls.submitted (h : Controls S) : Controls (S.submitBegin request reads).2 := by
  rcases submitBegin_cases h with heq | ⟨htd, hpend, hid, heq⟩
  · rwa [heq]
  rw [heq]
  obtain ⟨hactive, hclaimed, hfences, _⟩ := h.active_of_normal htd
  obtain ⟨_, _, _, hown⟩ := h.ready htd hpend
  exact .of_normal htd (h.normal htd).1 hactive hclaimed (h.claimed _ hclaimed).2 hfences
    (h.nobody htd) h.own (.inr ⟨hid, rfl⟩) (p := .starting) ⟨rfl, hid, ⟨rfl, hclaimed⟩, hown⟩

theorem Records.submitted (h : Records S) (hc : Controls S) :
    Records (S.submitBegin request reads).2 := by
  rcases submitBegin_cases hc with heq | ⟨_, hpend, _, heq⟩
  · rwa [heq]
  rw [heq]
  refine ⟨h.ring, h.drops, h.made, ?_⟩
  have hlog := h.log
  rw [waiting, if_pos (.inl hpend)] at hlog
  rw [waiting, if_pos (.inr rfl)]
  exact hlog

variable {cc : Nat}

theorem Controls.started (h : Controls S) (hsub : S.submitting = true) :
    Controls (S.submitEnd cc).2 := by
  obtain ⟨htd, _, hpend, hbusy, hown⟩ := h.starting_of_submitting hsub
  obtain ⟨hactive, hclaimed, hfences, _⟩ := h.active_of_normal htd
  have hop : S.binding.opState = .pending := ((h.normal htd).2.resolve_left fun hz => hpend hz.1).2
  have hgen := (h.claimed _ hclaimed).2
  unfold submitEnd
  by_cases hcc : cc = 0
  · rw [if_pos hcc]
    exact .of_normal htd (h.normal htd).1 hactive hclaimed hgen hfences (h.nobody htd) h.own
      (.inr ⟨hpend, hop⟩) (p := .running) ⟨rfl, hpend, hbusy, hown⟩
  rw [if_neg hcc]
  have hentry : S.entry.state = .active ∧ S.entry.activeBindingId = S.entry.bindingId :=
    ⟨hbusy.1, hbusy.2.trans hclaimed.symm⟩
  simp only [if_pos hentry]
  exact .of_normal htd (h.normal htd).1 hactive hclaimed hgen hfences (h.nobody htd) h.own
    (.inl ⟨rfl, rfl⟩) (p := .idle) ⟨rfl, rfl, rfl, hown⟩

theorem Records.started (h : Records S) (hc : Controls S) (hsub : S.submitting = true) :
    Records (S.submitEnd cc).2 := by
  obtain ⟨_, _, hpend, _⟩ := hc.starting_of_submitting hsub
  have hlog := h.log
  rw [waiting, if_pos (.inr hsub), append_nil] at hlog
  unfold submitEnd
  split
  · refine ⟨h.ring, h.drops, h.made, ?_⟩
    rw [waiting, if_neg (by simp [hpend]), hlog]
  refine ⟨h.ring, h.drops, h.made, ?_⟩
  show S.accepted = S.completed.map _ ++ _
  rw [hlog]
  simp [waiting]

end Submission

/-! ## Interrupts and records -/

section Interrupts

variable {S : IoSystem} {status : Irb}

theorem ioInterrupt_eq (hterm : (status.terminal && status.inactive) = true) :
    S.ioInterrupt status = { S with
      entry := { S.entry with state := .idle, activeBindingId := none }
      inflight := (S.ioInterrupt status).inflight } := by
  rw [ioInterrupt, if_pos hterm]

theorem inflight_interrupt_idle (hidle : S.entry.state = .idle) :
    (S.ioInterrupt status).inflight = S.inflight := by
  have howned : S.owned = false := by simp [owned, hidle]
  unfold ioInterrupt
  split
  · simp [howned]
  · rfl

theorem ownDeliveries_interrupt (h : Controls S)
    (hterm : (status.terminal && status.inactive) = true) :
    S.owned = true ∧ (∃ d, (S.ioInterrupt status).ownDeliveries = S.ownDeliveries ++ [d]) ∨
      S.owned = false ∧ (S.ioInterrupt status).inflight = S.inflight := by
  cases howned : S.owned with
  | false =>
    right
    simp [ioInterrupt, hterm, howned]
  | true =>
    left
    refine ⟨rfl, ⟨S.entry.bindingId.getD 0, S.entry.bindingGeneration, status⟩, ?_⟩
    simp only [owned, Bool.and_eq_true] at howned
    obtain ⟨x, hx⟩ := isSome_iff_exists.mp howned.1.2
    have howned' : S.owned = true := by simp [owned, howned]
    simp [ioInterrupt, ownDeliveries, hterm, howned', (h.claimed x hx).2]

theorem Controls.interrupted (h : Controls S)
    (hsub : (status.terminal && status.inactive) = true → S.submitting = false) :
    Controls (S.ioInterrupt status) := by
  cases hterm : status.terminal && status.inactive with
  | false =>
    rwa [ioInterrupt, if_neg (by simp [hterm])]
  | true =>
  have hsub := hsub hterm
  have hown := ownDeliveries_interrupt h hterm
  have heq := ioInterrupt_eq (S := S) hterm
  have hgrows : S.ownDeliveries ≠ [] → (S.ioInterrupt status).ownDeliveries ≠ [] := by
    intro hne
    rcases hown with ⟨_, d, hd⟩ | ⟨_, hsame⟩
    · rw [hd]
      exact append_ne_nil_of_left_ne_nil hne _
    rw [heq]
    unfold ownDeliveries
    rw [hsame]
    exact hne
  have hids : ∀ d ∈ (S.ioInterrupt status).inflight, d.bindingId = S.binding.id := by
    intro d hd
    rw [ioInterrupt, if_pos hterm] at hd
    simp only at hd
    split at hd
    · rename_i howned
      rcases mem_append.mp hd with hd | hd
      · exact h.own d hd
      simp only [owned, Bool.and_eq_true] at howned
      obtain ⟨x, hx⟩ := isSome_iff_exists.mp howned.1.2
      rw [mem_singleton.mp hd]
      show S.entry.bindingId.getD 0 = S.binding.id
      rw [hx, getD_some, (h.claimed x hx).1]
    · exact h.own d hd
  have htracks : S.Open → ∃ p, (S.ioInterrupt status).Tracks p := by
    intro hopen
    obtain ⟨_, hclaimed, _, p, hp⟩ := h.opened hopen
    cases p with
    | idle =>
      refine ⟨.idle, ?_⟩
      rw [heq, inflight_interrupt_idle hp.2.2.1]
      exact ⟨hp.1, hp.2.1, rfl, hp.2.2.2⟩
    | starting =>
      -- no final status is taken between the publication and the return of `start_io`
      rw [hp.1] at hsub
      cases hsub
    | running =>
      rcases hown with ⟨_, d, hd⟩ | ⟨howned, _⟩
      · refine ⟨.finishing d, ?_⟩
        rw [hp.2.2.2, nil_append] at hd
        rw [heq] at hd ⊢
        exact ⟨hp.1, hp.2.1, rfl, hd⟩
      · simp [owned, hp.2.2.1.1, hp.2.2.1.2, hclaimed] at howned
    | finishing d =>
      refine ⟨.finishing d, ?_⟩
      rw [heq, inflight_interrupt_idle hp.2.2.1]
      exact ⟨hp.1, hp.2.1, rfl, hp.2.2.2⟩
  have hlive : S.binding.active = true → S.binding.pendingRequestId ≠ 0 →
      (S.ioInterrupt status).ownDeliveries ≠ [] := by
    intro hactive hpend
    rcases h.live hactive hpend hsub with howned | hne
    · rcases hown with ⟨_, d, hd⟩ | ⟨hno, _⟩
      · rw [hd]
        exact append_ne_nil_of_right_ne_nil _ (cons_ne_nil _ _)
      · rw [howned] at hno
        cases hno
    · exact hgrows hne
  rw [heq] at htracks hlive ⊢
  exact
    { h with
      own := hids
      opened := fun hopen => ⟨(h.opened hopen).1, (h.opened hopen).2.1, (h.opened hopen).2.2.1,
        htracks hopen⟩
      live := fun hactive hpend _ => .inr (hlive hactive hpend)
      released := fun hnone =>
        ⟨(h.released hnone).1, (h.released hnone).2.1, (h.released hnone).2.2.1,
          (h.released hnone).2.2.2.1, rfl⟩ }

theorem Controls.forgot (h : Controls S) {inflight : List Delivery}
    (hsub : ∀ d ∈ inflight, d ∈ S.inflight)
    (hown : S.Open → ({ S with inflight } : IoSystem).ownDeliveries = S.ownDeliveries)
    (hlive : S.binding.active = true → S.binding.pendingRequestId ≠ 0 →
      ({ S with inflight } : IoSystem).ownDeliveries = S.ownDeliveries) :
        Controls { S with inflight } := by
  refine { h with
    own := fun d hd => h.own d (hsub d hd)
    opened := fun hopen => ?_
    live := fun ha hpend hs => ?_ }
  · obtain ⟨hactive, hclaimed, hfences, p, hp⟩ := h.opened hopen
    refine ⟨hactive, hclaimed, hfences, p, ?_⟩
    have heq := hown hopen
    cases p with
    | idle | starting | running | finishing d => exact ⟨hp.1, hp.2.1, hp.2.2.1, heq.trans hp.2.2.2⟩
  · rcases h.live ha hpend hs with howned | hne
    · exact .inl howned
    · exact .inr (by rw [hlive ha hpend]; exact hne)

/-- The pending request gets its record; the statuses that stay on their way are not for it. -/
theorem Controls.recorded (h : Controls S) (hsub : S.submitting = false)
    (hawaits : S.binding.awaits = true)
    (hok : status.failed = false ∨ S.binding.teardownStarted = true) (g : Nat)
    {inflight : List Delivery}
    {fences : List FencePhase} {fenced : Nat} (hless : ∀ d ∈ inflight, d ∈ S.inflight)
    (hfences : S.Open → fences = S.fences ∧ fenced = S.fenced)
    (hown : S.Open → ({ S with inflight } : IoSystem).ownDeliveries = [] ∧ S.entry.state = .idle) :
    Controls { S.enqueueCompletion g status with inflight, fences, fenced } := by
  have hactive : S.binding.active = true := by
    simp only [awaits, Bool.and_eq_true] at hawaits
    exact hawaits.1.1
  have hpend : S.binding.pendingRequestId ≠ 0 := by
    simp only [awaits, Bool.and_eq_true, bne_iff_ne] at hawaits
    exact hawaits.1.2
  unfold enqueueCompletion
  rw [if_pos hawaits]
  have hdone : (S.binding.makeRoom.finish status).pendingRequestId = 0 := rfl
  have hid : (S.binding.makeRoom.finish status).id = S.binding.id :=
    S.binding.makeRoom_field (·.id) fun _ _ _ => rfl
  have hgen : (S.binding.makeRoom.finish status).generation = S.binding.generation :=
    S.binding.makeRoom_generation
  have hstill : (S.binding.makeRoom.finish status).active = true :=
    (S.binding.makeRoom_field (·.active) fun _ _ _ => rfl).trans hactive
  have htd : (S.binding.makeRoom.finish status).teardownStarted = S.binding.teardownStarted :=
    S.binding.makeRoom_field (·.teardownStarted) fun _ _ _ => rfl
  have hop : (S.binding.makeRoom.finish status).opState =
      if S.binding.teardownStarted then S.binding.opState else if status.failed then .error
        else .bound :=
    S.binding.makeRoom_field (fun b => (b.finish status).opState) fun _ _ _ => rfl
  -- of the new binding only these fields matter from here on
  generalize S.binding.makeRoom.finish status = b at *
  have hopen : ∀ {T : IoSystem}, T.Open → T.binding = b → T.retiring = S.retiring → S.Open := by
    rintro T hT rfl hret
    unfold IoSystem.Open at hT ⊢
    rwa [htd, hret] at hT
  refine
    { claimed := fun x hx => ⟨(h.claimed x hx).1.trans hid.symm, (h.claimed x hx).2.trans hgen.symm⟩
      own := fun d hd => hid ▸ h.own d (hless d hd)
      normal := fun hno => ?_, torn := fun hyes => ?_, prior := fun p hp => ?_
      opened := fun hT => ?_
      live := fun _ hne => absurd hdone hne
      released := fun hnone => ?_
      gone := fun hgone => ?_
      passing := fun hno => h.passing (htd ▸ hno)
      fencing := fun hT => (hfences (hopen hT rfl rfl)).2.trans (h.fencing (hopen hT rfl rfl))
      unclaimed := h.unclaimed
      ended := fun hgone => ?_ }
  · have hno' : S.binding.teardownStarted = false := htd ▸ hno
    refine ⟨(h.normal hno').1, .inl ⟨hdone, ?_⟩⟩
    rw [hop, hno', if_neg (by simp)]
    rcases hok with hok | hok
    · rw [hok, if_neg (by simp)]
    · rw [hno'] at hok
      cases hok
  · have hyes' : S.binding.teardownStarted = true := htd ▸ hyes
    refine ⟨?_, hsub⟩
    rw [hop, if_pos hyes']
    exact (h.torn hyes').1
  · obtain ⟨hyes, hprior⟩ := h.prior p hp
    exact ⟨htd.trans hyes, hprior.imp_left fun hb => ⟨hb.1, hdone⟩⟩
  · have hS : S.Open := hopen hT rfl rfl
    obtain ⟨_, hclaimed, hnil, _⟩ := h.opened hS
    obtain ⟨hnone, hidle⟩ := hown hS
    refine ⟨hstill, hclaimed.trans (congrArg some hid.symm), (hfences hS).1.trans hnil, .idle, hsub,
      hdone, hidle, ?_⟩
    unfold ownDeliveries at hnone ⊢
    rw [← hgen] at hnone
    exact hnone
  · exact absurd (h.released hnone).2.2.1 hpend
  · have hno : b.active = false := hgone
    rw [hstill] at hno
    cases hno
  · have hno : b.active = false := hgone
    rw [hstill] at hno
    cases hno

end Interrupts

/-! ## Steps -/

section Steps

variable {S : IoSystem} {inflight : List Delivery} {d : Delivery}

theorem completionSink_inflight :
    ({ S with inflight } : IoSystem).completionSink d = { S.completionSink d with inflight } := by
  unfold completionSink enqueueCompletion
  split
  · simp only
    split <;> rfl
  · rfl

/-- Only what the binding waits for is recorded, and an active binding that waits is ready to
record. -/
theorem awaits_iff (h : Controls S) (hactive : S.binding.active = true) :
    S.binding.awaits = true ↔ S.binding.pendingRequestId ≠ 0 := by
  simp only [awaits, hactive, Bool.true_and, Bool.and_eq_true, bne_iff_ne, Bool.or_eq_true,
    beq_iff_eq]
  refine ⟨fun hw => hw.1, fun hpend => ⟨hpend, ?_⟩⟩
  cases htd : S.binding.teardownStarted with
  | false => exact .inl ((h.normal htd).2.resolve_left fun hz => hpend hz.1).2
  | true => exact .inr (h.torn htd).1

variable {status : Irb} {cc : Nat}

theorem enqueueCompletion_of_not_awaits {g : Nat} (h : S.binding.awaits = false) :
    S.enqueueCompletion g status = S := by
  rw [enqueueCompletion, if_neg (by simp [h])]

theorem Controls.delivered (h : Controls S) (hsub : S.submitting = false) (hd : d ∈ S.inflight)
    (hok : d.status.failed = false ∨ S.binding.teardownStarted = true) :
    Controls (({ S with inflight := S.inflight.erase d } : IoSystem).completionSink d) := by
  rw [completionSink_inflight]
  have hless : ∀ e ∈ S.inflight.erase d, e ∈ S.inflight := fun _ he => mem_of_mem_erase he
  have herase : ({ S with inflight := S.inflight.erase d } : IoSystem).ownDeliveries =
    S.ownDeliveries.erase d :=
    erase_filter.symm
  unfold completionSink
  split
  · rename_i hfor
    obtain ⟨hactive, -, hgen⟩ := hfor
    have hmem : d ∈ S.ownDeliveries := mem_filter.mpr ⟨hd, by simpa using hgen⟩
    have hopen : S.Open → S.binding.pendingRequestId ≠ 0 ∧ S.ownDeliveries.erase d = [] ∧
      S.entry.state = .idle := by
      intro hopen
      obtain ⟨_, _, _, p, hp⟩ := h.opened hopen
      cases p with
      | idle | starting | running =>
        rw [hp.2.2.2] at hmem
        cases hmem
      | finishing e =>
        rw [hp.2.2.2] at hmem ⊢
        rw [mem_singleton.mp hmem, erase_cons_head]
        exact ⟨hp.2.1, rfl, hp.2.2.1⟩
    cases hawaits : S.binding.awaits with
    | true =>
      have hrec := h.recorded hsub hawaits hok d.generation hless (fun _ => ⟨rfl, rfl⟩) fun hS =>
        ⟨herase.trans (hopen hS).2.1, (hopen hS).2.2⟩
      unfold enqueueCompletion at hrec ⊢
      rw [if_pos hawaits] at hrec ⊢
      exact hrec
    | false =>
      have hno : ¬ S.binding.pendingRequestId ≠ 0 := fun hpend => by
        rw [(awaits_iff h hactive).mpr hpend] at hawaits
        cases hawaits
      rw [enqueueCompletion_of_not_awaits hawaits]
      exact h.forgot hless (fun hS => absurd (hopen hS).1 hno) fun _ hpend => absurd hpend hno
  · rename_i hfor
    -- the status is for another generation, or for a binding that is gone
    have hkeep : S.binding.active = true → S.ownDeliveries.erase d = S.ownDeliveries := by
      intro hactive
      refine erase_of_not_mem fun hmem => hfor ⟨hactive, h.own d hd, ?_⟩
      simpa using (mem_filter.mp hmem).2
    exact h.forgot hless (fun hS => herase.trans (hkeep (h.opened hS).1)) fun hactive _ =>
      herase.trans (hkeep hactive)

theorem Records.delivered (h : Records S) (hsub : S.submitting = false) :
    Records (({ S with inflight } : IoSystem).completionSink d) := by
  rw [completionSink_inflight]
  unfold completionSink
  split
  · rename_i hfor
    have := h.enqueued hsub d.status
    rw [hfor.2.2]
    exact { this with }
  · exact { h with }

theorem not_open (htd : S.binding.teardownStarted = true) (hret : S.retiring = none) :
    ¬ S.Open := by
  rintro (hno | hno)
  · rw [htd] at hno
    cases hno
  · exact hno hret

section

variable (h : Controls S)
include h

theorem Controls.dequeued : Controls S.completionDequeue.2 := by
  unfold completionDequeue
  split
  · exact h
  · exact { h with }

theorem Controls.unbound (hsub : S.submitting = false) (hactive : S.binding.active = true) :
    Controls S.unbindBegin := by
  unfold unbindBegin
  split
  · rename_i htd
    split
    · exact h
    · refine { h with passing := fun hno => ?_, ended := fun hgone => ?_ }
      · rw [show S.binding.teardownStarted = false from hno] at htd
        cases htd
      · rw [show S.binding.active = false from hgone] at hactive
        cases hactive
  rename_i htd
  have htd : S.binding.teardownStarted = false := by simpa using htd
  have hopened := h.opened (.inl htd)
  exact
    { h with
      passing := nofun, fencing := fun _ => (h.nobody htd).2.1
      normal := nofun, torn := fun _ => ⟨rfl, hsub⟩
      prior := fun p hp => by
        obtain rfl := some.inj hp
        exact ⟨rfl, (h.normal htd).2.imp And.symm And.right⟩
      opened := fun _ => hopened
      released := fun hnone => by
        have hno := (h.released hnone).1
        rw [htd] at hno
        cases hno }

variable {p : IoSubstate}

theorem Controls.restored (hp : S.retiring = some p) (hpassed : S.passed = 0)
    (hpend : p = .pending → S.binding.pendingRequestId ≠ 0) :
    Controls { S with binding := { S.binding with
      teardownStarted := false, opState := p }, retiring := none } := by
  obtain ⟨hactive, hclaimed, hfences, q, hq⟩ := h.opened (.inr (by rw [hp]; nofun))
  have hopen : S.Open := .inr (by rw [hp]; nofun)
  have hunclaimed : S.unclaimed = 0 := by
    by_contra hne
    have hnone := h.unclaimed hne
    rw [hclaimed] at hnone
    cases hnone
  refine .of_normal rfl rfl hactive hclaimed (h.claimed _ hclaimed).2 hfences
    ⟨hpassed, h.fencing hopen, hunclaimed⟩ h.own ?_ (p := q) ?_
  · exact (h.prior p hp).2.imp And.symm fun hpending => ⟨hpend hpending, hpending⟩
  · cases q <;> exact hq

theorem Controls.retired (hp : S.retiring = some p) :
    Controls { S with retiring := none, passed := S.passed + 1 } := by
  have htd := (h.prior p hp).1
  obtain ⟨hactive, hclaimed, -, -⟩ := h.opened (.inr (by rw [hp]; nofun))
  exact
    { h with
      passing := fun hno => by
        rw [show S.binding.teardownStarted = true from htd] at hno
        cases hno
      fencing := fun hno => absurd hno (not_open htd rfl)
      ended := fun hgone => by
        rw [show S.binding.active = true from hactive] at hgone
        cases hgone
      normal := fun hno => by
        rw [show S.binding.teardownStarted = true from htd] at hno
        cases hno
      prior := nofun
      opened := fun hno => absurd hno (not_open htd rfl)
      released := fun hnone => by
        rw [show S.entry.bindingId = some S.binding.id from hclaimed] at hnone
        cases hnone }

variable {passed : Nat} {fences : List FencePhase} {fenced : Nat}

/-- Past the retirement the subchannel may be made busy and the fences change. -/
theorem Controls.pastRetirement (hopen : ¬ S.Open) (hclaimed : S.entry.bindingId ≠ none)
    {state : SubchannelState}
    (hstate : state = S.entry.state ∨ state = .halting) :
    Controls { S with entry := { S.entry with state }, passed, fences, fenced } := by
  refine
    { h with
      opened := fun hno => absurd hno hopen, live := fun hactive hpend hsub => ?_
      released := fun hnone => absurd hnone hclaimed
      passing := fun hno => absurd (.inl hno) hopen
      fencing := fun hno => absurd hno hopen
      ended := fun hgone => absurd (h.gone hgone) hclaimed }
  rcases h.live hactive hpend hsub with howned | hne
  · left
    simp only [owned, Bool.and_eq_true, Bool.or_eq_true, beq_iff_eq] at howned ⊢
    refine ⟨⟨?_, howned.1.2⟩, howned.2⟩
    rcases hstate with rfl | rfl
    · exact howned.1.1
    · exact .inr rfl
  · exact .inr hne

/-- Past the retirement a call goes from one section to the next. -/
theorem Controls.recounted (hopen : ¬ S.Open) (hactive : S.binding.active = true) :
    Controls { S with passed, fenced } :=
  { h with
    passing := fun hno => absurd (.inl hno) hopen
    fencing := fun hno => absurd hno hopen
    ended := fun hgone => by
      rw [show S.binding.active = false from hgone] at hactive
      cases hactive }

theorem Controls.fencePhases (hopen : ¬ S.Open) (hclaimed : S.entry.bindingId ≠ none) :
    Controls { S with passed, fences, fenced } :=
  h.pastRetirement hopen hclaimed (.inl rfl)

section

variable {phase : FencePhase}
  (hodd : ¬ (cc = 0 ∧ status.primary ∧ status.secondary ∧ status.schActive ∧ status.deviceActive))
include hodd

omit h in
theorem fenceStep_cases :
    (S.fenceStep cc status phase).2 = S ∨ (S.fenceStep cc status phase).2 = S.setState .halting ∨
      ∃ found, phase = .closing found ∧
        (S.fenceStep cc status phase).2 = S.enqueueCompletion S.binding.generation found := by
  have htest : S.testIo cc status = S := by rw [testIo, if_neg hodd]
  cases phase with
  | closing found => exact .inr (.inr ⟨found, rfl, rfl⟩)
  | halting | clearing | polling attempt | checking attempt =>
    simp only [fenceStep, htest]
    split_ifs <;> simp

theorem Controls.fenceStepped {i : Nat} (hphase : S.fences[i]? = some phase)
    (hsub : S.submitting = false) :
    Controls { (S.fenceStep cc status phase).2 with fences, fenced } := by
  have hne : S.fences ≠ [] := fun hnil => by
    rw [hnil] at hphase
    cases hphase
  have hopen : ¬ S.Open := fun hopen => hne (h.opened hopen).2.2.1
  have hclaimed : S.entry.bindingId ≠ none := fun hnone => hne (h.released hnone).2.2.2.1
  have htd : S.binding.teardownStarted = true := by
    unfold IoSystem.Open at hopen
    push Not at hopen
    simpa using hopen.1
  rcases fenceStep_cases hodd with heq | heq | ⟨found, _, heq⟩ <;> rw [heq]
  · exact h.fencePhases hopen hclaimed
  · exact h.pastRetirement hopen hclaimed (.inr rfl)
  cases hawaits : S.binding.awaits with
  | false =>
    rw [enqueueCompletion_of_not_awaits hawaits]
    exact h.fencePhases hopen hclaimed
  | true =>
    have hrec : Controls
        { S.enqueueCompletion S.binding.generation found with
          inflight := S.inflight, fences, fenced } :=
      h.recorded hsub hawaits (.inr htd) _ (fun _ => id) (fun hS => absurd hS hopen) fun hS =>
        absurd hS hopen
    unfold enqueueCompletion at hrec ⊢
    rw [if_pos hawaits] at hrec ⊢
    exact hrec

omit h in
theorem Records.fenceStepped (h : Records S) (hsub : S.submitting = false) :
    Records { (S.fenceStep cc status phase).2 with fences, fenced } := by
  rcases fenceStep_cases hodd with heq | heq | ⟨found, _, heq⟩ <;> rw [heq]
  · exact { h with }
  · exact { h with }
  · have hrec := h.enqueued hsub found
    exact { hrec with }

end

omit h in
theorem torn_of_not_open (hopen : ¬ S.Open) :
    S.binding.teardownStarted = true ∧ S.retiring = none := by
  unfold IoSystem.Open at hopen
  push Not at hopen
  exact ⟨by simpa using hopen.1, hopen.2⟩

/-- The call that has given the subchannel back is the one that goes on to the slot. -/
theorem Controls.givenBack (hfenced : S.fenced ≠ 0) (hactive : S.binding.active = true)
    (hpend : S.binding.pendingRequestId = 0) (hfences : S.fences = [])
    (hidle : S.entry.state = .idle) :
    Controls { S with
      entry := { S.entry with bindingId := none, bindingGeneration := 0, activeBindingId := none }
      fenced := S.fenced - 1
      unclaimed := S.unclaimed + 1 } := by
  have hopen : ¬ S.Open := fun hopen => hfenced (h.fencing hopen)
  obtain ⟨htd, hret⟩ := torn_of_not_open hopen
  exact
    { h with
      claimed := nofun
      opened := fun hno => absurd hno hopen
      live := fun _ hne => absurd hpend hne
      released := fun _ => ⟨htd, hret, hpend, hfences, hidle⟩
      gone := fun _ => rfl
      fencing := fun hno => absurd hno hopen
      unclaimed := fun _ => rfl
      ended := fun hgone => by
        rw [show S.binding.active = false from hgone] at hactive
        cases hactive }

theorem Controls.slotReleased (hnone : S.entry.bindingId = none)
    (hcalls : S.passed = 0 ∧ S.fenced = 0 ∧ S.unclaimed = 1) :
    Controls { S with
      binding := { S.binding with active := false }, unclaimed := S.unclaimed - 1 } := by
  obtain ⟨htd, hret, hpend, hfences, hidle⟩ := h.released hnone
  have hzero : S.unclaimed - 1 = 0 := by omega
  exact
    { h with
      opened := fun hno => absurd hno (not_open htd hret)
      live := nofun
      gone := fun _ => hnone
      fencing := fun hno => absurd hno (not_open htd hret)
      unclaimed := fun hne => absurd hzero hne
      ended := fun _ => ⟨hcalls.1, hcalls.2.1, hzero⟩ }

/-- The next generation: no status on its way is for it. -/
theorem Controls.bound (hgone : S.binding.active = false) {failed : Nat}
    (hnew : ∀ d ∈ S.inflight, d.generation ≠ S.nextGeneration failed) :
    Controls (S.bind failed) := by
  obtain ⟨_, _, _, hfences, hidle⟩ := h.released (h.gone hgone)
  refine .of_normal rfl rfl rfl rfl rfl hfences (h.ended hgone) h.own (.inl ⟨rfl, rfl⟩) (p := .idle)
    ⟨rfl, rfl, hidle, filter_eq_nil_iff.mpr fun d hd => ?_⟩
  rw [decide_eq_true_eq]
  exact hnew d hd

end

theorem records_fresh {b : IoBinding}
    (hb : b.completionCount = 0 ∧ b.completionHead = 0 ∧ b.completionTail = 0 ∧
      b.completionDropped = 0 ∧ b.pendingRequestId = 0)
    {entry : SubchannelEntry} {fences : List FencePhase} {passed fenced unclaimed : Nat} :
    Records { binding := b, entry, inflight, passed, fences, fenced, unclaimed } := by
  obtain ⟨hcount, hhead, htail, hdropped, hpend⟩ := hb
  refine ⟨⟨[], ?_, rfl⟩, by rw [hdropped]; rfl, nofun, ?_⟩
  · rw [hcount, hhead, htail]
    exact Ring.holds_nil (by decide)
  · simp [waiting, hpend]

end Steps

/-! ## Runs -/

/-- No status ends a request before its start has returned, and no request fails. An `unbind` does
not give up after the record of the pending request or after another one has come past the first
section, and nobody fences while one is retiring the extent. No poll finds a status that is final
and active at once. The subchannel is given back when nothing is pending and no fence is under way,
the slot is released by the only `unbind` under way, and it is not bound again with the generation
of a status on its way. -/
def IoOp.Orderly (S : IoSystem) : IoOp → Prop
  | .interrupt status => (status.terminal && status.inactive) = true → S.submitting = false
  | .deliver d => d.status.failed = false ∨ S.binding.teardownStarted = true
  | .retireFails => S.passed = 0 ∧ (S.retiring = some .pending → S.binding.pendingRequestId ≠ 0)
  | .fence => S.retiring = none
  | .fenceStep _ cc status =>
    ¬ (cc = 0 ∧ status.primary ∧ status.secondary ∧ status.schActive ∧ status.deviceActive)
  | .releaseBinding => S.binding.pendingRequestId = 0 ∧ S.fences = []
  | .release => S.passed = 0 ∧ S.fenced = 0 ∧ S.unclaimed = 1
  | .bind failed => ∀ d ∈ S.inflight, d.generation ≠ S.nextGeneration failed
  | _ => True

instance (S : IoSystem) : DecidablePred (IoOp.Orderly S) := fun op => by
  cases op <;> unfold IoOp.Orderly <;> infer_instance

def Sound (S : IoSystem) : Prop := Records S ∧ Controls S

theorem sound_freshlyBound {id generation : Nat} : Sound (freshlyBound id generation area) :=
  ⟨records_fresh ⟨rfl, rfl, rfl, rfl, rfl⟩,
    .of_normal rfl rfl rfl rfl rfl rfl ⟨rfl, rfl, rfl⟩ nofun (.inl ⟨rfl, rfl⟩) (p := .idle)
      ⟨rfl, rfl, rfl, rfl⟩⟩

theorem Sound.step {S S' : IoSystem} {op : IoOp} (h : Sound S) (hop : op.Orderly S)
    (hnext : op.next S = some S') :
    Sound S' := by
  obtain ⟨hr, hc⟩ := h
  cases op with
  | submit request reads =>
    obtain ⟨_, rfl⟩ := of_guard hnext
    exact ⟨hr.submitted hc, hc.submitted⟩
  | started cc =>
    simp only [IoOp.next] at hnext
    split at hnext
    · rename_i hsub
      obtain rfl := some.inj hnext
      exact ⟨hr.started hc hsub, hc.started hsub⟩
    · cases hnext
  | interrupt status =>
    obtain rfl := some.inj hnext
    refine ⟨?_, hc.interrupted hop⟩
    unfold ioInterrupt
    split
    · exact { hr with }
    · exact hr
  | deliver d =>
    obtain ⟨hguard, rfl⟩ := of_guard hnext
    push Not at hguard
    have hsub : S.submitting = false := by simpa using hguard.1
    exact ⟨hr.delivered hsub, hc.delivered hsub hguard.2 hop⟩
  | dequeue =>
    obtain ⟨_, rfl⟩ := of_guard hnext
    exact ⟨hr.dequeued, hc.dequeued⟩
  | unbind =>
    obtain ⟨hguard, rfl⟩ := of_guard hnext
    push Not at hguard
    refine ⟨?_, hc.unbound (by simpa using hguard.1) (by simpa using hguard.2)⟩
    unfold unbindBegin
    split_ifs
    · exact hr
    · exact { hr with }
    · exact { hr with }
  | retireFails =>
    simp only [IoOp.next] at hnext
    split at hnext
    · cases hnext
    · obtain ⟨p, hp, rfl⟩ := map_eq_some_iff.mp hnext
      refine ⟨{ hr with }, hc.restored hp hop.1 fun hpending => hop.2 (hpending ▸ hp)⟩
  | retired =>
    obtain ⟨p, hp, rfl⟩ := map_eq_some_iff.mp hnext
    exact ⟨{ hr with }, hc.retired hp⟩
  | fence =>
    obtain ⟨hguard, rfl⟩ := of_guard hnext
    push Not at hguard
    -- an unbind that has come past its first section has started the teardown
    have hopen : ¬ S.Open := by
      rintro (htd | hret)
      · exact hguard.2 (hc.passing htd)
      · exact hret hop
    unfold fenceBegin
    split
    · refine ⟨{ hr with }, hc.recounted hopen ?_⟩
      by_contra hgone
      exact hguard.2 (hc.ended (by simpa using hgone)).1
    rename_i hpend
    refine ⟨{ hr with }, hc.fencePhases hopen (fun hnone => ?_)⟩
    exact hpend (hc.released hnone).2.2.1
  | fenceStep i cc status =>
    obtain ⟨phase, hphase, hbody⟩ := bind_eq_some_iff.mp hnext
    obtain ⟨_, rfl⟩ := of_guard hbody
    -- while a submit holds the lock, no teardown has begun and nobody fences
    have hsub : S.submitting = false := by
      cases hs : S.submitting with
      | false => rfl
      | true =>
        have hnil := (hc.active_of_normal (hc.starting_of_submitting hs).1).2.2.1
        rw [hnil] at hphase
        cases hphase
    have hone := fun fences fenced => (⟨hr.fenceStepped hop hsub, hc.fenceStepped hop hphase hsub⟩ :
      Sound { (S.fenceStep cc status phase).2 with fences, fenced })
    unfold fenceTo
    split
    · exact hone _ _
    · exact hone _ _
  | releaseBinding =>
    simp only [IoOp.next] at hnext
    split at hnext
    · cases hnext
    rename_i hfenced
    have hactive : S.binding.active = true := by
      by_contra hgone
      exact hfenced (hc.ended (by simpa using hgone)).2.1
    have hopen : ¬ S.Open := fun hopen => hfenced (hc.fencing hopen)
    unfold releaseBinding at hnext
    split_ifs at hnext with hother hbusy
    · obtain rfl := some.inj hnext
      exact ⟨{ hr with }, hc.recounted hopen hactive⟩
    · obtain rfl := some.inj hnext
      exact ⟨{ hr with }, hc.recounted hopen hactive⟩
    · obtain rfl := some.inj hnext
      exact ⟨{ hr with }, hc.givenBack hfenced hactive hop.1 hop.2 (not_not.mp hbusy)⟩
  | release =>
    obtain ⟨hguard, rfl⟩ := of_guard hnext
    exact ⟨{ hr with }, hc.slotReleased (hc.unclaimed hguard) hop⟩
  | bind failed =>
    obtain ⟨hguard, rfl⟩ := of_guard hnext
    push Not at hguard
    exact ⟨records_fresh ⟨rfl, rfl, rfl, rfl, rfl⟩, hc.bound (by simpa using hguard.1) hop⟩

/-- A request that has been accepted is completed by the next status that ends it, or by one that is
on its way. -/
theorem Controls.completes {S : IoSystem} (h : Controls S) (hactive : S.binding.active = true)
    (hpend : S.binding.pendingRequestId ≠ 0) (hsub : S.submitting = false) {status : Irb}
    (hterm : (status.terminal && status.inactive) = true) :
    ∃ d S', ioMachine.Exec S [.interrupt status, .deliver d] S' ∧
      S'.completed = S.completed ++ [(S.binding.generation, S.binding.completion d.status)] := by
  have h₁ : Controls (S.ioInterrupt status) := h.interrupted fun _ => hsub
  have heq := ioInterrupt_eq (S := S) hterm
  generalize hS₁ : S.ioInterrupt status = S₁ at h₁ heq
  have hbinding : S₁.binding = S.binding := by rw [heq]
  have hsub₁ : S₁.submitting = false := by
    rw [heq]
    exact hsub
  have hidle : S₁.owned = false := by
    rw [heq]
    rfl
  have hown : S₁.ownDeliveries ≠ [] := by
    refine (h₁.live ?_ ?_ hsub₁).resolve_left fun howned => ?_
    · rw [hbinding, hactive]
    · rw [hbinding]
      exact hpend
    · rw [hidle] at howned
      cases howned
  obtain ⟨d, hd⟩ := exists_mem_of_ne_nil _ hown
  obtain ⟨hmem, hgen⟩ := mem_filter.mp hd
  have hgen : d.generation = S₁.binding.generation := by simpa using hgen
  have hawaits : S₁.binding.awaits = true :=
    (awaits_iff h₁ (by rw [hbinding, hactive])).mpr (by rwa [hbinding])
  have hstep : ioMachine.step S₁ (.deliver d)
      (({ S₁ with inflight := S₁.inflight.erase d } : IoSystem).completionSink d) := by
    show (if S₁.submitting = true ∨ d ∉ S₁.inflight then none else some _) = some _
    rw [if_neg (by simp [hsub₁, hmem])]
  refine ⟨d, _, .cons (congrArg some hS₁) (.single hstep), ?_⟩
  · rw [completionSink_inflight, completionSink,
      if_pos ⟨by rw [hbinding, hactive], h₁.own d hmem, hgen⟩, enqueueCompletion, if_pos hawaits]
    show S₁.completed ++ [(d.generation, S₁.binding.completion d.status)] = _
    rw [hgen, hbinding, heq]

/-- Every accepted request has exactly one record or waits for it, in order, and then a status that
ends it makes the record; records are made for this generation only; they leave the ring oldest
first, dequeued or counted as dropped; and with nothing pending a binding that is not being torn
down takes every request that passes the verification. -/
theorem io_request_life_cycle {S : IoSystem}
    (h : (ioMachine.restrict fun S op => op.Orderly S).Reachable S) :
    S.accepted = S.completed.map (fun c => c.2.requestId) ++ S.waiting ∧
    (S.binding.active = true → S.binding.pendingRequestId ≠ 0 → S.submitting = false →
      ∀ status : Irb, (status.terminal && status.inactive) = true →
        ∃ d S', ioMachine.Exec S [.interrupt status, .deliver d] S' ∧
          S'.completed = S.completed ++ [(S.binding.generation, S.binding.completion d.status)]) ∧
    (∀ c ∈ S.completed, c.1 = S.binding.generation) ∧
    (∃ l, S.completed.map Prod.snd = S.taken.map Prod.snd ++ l ∧ l.length ≤ ioCompletionDepth ∧
      S.completionDequeue.1 = l.head?.elim (.error (.driver .notReady)) .ok) ∧
    S.binding.completionDropped = UInt32.ofNat (S.taken.countP fun t => t.1 = .dropped) ∧
    (S.binding.teardownStarted = false → S.binding.pendingRequestId = 0 →
      ∀ request reads staged, verifyAndStageCcws S.binding.area request reads = .ok staged →
        (S.submitBegin request reads).1 = .ok ()) := by
  have hsound : Sound S := by
    refine h.invariant (P := Sound) ?_ ?_
    · rintro S₀ ⟨id, generation, area, rfl⟩
      exact sound_freshlyBound
    · rintro S₁ op S₂ h₁ ⟨hop, hnext⟩
      exact h₁.step hop hnext
  obtain ⟨hr, hc⟩ := hsound
  refine ⟨hr.log, fun hactive hpend hsub status hterm => hc.completes hactive hpend hsub hterm,
    hr.made, ?_, hr.drops,
    fun htd hpend request reads staged hstaged => by rw [submitBegin_ready hc htd hpend hstaged]⟩
  obtain ⟨l, hholds, hsplit⟩ := hr.ring
  refine ⟨l, hsplit, hholds.length_le, ?_⟩
  cases l with
  | nil =>
    have hcount : S.binding.completionCount = 0 := hholds.count_eq
    rw [completionDequeue, if_pos hcount]
    rfl
  | cons e l =>
    have hcount : S.binding.completionCount ≠ 0 := by
      rw [hholds.count_eq]
      exact Nat.succ_ne_zero _
    rw [completionDequeue, if_neg hcount]
    show Except.ok (S.binding.completions S.binding.completionHead) = _
    rw [hholds.front]
    rfl

def deviceEnd : Irb := { primary := true, secondary := true, devStatus := 0x0C }

/-- A request is submitted, started and ended by an interrupt. -/
def oneRequest (status : Irb) : List IoOp :=
  [.submit (requestOf 2) gatherWrite, .started 0, .interrupt status, .deliver ⟨5, 1, status⟩]

/-- A request is completed and dequeued, and a second one is waiting. -/
theorem io_request_life_cycle_second :
    ∃ S, (ioMachine.restrict fun S op => op.Orderly S).Reachable S ∧ S.accepted = [1, 1] ∧
      S.completed.map (fun c => c.2.requestId) = [1] ∧ S.waiting = [1] ∧
      ∃ d S', ioMachine.Exec S [.interrupt deviceEnd, .deliver d] S' ∧
        S'.completed = S.completed ++ [(S.binding.generation, S.binding.completion d.status)] := by
  obtain ⟨S, hreach, haccepted, hcompleted, hwaiting, hactive, hpend, hsub⟩ : ∃ S,
      (ioMachine.restrict fun S op => op.Orderly S).Reachable S ∧ S.accepted = [1, 1] ∧
      S.completed.map (fun c => c.2.requestId) = [1] ∧ S.waiting = [1] ∧ S.binding.active = true ∧
      S.binding.pendingRequestId ≠ 0 ∧ S.submitting = false :=
    Machine.exists_reachable_restrict_ofNext
      (oneRequest deviceEnd ++ [.dequeue, .submit (requestOf 2) gatherWrite, .started 0])
      ⟨5, 1, exampleArea, rfl⟩ (by decide +kernel)
  exact ⟨S, hreach, haccepted, hcompleted, hwaiting,
    (io_request_life_cycle hreach).2.1 hactive hpend hsub deviceEnd rfl⟩

def unitCheck : Irb := { deviceEnd with devStatus := 0x0E }

/-- After a request that ended with a unit check every further request is refused as busy, with
nothing pending, the subchannel idle and no teardown begun. And an interrupt between the publication
of a request that cannot be started and its end is delivered to the next request, which leaves the
subchannel busy. -/
theorem io_busy_after_error_counterexample :
    (∃ S, ioMachine.Exec (freshlyBound 5 1 exampleArea) (oneRequest unitCheck) S ∧
      S.binding.teardownStarted = false ∧ S.binding.pendingRequestId = 0 ∧ S.entry.state = .idle ∧
      (verifyAndStageCcws S.binding.area (requestOf 2) gatherWrite).isOk = true ∧
      (S.submitBegin (requestOf 2) gatherWrite).1 = .error (.driver .busy)) ∧
    ∃ S, ioMachine.Exec (freshlyBound 5 1 exampleArea)
        [.submit (requestOf 2) gatherWrite, .interrupt deviceEnd, .started 1,
          .submit (requestOf 2) gatherWrite, .started 0, .deliver ⟨5, 1, deviceEnd⟩] S ∧
      S.binding.teardownStarted = false ∧ S.waiting = [] ∧ S.completed.length = 1 ∧
      (S.submitBegin (requestOf 2) gatherWrite).1 = .error (.driver .busy) := by
  constructor
  · exact Machine.exists_exec_ofNext (by decide +kernel)
  · exact Machine.exists_exec_ofNext (by decide +kernel)

end ZXFoundation.Sys.Zxio
