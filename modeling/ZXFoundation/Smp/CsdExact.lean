import ZXFoundation.Smp.Csd

/-!
# Cross-CPU calls over whole runs

Beside the places of the descriptors three things are kept by every step: a stack that is not empty
is about to be taken; the leases of a CPU are as many as its state word counts; and a synchronous
call waits for every descriptor it has queued. The count is kept only because `enable_cpu`, which
stores zero, is called when no lease is out.
-/

namespace ZXFoundation.Smp.Csd

open Runs Function Csd.System

variable {S S' : System} {u j k : Nat}

/-- What a step of a drain does not touch. -/
structure DrainFrame (S S' : System) (j : Nat) : Prop where
  pending : S'.pending = S.pending
  caller : S'.caller = S.caller
  drain : ∀ i, i ≠ j → S'.drain i = S.drain i
  queue : S'.queue = S.queue ∨ S'.queue = update S.queue (S.drain j).cpu []
  fetched : (S.drain j).stage = .fetch → S'.queue (S.drain j).cpu = []
  csd : ∀ v, (S'.csd v).target = (S.csd v).target ∧ (S'.csd v).caller = (S.csd v).caller ∧
    (S'.csd v).call = (S.csd v).call ∧ ((S.csd v).done = true → (S'.csd v).done = true)

variable {f : CallData → CallData} {d : Drain}

theorem DrainFrame.one {stage : DrainStage} (hstage : (S.drain j).stage = stage)
    (hne : stage ≠ .fetch)
    (hf : ∀ x : CallData, (f x).target = x.target ∧ (f x).caller = x.caller ∧ (f x).call = x.call ∧
      (x.done = true → (f x).done = true)) : DrainFrame S ((S.setCsd u f).setDrain j d) j := by
  refine ⟨rfl, rfl, fun i hi => update_of_ne hi .., .inl rfl,
    fun heq => absurd (hstage.symm.trans heq) hne,
    fun v => ?_⟩
  simp only [setCsd, setDrain]
  exact update_cases v (hf (S.csd u)) fun _ _ => ⟨rfl, rfl, rfl, id⟩

/-- A step of a drain writes its own descriptor and its own stage. -/
theorem drainStep_frame (hok : S.drainStep j = some S') : DrainFrame S S' j := by
  unfold drainStep at hok
  dsimp only at hok
  split at hok
  · cases hok
    refine ⟨rfl, rfl, fun i hi => update_of_ne hi .., .inr rfl, fun _ => update_self ..,
      fun v => ?_⟩
    dsimp only
    split_ifs <;> exact ⟨rfl, rfl, rfl, id⟩
  · next hstage =>
    split at hok <;> cases hok
    · refine ⟨rfl, rfl, fun i hi => update_of_ne hi .., .inl rfl, fun heq => ?_,
        fun _ => ⟨rfl, rfl, rfl, id⟩⟩
      rw [hstage] at heq
      cases heq
    · exact .one hstage (by simp) fun _ => ⟨rfl, rfl, rfl, id⟩
  · next u hstage =>
    cases hok
    exact .one hstage (by simp) fun _ => ⟨rfl, rfl, rfl, id⟩
  · next u hstage =>
    cases hok
    refine .one hstage (by simp) fun x => ?_
    unfold settle
    split_ifs
    · exact ⟨rfl, rfl, rfl, id⟩
    · exact ⟨rfl, rfl, rfl, fun _ => rfl⟩
    · exact ⟨rfl, rfl, rfl, id⟩
  · next u hstage =>
    have h' : DrainFrame S ((S.setCsd u fun x => { x with place := .finished }).setDrain j
        { S.drain j with stage := .next }) j :=
      .one hstage (by simp) fun _ => ⟨rfl, rfl, rfl, id⟩
    split_ifs at hok <;> cases hok
    · exact { h' with }
    · exact h'
  · cases hok

/-! ## Interrupts -/

/-- The stack of the CPU is about to be taken. -/
def System.About (S : System) (cpu : Nat) : Prop :=
  S.pending cpu = true ∨ (∃ j, (S.drain j).cpu = cpu ∧ (S.drain j).stage = .fetch) ∨
    ∃ u, (S.csd u).target = cpu ∧ S.Announces u

/-- Every stack with calls is about to be taken. -/
def System.Taken (S : System) : Prop := ∀ cpu, S.queue cpu ≠ [] → S.About cpu

theorem announces_congr (htarget : (S'.csd u).target = (S.csd u).target)
    (hcaller : (S'.csd u).caller = (S.csd u).caller) (hcall : (S'.csd u).call = (S.csd u).call) :
    S'.Announces u ↔ S.Announces u := by
  unfold System.Announces
  rw [htarget, hcaller, hcall]

theorem not_announces (h : (S.csd u).call.before = true ∨ (∃ j, (S.csd u).call = .draining j) ∨
    (S.csd u).call = .accepted) : ¬ S.Announces u := by
  unfold System.Announces
  rcases h with h | ⟨j, h⟩ | h
  · split_ifs
    · rintro ⟨needIpi, hcall | hcall⟩ <;> rw [hcall] at h <;> cases h
    · rintro (hcall | hcall) <;> rw [hcall] at h <;> cases h
  · split_ifs <;> simp [h]
  · split_ifs <;> simp [h]

namespace System.Taken

variable (h : S.Taken)
include h

/-- Nothing is put on a stack, and who was about to take one still is. -/
theorem keep (hqueue : ∀ cpu, S'.queue cpu ≠ [] → S.queue cpu ≠ [])
    (hpending : ∀ cpu, S'.queue cpu ≠ [] → S.pending cpu = true → S'.About cpu)
    (hdrain : ∀ j, S'.queue (S.drain j).cpu ≠ [] → (S.drain j).stage = .fetch →
      S'.About (S.drain j).cpu) (hannounce : ∀ u, S.Announces u → S'.About (S.csd u).target) :
        S'.Taken := by
  intro cpu hne
  rcases h cpu (hqueue cpu hne) with hp | ⟨j, rfl, hj⟩ | ⟨u, rfl, hu⟩
  · exact hpending cpu hne hp
  · exact hdrain j hne hj
  · exact hannounce u hu

theorem keepOne (hqueue : S'.queue = S.queue) (hpending : S'.pending = S.pending)
    (hdrain : ∀ j, (S.drain j).stage = .fetch → S'.drain j = S.drain j)
    (hother : ∀ v, v ≠ u → S'.csd v = S.csd v) (hu : ¬ S.Announces u) : S'.Taken := by
  refine h.keep (fun cpu hne => by rwa [hqueue] at hne) (fun cpu _ hp => ?_) (fun j _ hj => ?_)
    fun v hv => ?_
  · exact .inl (by rw [hpending]; exact hp)
  · exact .inr (.inl ⟨j, by rw [hdrain j hj], by rw [hdrain j hj]; exact hj⟩)
  have hvu : v ≠ u := by
    rintro rfl
    exact hu hv
  have hsame := hother v hvu
  refine .inr (.inr ⟨v, by rw [hsame], ?_⟩)
  exact (announces_congr (by rw [hsame]) (by rw [hsame]) (by rw [hsame])).mpr hv

theorem create (hp : Placed S) {x : CallData} : (S.create x).Taken := by
  refine h.keepOne (u := S.made) rfl rfl (fun _ _ => rfl) (fun v hv => update_of_ne hv ..) ?_
  refine not_announces (.inl ?_)
  rw [hp.made S.made (Nat.le_refl _)]
  rfl

theorem check {online : Bool} (hok : S.check u online = some S') : S'.Taken := by
  unfold System.check at hok
  dsimp only at hok
  split_ifs at hok with hstage hbad hlocal hrefused <;> cases hok
  all_goals
    refine h.keepOne (u := u) rfl rfl (fun _ _ => rfl) (fun v hv => update_of_ne hv ..) ?_
    exact not_announces (.inl (by rw [hstage.2]; rfl))

/-- The call that finds the stack empty will see to it, and the others find it seen to. -/
theorem push (hok : S.push u = some S') : S'.Taken := by
  obtain ⟨hready, rfl⟩ := of_allow hok
  intro cpu hne
  by_cases hempty : S.queue cpu = []
  · -- only the target's stack was filled
    have hcpu : (S.csd u).target = cpu := by
      by_contra hcpu
      have hsame : update S.queue (S.csd u).target (u :: S.queue (S.csd u).target) cpu =
          S.queue cpu := update_of_ne (fun heq => hcpu heq.symm) ..
      exact hne (hsame.trans hempty)
    refine .inr (.inr ⟨u, ?_, ?_⟩)
    · simpa only [setCsd, update_self] using hcpu
    unfold System.Announces
    simp only [setCsd, update_self]
    rw [hcpu, hempty]
    split_ifs
    · exact ⟨_, .inl rfl⟩
    · exact .inl rfl
  · rcases h cpu hempty with hp | hj | ⟨v, hv, hann⟩
    · exact .inl hp
    · exact .inr (.inl hj)
    have hvu : v ≠ u := by
      rintro rfl
      exact not_announces (.inl (by rw [hready]; rfl)) hann
    refine .inr (.inr ⟨v, ?_, (announces_congr ?_ ?_ ?_).mpr hann⟩)
    all_goals simp only [setCsd, update_of_ne hvu]
    exact hv

theorem flag (hok : S.flag u = some S') : S'.Taken := by
  unfold System.flag at hok
  split at hok <;> cases hok
  next needIpi hcall =>
    refine h.keep (fun _ hne => hne) (fun _ _ hp => .inl hp)
      (fun j _ hj => .inr (.inl ⟨j, rfl, hj⟩))
      fun v hv => .inr (.inr ⟨v, ?_, ?_⟩)
    · simp only [System.setCsd]
      exact update_cases v rfl fun _ _ => rfl
    · unfold System.Announces at hv ⊢
      by_cases hvu : v = u
      · subst hvu
        simp only [System.setCsd, update_self]
        split_ifs at hv ⊢
        · exact ⟨needIpi, .inr rfl⟩
        · rcases hv with hv | hv <;> rw [hcall] at hv <;> cases hv
          exact .inr rfl
      · simpa only [System.setCsd, update_of_ne hvu] using hv

omit h in
/-- A new drain takes nothing away from the others. -/
theorem about_enterDrain (hp : Placed S) {cpu : Nat} (h : S.About cpu) {c : Nat} :
    (S.enterDrain c).About cpu := by
  rcases h with h | ⟨j, hcpu, hj⟩ | ⟨v, hv, hann⟩
  · exact .inl h
  · have hne : j ≠ S.drains := Nat.ne_of_lt (hp.lt_drains (by rw [hj]; decide))
    have hsame : (S.enterDrain c).drain j = S.drain j := update_of_ne hne ..
    exact .inr (.inl ⟨j, by rw [hsame]; exact hcpu, by rw [hsame]; exact hj⟩)
  · exact .inr (.inr ⟨v, hv, hann⟩)

omit h in
theorem about_fetch {c : Nat} : (S.enterDrain c).About c := by
  have hnew : (S.enterDrain c).drain S.drains = { cpu := c, stage := .fetch } := update_self ..
  exact .inr (.inl ⟨S.drains, by rw [hnew], by rw [hnew]⟩)

theorem send (hp : Placed S) (hok : S.send u = some S') : S'.Taken := by
  unfold System.send at hok
  dsimp only at hok
  split at hok
  swap
  · cases hok
  next needIpi hcall =>
  -- the announcements of other calls stand
  have hrest : ∀ stage, ∀ v, v ≠ u → S.Announces v →
      (S.setCsd u fun csd => { csd with call := stage }).About (S.csd v).target := by
    intro stage v hv hann
    have hsame : (S.setCsd u fun csd => { csd with call := stage }).csd v = S.csd v :=
      update_of_ne hv ..
    exact .inr (.inr ⟨v, by rw [hsame], (announces_congr (by rw [hsame]) (by rw [hsame])
      (by rw [hsame])).mpr hann⟩)
  have hnow : (S.csd u).call.before = false := by rw [hcall]; rfl
  have hset : ∀ cpu, S.pending cpu = true → update S.pending (S.csd u).target true cpu = true :=
    fun cpu => update_cases cpu (fun _ => rfl) fun _ _ => id
  split_ifs at hok with hlocal hipi <;> cases hok
  · have hp' := hp.advance (.draining S.drains) hnow rfl
    refine h.keep (fun _ hne => hne) (fun cpu _ hpend => ?_) (fun i _ hi => ?_) fun v hv => ?_
    · exact about_enterDrain hp' (.inl hpend)
    · exact about_enterDrain hp' (.inr (.inl ⟨i, rfl, hi⟩))
    by_cases hvu : v = u
    · subst hvu
      exact about_fetch
    · exact about_enterDrain hp' (hrest _ v hvu hv)
  · refine h.keep (fun _ hne => hne) (fun cpu _ hpend => .inl (hset cpu hpend))
      (fun i _ hi => .inr (.inl ⟨i, rfl, hi⟩)) fun v hv => ?_
    by_cases hvu : v = u
    · subst hvu
      exact .inl (update_self ..)
    · exact (hrest .accepted v hvu hv).imp_left (hset _)
  · refine h.keepOne (u := u) rfl rfl (fun _ _ => rfl) (fun v hv => update_of_ne hv ..) ?_
    unfold System.Announces
    rw [if_neg hlocal, hcall]
    rintro (heq | heq)
    · cases heq
    · cases heq
      exact hipi rfl

theorem resume (hok : S.resume u = some S') : S'.Taken := by
  unfold System.resume at hok
  split at hok
  · next i hcall =>
    split_ifs at hok
    cases hok
    refine h.keepOne (u := u) rfl rfl (fun _ _ => rfl) (fun v hv => update_of_ne hv ..) ?_
    exact not_announces (.inr (.inl ⟨i, hcall⟩))
  · cases hok

theorem interrupt (hp : Placed S) {cpu : Nat} (hok : S.interrupt cpu = some S') : S'.Taken := by
  obtain ⟨_, rfl⟩ := of_allow hok
  have hp' : Placed { S with pending := update S.pending cpu false } :=
    { hp with }
  refine h.keep (fun _ hne => hne) (fun c _ hpend => ?_) (fun i _ hi => ?_) fun v hv => ?_
  · by_cases hc : c = cpu
    · subst hc
      exact about_fetch
    · refine about_enterDrain hp' (.inl ?_)
      exact (update_of_ne hc ..).trans hpend
  · exact about_enterDrain hp' (.inr (.inl ⟨i, rfl, hi⟩))
  · exact about_enterDrain hp' (.inr (.inr ⟨v, rfl, hv⟩))

theorem drainStep (hok : S.drainStep j = some S') : S'.Taken := by
  have hframe := drainStep_frame hok
  refine h.keep (fun cpu hne hempty => ?_) (fun cpu _ hp => ?_) (fun i hne hi => ?_) fun v hv => ?_
  · rcases hframe.queue with heq | heq
    · exact hne (by rw [heq]; exact hempty)
    rw [heq] at hne
    induction cpu using update_cases with
    | self => exact hne rfl
    | other => exact hne hempty
  · exact .inl (by rw [hframe.pending]; exact hp)
  · have hij : i ≠ j := by
      rintro rfl
      exact hne (hframe.fetched hi)
    exact .inr (.inl ⟨i, by rw [hframe.drain i hij], by rw [hframe.drain i hij]; exact hi⟩)
  · obtain ⟨htarget, hcaller, hcall, -⟩ := hframe.csd v
    exact .inr (.inr ⟨v, htarget, (announces_congr htarget hcaller hcall).mpr hv⟩)

theorem callerStep (hp : Placed S) (hok : S.callerStep k = some S') : S'.Taken := by
  obtain ⟨c, rfl | ⟨cpu, rfl⟩⟩ := callerStep_shape hok
  · exact h
  · exact h.create hp

theorem next (hp : Placed S) {op : CsdOp} (hnext : next S op = some S') : S'.Taken := by
  cases op with
  | callAsync => cases hnext; exact h.create hp
  | callMany => simp only [Csd.next] at hnext; split_ifs at hnext <;> cases hnext <;> exact h
  | callerStep => exact h.callerStep hp hnext
  | check => exact h.check hnext
  | push => exact h.push hnext
  | flag => exact h.flag hnext
  | send => exact h.send hp hnext
  | resume => exact h.resume hnext
  | interrupt => exact h.interrupt hp hnext
  | drainStep => exact h.drainStep hnext
  | disable => cases hnext; exact h
  | disabled => obtain ⟨_, rfl⟩ := of_allow hnext; exact h
  | enable => cases hnext; exact h

end System.Taken

/-! ## Leases -/

section Words

variable (w : UInt32)

/-- The word as a number: the count in 31 bits, and the bit of a disabled CPU. -/
theorem toNat_and_countMask : (w &&& dispatchCountMask).toNat = w.toNat % 2 ^ 31 := by
  rw [UInt32.toNat_and]
  exact Nat.and_two_pow_sub_one_eq_mod w.toNat 31

theorem countMask_eq_zero : w &&& dispatchCountMask = 0 ↔ w.toNat % 2 ^ 31 = 0 := by
  rw [← toNat_and_countMask, ← UInt32.toNat_inj]
  rfl

theorem lt_of_not_disabled (h : w &&& dispatchDisabled = 0) : w.toNat < 2 ^ 31 := by
  have hzero : w.toNat &&& 2 ^ 31 = 0 := by
    have hnat := congrArg UInt32.toNat h
    rwa [UInt32.toNat_and] at hnat
  have hbit : w.toNat.testBit 31 = false := by
    have hand := congrArg (Nat.testBit · 31) hzero
    simpa only [Nat.testBit_and, Nat.testBit_two_pow_self, Bool.and_true, Nat.zero_testBit]
      using hand
  rw [Nat.testBit_eq_decide_div_mod_eq, decide_eq_false_iff_not] at hbit
  have hlt := w.toNat_lt
  omega

theorem toNat_or_disabled : 2 ^ 31 ≤ (w ||| dispatchDisabled).toNat ∧
    (w ||| dispatchDisabled).toNat % 2 ^ 31 = w.toNat % 2 ^ 31 := by
  have hor : (w ||| dispatchDisabled).toNat = w.toNat ||| 2 ^ 31 := UInt32.toNat_or ..
  rw [hor]
  refine ⟨Nat.right_le_or, ?_⟩
  rw [Nat.or_mod_two_pow]
  exact Nat.or_zero _

theorem toNat_sub_one (h : w.toNat ≠ 0) : (w - 1).toNat = w.toNat - 1 :=
  UInt32.toNat_sub_of_le w 1 (UInt32.le_iff_toNat_le.mpr (Nat.one_le_iff_ne_zero.mpr h))

end Words

/-- The call holds a lease on the CPU. -/
def System.Leases (S : System) (cpu u : Nat) : Prop :=
  (S.csd u).lease = true ∧ (S.csd u).target = cpu ∧ (S.csd u).place ≠ .finished

/-- The state word of the CPU counts the leases on it. -/
structure LeasedAt (S : System) (cpu : Nat) : Prop where
  holds : ∀ u, u ∈ S.holders cpu ↔ S.Leases cpu u
  nodup : (S.holders cpu).Nodup
  count : (S.word cpu).toNat % 2 ^ 31 = (S.holders cpu).length
  shut : S.disablers cpu ≠ 0 ∨ S.closed cpu = true → 2 ^ 31 ≤ (S.word cpu).toNat
  closed : S.closed cpu = true → S.holders cpu = []

/-- The words of all CPUs count their leases. -/
def Leased (S : System) : Prop := ∀ cpu, LeasedAt S cpu

variable {cpu : Nat}

theorem leases_congr {v : Nat} (hlease : (S'.csd v).lease = (S.csd v).lease)
    (htarget : (S'.csd v).target = (S.csd v).target)
    (hplace : (S'.csd v).place = .finished ↔ (S.csd v).place = .finished) :
    S'.Leases cpu v ↔ S.Leases cpu v := by
  unfold System.Leases
  rw [hlease, htarget, ne_eq, hplace]

variable {x : CallData}

theorem leases_update (hcsd : S'.csd = update S.csd u x)
    (hx : x.lease = true ∧ x.target = cpu ∧ x.place ≠ .finished ↔ S.Leases cpu u) (v : Nat) :
    S'.Leases cpu v ↔ S.Leases cpu v := by
  unfold System.Leases
  rw [hcsd]
  exact update_cases v hx fun _ _ => Iff.rfl

theorem LeasedAt.keep (h : LeasedAt S cpu) (hwords : S'.word cpu = S.word cpu ∧
    S'.holders cpu = S.holders cpu ∧ S'.disablers cpu = S.disablers cpu ∧
      S'.closed cpu = S.closed cpu)
    (hleases : ∀ v, S'.Leases cpu v ↔ S.Leases cpu v) : LeasedAt S' cpu := by
  obtain ⟨hword, hholders, hdisablers, hclosed⟩ := hwords
  obtain ⟨hholds, hnodup, hcount, hshut, hempty⟩ := h
  constructor
  · intro u
    rw [hholders, hleases]
    exact hholds u
  · rwa [hholders]
  · rwa [hholders, hword]
  · rwa [hword, hdisablers, hclosed]
  · rwa [hclosed, hholders]

namespace Leased

variable (h : Leased S)
include h

theorem keep (hwords : S'.word = S.word ∧ S'.holders = S.holders ∧
    S'.disablers = S.disablers ∧ S'.closed = S.closed)
    (hleases : ∀ cpu v, S'.Leases cpu v ↔ S.Leases cpu v) : Leased S' := by
  obtain ⟨hword, hholders, hdisablers, hclosed⟩ := hwords
  exact fun cpu => (h cpu).keep
    ⟨by rw [hword], by rw [hholders], by rw [hdisablers], by rw [hclosed]⟩ (hleases cpu)

theorem setCsd (hlease : (f (S.csd u)).lease = (S.csd u).lease)
    (htarget : (f (S.csd u)).target = (S.csd u).target)
    (hplace : (f (S.csd u)).place = .finished ↔ (S.csd u).place = .finished) :
    Leased (S.setCsd u f) := by
  refine h.keep ⟨rfl, rfl, rfl, rfl⟩ fun cpu => leases_update rfl ?_
  rw [hlease, htarget, ne_eq, hplace]
  rfl

theorem create (hp : Placed S) (hx : x.lease = false) : Leased (S.create x) := by
  have hold : (S.csd S.made).lease = false := by rw [hp.made S.made (Nat.le_refl _)]
  exact h.keep ⟨rfl, rfl, rfl, rfl⟩ fun cpu => leases_update rfl (by simp [System.Leases, hold, hx])

/-- A lease is taken, if the CPU is not disabled and its count not full. -/
theorem check (hp : Placed S) {online : Bool} (hok : S.check u online = some S') : Leased S' := by
  unfold System.check at hok
  dsimp only at hok
  split_ifs at hok with hstage hbad hlocal hrefused <;> cases hok
  iterate 3 · exact h.setCsd rfl rfl Iff.rfl
  have hout : (S.csd u).place = .out := (hp.uses u).out.mpr (by rw [hstage.2]; rfl)
  have hunleased := (hp.uses u).unleased hstage.2
  have hadmits : S.admits (S.csd u).target = true := by
    by_contra hnot
    exact hrefused (.inr (by simpa using hnot))
  generalize hc : (S.csd u).target = c at hadmits ⊢
  unfold System.admits at hadmits
  rw [Bool.and_eq_true, beq_iff_eq, bne_iff_ne] at hadmits
  -- the count is below its maximum, so that one more does not reach the bit
  have hlt := lt_of_not_disabled _ hadmits.1
  have hmax : (S.word c).toNat % 2 ^ 31 ≠ 2 ^ 31 - 1 := fun heq => hadmits.2 (by
    rw [← UInt32.toNat_inj, toNat_and_countMask, heq]
    rfl)
  have hword : (S.word c + 1).toNat = (S.word c).toNat + 1 := by
    rw [UInt32.toNat_add]
    exact Nat.mod_eq_of_lt (by show _ + 1 < 2 ^ 32; omega)
  intro cpu
  by_cases hcpu : cpu = c
  · subst hcpu
    have hopen : ¬ (S.disablers cpu ≠ 0 ∨ S.closed cpu = true) := fun hshut =>
      absurd ((h cpu).shut hshut) (by omega)
    have hnew : u ∉ S.holders cpu := fun hmem => by
      have hlease := (((h cpu).holds u).mp hmem).1
      rw [hunleased] at hlease
      cases hlease
    refine ⟨fun v => ?_, ?_, ?_, fun hshut => absurd hshut hopen,
      fun hshut => absurd (.inr hshut) hopen⟩
    · simp only [update_self, List.mem_cons, System.setCsd]
      rw [(h cpu).holds]
      by_cases hv : v = u
      · subst hv
        simp [System.Leases, hc, hout]
      · simp [System.Leases, hv]
    · simpa only [update_self, System.setCsd] using List.nodup_cons.mpr ⟨hnew, (h cpu).nodup⟩
    · have hold := (h cpu).count
      simp only [update_self, System.setCsd]
      rw [hword, List.length_cons]
      omega
  · refine (h cpu).keep ⟨update_of_ne hcpu .., update_of_ne hcpu .., rfl, rfl⟩
      (leases_update rfl ?_)
    have hne : (S.csd u).target ≠ cpu := fun heq => hcpu (heq.symm.trans hc)
    simp [System.Leases, hne]

theorem push (hp : Placed S) (hok : S.push u = some S') : Leased S' := by
  obtain ⟨hready, rfl⟩ := of_allow hok
  have hout : (S.csd u).place = .out := (hp.uses u).out.mpr (by rw [hready]; rfl)
  have h' := h.setCsd (u := u) (f := fun csd => { csd with
    call := .pushed (S.queue (S.csd u).target).isEmpty, place := .queued csd.target }) rfl rfl
    (by rw [hout]; exact iff_of_false (by simp) (by simp))
  exact h'.keep ⟨rfl, rfl, rfl, rfl⟩ fun _ _ => Iff.rfl

theorem send (hok : S.send u = some S') : Leased S' := by
  unfold System.send at hok
  dsimp only at hok
  split at hok
  · have h' : ∀ stage, Leased (S.setCsd u fun csd => { csd with call := stage }) :=
      fun _ => h.setCsd rfl rfl Iff.rfl
    split_ifs at hok <;> cases hok
    · exact (h' _).keep ⟨rfl, rfl, rfl, rfl⟩ fun _ _ => Iff.rfl
    · exact (h' _).keep ⟨rfl, rfl, rfl, rfl⟩ fun _ _ => Iff.rfl
    · exact h' _
  · cases hok

/-- The lease goes back to the CPU on which the drain runs, which is the one it was taken on. -/
theorem release (hp : Placed S) (hstage : (S.drain j).stage = .release u)
    (hlease : (S.csd u).lease = true) {T : System}
    (hT : T = (S.setCsd u fun csd => { csd with place := .finished }).setDrain j
      { S.drain j with stage := .next }) :
    Leased { T with
      word := update T.word (S.drain j).cpu (T.word (S.drain j).cpu - 1)
      holders := update T.holders (S.drain j).cpu ((T.holders (S.drain j).cpu).erase u) } := by
  subst hT
  have hplace := hp.place_of_stage.2.2.2 u hstage
  obtain ⟨-, hcpu⟩ := (hp.uses u).drained j (by rw [hplace]; rfl)
  generalize (S.drain j).cpu = c at hcpu ⊢
  intro cpu
  by_cases hne : cpu = c
  · subst hne
    have hmem : u ∈ S.holders cpu :=
      ((h cpu).holds u).mpr ⟨hlease, hcpu.symm, by rw [hplace]; exact fun h => nomatch h⟩
    have hpos : 0 < (S.holders cpu).length := List.length_pos_of_mem hmem
    have hold := (h cpu).count
    have hword := toNat_sub_one (S.word cpu) fun hzero => by
      rw [hzero, Nat.zero_mod] at hold
      omega
    refine ⟨fun v => ?_, ?_, ?_, fun hshut => ?_, fun hclosed => ?_⟩
    · simp only [System.setCsd, System.setDrain, update_self]
      rw [(h cpu).nodup.mem_erase_iff, (h cpu).holds]
      by_cases hv : v = u
      · subst hv
        simp [System.Leases]
      · simp [System.Leases, hv]
    · simpa only [System.setCsd, System.setDrain, update_self] using (h cpu).nodup.erase u
    · simp only [System.setCsd, System.setDrain, update_self]
      rw [hword, List.length_erase_of_mem hmem]
      omega
    · have hge := (h cpu).shut hshut
      simp only [System.setCsd, System.setDrain, update_self]
      rw [hword]
      omega
    · rw [(h cpu).closed hclosed] at hmem
      cases hmem
  · refine (h cpu).keep ⟨update_of_ne hne .., update_of_ne hne .., rfl, rfl⟩ (leases_update rfl ?_)
    have htarget : (S.csd u).target ≠ cpu := fun heq => hne (heq.symm.trans hcpu.symm)
    simp [System.Leases, htarget]

theorem move (hlease : (f (S.csd u)).lease = (S.csd u).lease)
    (htarget : (f (S.csd u)).target = (S.csd u).target) (hold : (S.csd u).place ≠ .finished)
    (hnew : (f (S.csd u)).place ≠ .finished) : Leased ((S.setCsd u f).setDrain j d) :=
  (h.setCsd hlease htarget (iff_of_false hnew hold)).keep ⟨rfl, rfl, rfl, rfl⟩ fun _ _ => Iff.rfl

theorem drainStep (hp : Placed S) (hok : S.drainStep j = some S') : Leased S' := by
  obtain ⟨hlisted, hrunning, hran, -⟩ := hp.place_of_stage (j := j)
  unfold System.drainStep at hok
  dsimp only at hok
  split at hok
  · cases hok
    refine h.keep ⟨rfl, rfl, rfl, rfl⟩ fun cpu v => ?_
    by_cases hv : v ∈ S.queue (S.drain j).cpu
    · have hplace := ((hp.located (.queued (S.drain j).cpu) rfl).2 v).mp hv
      apply leases_congr <;> simp only [if_pos hv]
      exact iff_of_false (by simp) (by rw [hplace]; simp)
    · apply leases_congr <;> simp only [if_neg hv]
  · split at hok
    · cases hok
      exact h.keep ⟨rfl, rfl, rfl, rfl⟩ fun _ _ => Iff.rfl
    · next u rest hrest =>
      cases hok
      exact h.move rfl rfl (by rw [hlisted u rest hrest]; simp) (by simp)
  · next u hstage =>
    cases hok
    exact h.move rfl rfl (by rw [hrunning u hstage]; simp) (by simp)
  · next u hstage =>
    cases hok
    refine h.move ?_ ?_ (by rw [hran u hstage]; simp) (by simp)
    all_goals
      unfold System.settle
      split_ifs <;> rfl
  · next u hstage =>
    split_ifs at hok with hlease <;> cases hok
    · exact h.release hp hstage hlease rfl
    exact h.keep ⟨rfl, rfl, rfl, rfl⟩ fun cpu => leases_update rfl (by simp [System.Leases, hlease])
  · cases hok

theorem callerStep (hp : Placed S) (hok : S.callerStep k = some S') : Leased S' := by
  obtain ⟨c, rfl | ⟨cpu, rfl⟩⟩ := callerStep_shape hok
  · exact h.keep ⟨rfl, rfl, rfl, rfl⟩ fun _ _ => Iff.rfl
  · exact (h.create hp rfl).keep ⟨rfl, rfl, rfl, rfl⟩ fun _ _ => Iff.rfl

/-- `disable_cpu` sets the bit and leaves the count. -/
theorem disable : Leased { S with
    word := update S.word cpu (S.word cpu ||| dispatchDisabled)
    disablers := update S.disablers cpu (S.disablers cpu + 1) } := by
  intro c
  by_cases heq : c = cpu
  · subst heq
    obtain ⟨hge, hmod⟩ := toNat_or_disabled (S.word c)
    refine ⟨(h c).holds, (h c).nodup, ?_, fun _ => ?_, (h c).closed⟩
    · simp only [update_self]
      rw [hmod]
      exact (h c).count
    · simpa only [update_self] using hge
  · exact (h c).keep ⟨update_of_ne heq .., rfl, update_of_ne heq .., rfl⟩ fun _ => Iff.rfl

/-- It returns when the count is zero, and the CPU is closed. -/
theorem disabled (hwaits : S.disablers cpu ≠ 0) (hzero : S.word cpu &&& dispatchCountMask = 0) :
    Leased { S with
      disablers := update S.disablers cpu (S.disablers cpu - 1)
      closed := update S.closed cpu true } := by
  intro c
  by_cases heq : c = cpu
  · subst heq
    refine ⟨(h c).holds, (h c).nodup, (h c).count, fun _ => (h c).shut (.inl hwaits), fun _ => ?_⟩
    refine List.length_eq_zero_iff.mp ?_
    rw [← (h c).count, (countMask_eq_zero _).mp hzero]
  · exact (h c).keep ⟨rfl, rfl, update_of_ne heq .., update_of_ne heq ..⟩ fun _ => Iff.rfl

/-- `enable_cpu` writes a zero word, which is right if no lease is out. -/
theorem enable (hnone : S.holders cpu = []) (hidle : S.disablers cpu = 0) :
    Leased { S with
      word := update S.word cpu 0
      closed := update S.closed cpu false } := by
  intro c
  by_cases heq : c = cpu
  · subst heq
    refine ⟨(h c).holds, (h c).nodup, ?_, fun hc => ?_, fun _ => hnone⟩
    · simp [hnone]
    simp only [update_self, hidle] at hc
    rcases hc with hc | hc
    · exact absurd rfl hc
    · cases hc
  · exact (h c).keep ⟨update_of_ne heq .., rfl, rfl, update_of_ne heq ..⟩ fun _ => Iff.rfl

theorem next (hp : Placed S) {op : CsdOp} (henables : Enables S op)
    (hnext : next S op = some S') : Leased S' := by
  cases op with
  | callAsync => cases hnext; exact h.create hp rfl
  | callMany =>
    simp only [Csd.next] at hnext
    split_ifs at hnext <;> cases hnext
    · exact h
    · exact h.keep ⟨rfl, rfl, rfl, rfl⟩ fun _ _ => Iff.rfl
  | callerStep => exact h.callerStep hp hnext
  | check => exact h.check hp hnext
  | push => exact h.push hp hnext
  | flag u =>
    simp only [Csd.next, flag] at hnext
    split at hnext <;> cases hnext
    exact h.setCsd rfl rfl Iff.rfl
  | send => exact h.send hnext
  | resume u =>
    simp only [Csd.next, resume] at hnext
    split at hnext
    · split_ifs at hnext
      cases hnext
      exact h.setCsd rfl rfl Iff.rfl
    · cases hnext
  | interrupt cpu =>
    obtain ⟨_, rfl⟩ := of_allow hnext
    exact h.keep ⟨rfl, rfl, rfl, rfl⟩ fun _ _ => Iff.rfl
  | drainStep => exact h.drainStep hp hnext
  | disable cpu => cases hnext; exact h.disable
  | disabled cpu =>
    obtain ⟨hcond, rfl⟩ := of_allow hnext
    exact h.disabled hcond.1 hcond.2
  | enable cpu => cases hnext; exact h.enable henables.1 henables.2

end Leased

/-! ## Synchronous calls -/

/-- What is done stays done, and a step that is not one of a synchronous call leaves those calls
alone. -/
structure Progress (S S' : System) : Prop where
  done : ∀ v, (S.csd v).done = true → (S'.csd v).done = true
  caller : S'.caller = S.caller

theorem Progress.of_update (hcsd : S'.csd = update S.csd u x)
    (hx : (S.csd u).done = true → x.done = true)
    (hcaller : S'.caller = S.caller) : Progress S S' := by
  refine ⟨fun v => ?_, hcaller⟩
  rw [hcsd]
  exact update_cases v hx fun _ _ => id

theorem Progress.create (hp : Placed S) : Progress S (S.create x) := by
  refine .of_update rfl (fun hdone => ?_) rfl
  rw [hp.made S.made (Nat.le_refl _)] at hdone
  cases hdone

variable {op : CsdOp}

/-- A step of another context undoes no call that is done. -/
theorem progress_next (hp : Placed S) (hnext : next S op = some S')
    (hmany : ∀ self targets capacity, op ≠ .callMany self targets capacity)
    (hstep : ∀ k, op ≠ .callerStep k) : Progress S S' := by
  cases op with
  | callAsync => cases hnext; exact .create hp
  | callMany self targets capacity => exact absurd rfl (hmany self targets capacity)
  | callerStep k => exact absurd rfl (hstep k)
  | check | push =>
    simp only [next, check, push] at hnext
    split_ifs at hnext <;> cases hnext <;> exact .of_update rfl id rfl
  | flag =>
    simp only [next, flag] at hnext
    split at hnext <;> cases hnext
    exact .of_update rfl id rfl
  | send =>
    simp only [next, send] at hnext
    split at hnext
    · split_ifs at hnext <;> cases hnext <;> exact .of_update rfl id rfl
    · cases hnext
  | resume =>
    simp only [next, resume] at hnext
    split at hnext
    · split_ifs at hnext
      cases hnext
      exact .of_update rfl id rfl
    · cases hnext
  | interrupt | disabled =>
    obtain ⟨_, rfl⟩ := of_allow hnext
    exact ⟨fun _ => id, rfl⟩
  | drainStep =>
    have hframe := drainStep_frame hnext
    exact ⟨fun v => (hframe.csd v).2.2.2, hframe.caller⟩
  | disable | enable => cases hnext; exact ⟨fun _ => id, rfl⟩

/-- What a synchronous call in this stage still waits for. -/
def CallerStage.left : CallerStage → Option (List Nat)
  | .waiting left => some left
  | .returned => some []
  | _ => none

/-- A call that waits has queued nothing else that is not done. -/
def System.Waited (S : System) : Prop :=
  ∀ k left, (S.caller k).stage.left = some left →
    ∀ u ∈ (S.caller k).uses, u ∈ left ∨ (S.csd u).done = true

namespace System.Waited

theorem keep (h : S.Waited) (hprogress : Progress S S') : S'.Waited := by
  intro k left hleft u hu
  rw [hprogress.caller] at hleft hu
  exact (h k left hleft u hu).imp_right (hprogress.done u)

/-- A caller goes on to what it has not waited for yet. -/
theorem setCaller (h : S.Waited) {c : Caller} (hc : ∀ left, c.stage.left = some left →
    ∀ u ∈ c.uses, u ∈ left ∨ (S.csd u).done = true) : (S.setCaller k c).Waited := by
  intro i
  simp only [System.setCaller]
  exact update_cases i hc fun i _ => h i

theorem callerStep (h : S.Waited) (hp : Placed S) (hok : S.callerStep k = some S') : S'.Waited := by
  unfold System.callerStep at hok
  dsimp only at hok
  split at hok
  · next hstage =>
    split at hok
    · cases hok
      refine h.setCaller fun left hleft u hu => ?_
      cases hleft
      exact .inl hu
    · split_ifs at hok <;> cases hok
      · exact h.setCaller fun left hleft => by rw [hstage] at hleft; cases hleft
      · exact setCaller (S := S.create _) (h.keep (.create hp)) fun left hleft => nomatch hleft
  · split at hok <;> cases hok
    · exact h.setCaller fun left hleft => nomatch hleft
    · exact h.setCaller fun left hleft => nomatch hleft
  · next hstage =>
    cases hok
    refine h.setCaller fun left hleft u hu => ?_
    cases hleft
    exact h k [] (by rw [hstage]; rfl) u hu
  · next v rest hstage =>
    obtain ⟨hdone, rfl⟩ := of_allow hok
    refine h.setCaller fun left hleft u hu => ?_
    cases hleft
    rcases h k (v :: rest) (by rw [hstage]; rfl) u hu with hmem | hd
    · rcases List.mem_cons.mp hmem with rfl | hmem
      · exact .inr hdone
      · exact .inl hmem
    · exact .inr hd
  · cases hok

theorem next (h : S.Waited) (hp : Placed S) (hnext : next S op = some S') : S'.Waited := by
  cases op with
  | callerStep => exact h.callerStep hp hnext
  | callMany =>
    simp only [Csd.next] at hnext
    split_ifs at hnext <;> cases hnext
    · exact h
    · exact h.setCaller fun left hleft => nomatch hleft
  | _ =>
    exact h.keep (progress_next hp hnext (fun _ _ _ heq => nomatch heq) fun _ heq => nomatch heq)

end System.Waited

/-! ## Whole runs -/

/-- The three invariants together. -/
structure Invariant (S : System) : Prop where
  placed : Placed S
  taken : S.Taken
  leased : Leased S
  waited : S.Waited

theorem Invariant.start : Invariant {} where
  placed := Placed.start
  taken := fun _ hne => absurd rfl hne
  leased := fun cpu => by constructor <;> simp [System.Leases]
  waited := fun _ _ _ _ hu => nomatch hu

/-- One step of any context. -/
theorem Invariant.next (h : Invariant S) (henables : Enables S op) (hnext : next S op = some S') :
    Invariant S' :=
  ⟨h.placed.next hnext, h.taken.next h.placed hnext, h.leased.next h.placed henables hnext,
    h.waited.next h.placed hnext⟩

namespace Placed

/-- Where a descriptor is tells whether its function has run. -/
theorem ran_of_hasRun (h : Placed S) (hrun : (S.csd u).place.hasRun = true) :
    (S.csd u).ranOn = [(S.csd u).target] := by
  rw [(h.uses u).ran, if_pos hrun]

theorem ran_of_done (h : Placed S) (hdone : (S.csd u).done = true) :
    (S.csd u).ranOn = [(S.csd u).target] :=
  h.ran_of_hasRun ((h.uses u).done hdone)

theorem drain_busy (h : Placed S) (hj : (S.csd u).place.drain? = some j) :
    (S.drain j).stage ≠ .finished := by
  intro hstage
  have hrest := h.idle j (.inr hstage)
  have hmem : u ∈ S.members (S.csd u).place := by
    refine ((h.located _ ?_).2 u).mpr rfl
    rcases cases_drain hj with heq | heq | heq | heq <;> rw [heq] <;> rfl
  rcases cases_drain hj with heq | heq | heq | heq <;> rw [heq] at hmem <;>
    simp [members, hrest, hstage] at hmem

end Placed

/-- When all contexts are at rest, every accepted call has run. -/
theorem Invariant.all (h : Invariant S) (hquiet : S.Quiet) (hcall : (S.csd u).call = .accepted) :
    (S.csd u).place.hasRun = true := by
  obtain ⟨hpending, hdrain, hcalls⟩ := hquiet
  have hout : (S.csd u).place ≠ .out := fun heq => by
    have hbefore := (h.placed.uses u).out.mp heq
    rw [hcall] at hbefore
    cases hbefore
  have hidle : ∀ j, (S.csd u).place.drain? ≠ some j := fun j hj => h.placed.drain_busy hj (hdrain j)
  cases hplace : (S.csd u).place with
  | out => exact absurd hplace hout
  | queued cpu =>
    -- the stack would be about to be taken
    have hne : S.queue cpu ≠ [] :=
      List.ne_nil_of_mem (((h.placed.located (.queued cpu) rfl).2 u).mpr hplace)
    rcases h.taken cpu hne with hp | ⟨j, -, hj⟩ | ⟨v, -, hann⟩
    · rw [hpending] at hp
      cases hp
    · rw [hdrain] at hj
      cases hj
    by_cases hv : (S.csd v).call = .check
    · exact absurd hann (not_announces (.inl (by rw [hv]; rfl)))
    refine absurd hann (not_announces ?_)
    rcases hcalls v (h.placed.lt_made hv) with heq | heq
    · exact .inr (.inr heq)
    · exact .inl (by rw [heq]; rfl)
  | listed j | running j | ran j | settled j => exact absurd (by rw [hplace]; rfl) (hidle j)
  | finished => rfl

theorem Invariant.sound (h : Invariant S) : Sound S where
  once := fun u => by
    by_cases hrun : (S.csd u).place.hasRun = true
    · refine .inr ⟨h.placed.ran_of_hasRun hrun, fun heq => ?_⟩
      rw [(h.placed.uses u).out.mpr (by rw [heq]; rfl)] at hrun
      cases hrun
    · exact .inl (by rw [(h.placed.uses u).ran, if_neg hrun])
  all := fun hquiet u _ hcall => h.placed.ran_of_hasRun (h.all hquiet hcall)
  done := fun u hdone => h.placed.ran_of_done hdone
  sync := fun k hk u hu => by
    rcases h.waited k [] (by rw [hk]; rfl) u hu with hmem | hdone
    · cases hmem
    · exact h.placed.ran_of_done hdone
  taken := h.taken
  closed := fun cpu hclosed u htarget hcaller hcheck hrefused => by
    have hlease := (h.placed.uses u).leased (by rwa [htarget]) hcheck hrefused
    have hplace : (S.csd u).place = .finished := by
      by_contra hne
      have hmem := ((h.leased cpu).holds u).mpr ⟨hlease, htarget, hne⟩
      rw [(h.leased cpu).closed hclosed] at hmem
      cases hmem
    rw [← htarget]
    exact h.placed.ran_of_hasRun (by rw [hplace]; rfl)

/-- The run invariant, as long as `enable_cpu` finds no lease out. -/
theorem Invariant.of_reachable (h : (csdMachine.restrict Enables).Reachable S) : Invariant S := by
  refine h.invariant (P := Invariant) ?_ ?_
  · rintro _ rfl
    exact Invariant.start
  · rintro S₁ op S₂ h₁ ⟨henables, hnext⟩
    exact h₁.next henables hnext

/-- In every run in which `enable_cpu` finds no lease out, calls run exactly once, on their targets
and before their callers go on, and a disabled CPU has none. -/
theorem calls_run_exactly_once (h : (csdMachine.restrict Enables).Reachable S) : Sound S :=
  (Invariant.of_reachable h).sound

instance (S : System) (op : CsdOp) : Decidable (Enables S op) := by
  cases op <;> unfold Enables <;> infer_instance

/-- CPU 0 calls a function on CPU 1 and waits for it; then CPU 1 is disabled. -/
def syncCall : List CsdOp :=
  [.enable 1, .callMany 0 [1] 1, .callerStep 0, .check 0 true, .push 0, .flag 0, .send 0,
    .callerStep 0, .interrupt 1, .drainStep 0, .drainStep 0, .drainStep 0, .drainStep 0,
    .drainStep 0, .drainStep 0, .callerStep 0, .callerStep 0, .callerStep 0, .disable 1,
    .disabled 1]

theorem calls_run_exactly_once_syncCall : ∃ S, (csdMachine.restrict Enables).Reachable S ∧
    (S.caller 0).uses = [0] ∧ (S.caller 0).stage = .returned ∧ (S.csd 0).ranOn = [1] ∧
    S.closed 1 = true ∧ Sound S := by
  obtain ⟨S, hreach, huses, hstage, hran, hclosed⟩ :
    ∃ S, (csdMachine.restrict Enables).Reachable S ∧
      (S.caller 0).uses = [0] ∧ (S.caller 0).stage = .returned ∧ (S.csd 0).ranOn = [1] ∧
        S.closed 1 = true :=
    Machine.exists_reachable_restrict_ofNext syncCall rfl (by decide +kernel)
  exact ⟨S, hreach, huses, hstage, hran, hclosed, calls_run_exactly_once hreach⟩

/-- A second `enable_cpu` of CPU 1 comes while CPU 0 has a lease on it. -/
def enabledTwice : List CsdOp :=
  [.enable 1, .callAsync 0 1 false true false, .check 0 true, .enable 1, .push 0, .flag 0, .send 0,
    .disable 1, .disabled 1]

/-- The lease is no longer counted, and `disable_cpu` returns with the accepted call on the stack.
When the lease comes back the count is below zero: the word is all ones, which is "disabled" and a
full count. Also without a second `enable_cpu` there is neither an interrupt nor a drain between a
push and the end of the call that has pushed. -/
theorem calls_left_behind :
    (∃ S, csdMachine.Reachable S ∧ S.closed 1 = true ∧ (S.csd 0).target = 1 ∧ (S.csd 0).caller = 0 ∧
      (S.csd 0).call = .accepted ∧ (S.csd 0).ranOn = [] ∧ ¬ Sound S) ∧
    (∃ S, csdMachine.Reachable S ∧ S.closed 1 = false ∧ S.word 1 = 0xFFFFFFFF ∧ S.holders 1 = []) ∧
    ∃ S, (csdMachine.restrict Enables).Reachable S ∧ S.queue 1 = [0] ∧ S.pending 1 = false ∧
      S.drains = 0 ∧ (S.csd 0).call = .pushed true := by
  refine ⟨?_, ?_, ?_⟩
  · obtain ⟨S, hexec, hclosed, htarget, hcaller, hcall, hran⟩ :
      ∃ S, csdMachine.Exec {} enabledTwice S ∧
        S.closed 1 = true ∧ (S.csd 0).target = 1 ∧ (S.csd 0).caller = 0 ∧
          (S.csd 0).call = .accepted ∧
        (S.csd 0).ranOn = [] :=
      Machine.exists_exec_ofNext (by decide +kernel)
    refine ⟨S, ⟨{}, _, rfl, hexec⟩, hclosed, htarget, hcaller, hcall, hran, fun h => ?_⟩
    have hone := h.closed 1 hclosed 0 htarget (by rw [hcaller]; decide)
      (by rw [hcall]; decide) (by rw [hcall]; decide)
    rw [hran] at hone
    cases hone
  · obtain ⟨S, hexec, hend⟩ : ∃ S, csdMachine.Exec {}
        (enabledTwice.take 7 ++ .interrupt 1 :: List.replicate 6 (.drainStep 0)) S ∧
        S.closed 1 = false ∧ S.word 1 = 0xFFFFFFFF ∧ S.holders 1 = [] :=
      Machine.exists_exec_ofNext (by decide +kernel)
    exact ⟨S, ⟨{}, _, rfl, hexec⟩, hend⟩
  · exact Machine.exists_reachable_restrict_ofNext
      [.callAsync 0 1 false true false, .check 0 true, .push 0] rfl (by decide +kernel)

/-- In every run, also when `enable_cpu` finds leases out: a function runs at most once, and on its
target; a synchronous call returns after its functions have run; and a stack has different
descriptors of its CPU, which have not run, and is about to be taken. -/
theorem calls_never_run_twice (h : csdMachine.Reachable S) :
    (∀ u, (S.csd u).ranOn = [] ∨ (S.csd u).ranOn = [(S.csd u).target]) ∧
    (∀ k, (S.caller k).stage = .returned →
      ∀ u ∈ (S.caller k).uses, (S.csd u).ranOn = [(S.csd u).target]) ∧
    ∀ cpu, (S.queue cpu).Nodup ∧
      (∀ u ∈ S.queue cpu, (S.csd u).target = cpu ∧ (S.csd u).ranOn = []) ∧
      (S.queue cpu ≠ [] → S.About cpu) := by
  obtain ⟨hplaced, htaken, hwaited⟩ : Placed S ∧ S.Taken ∧ S.Waited := by
    refine h.invariant (P := fun S => Placed S ∧ S.Taken ∧ S.Waited) ?_ ?_
    · rintro _ rfl
      exact ⟨Invariant.start.placed, Invariant.start.taken, Invariant.start.waited⟩
    · rintro S₁ op S₂ ⟨hplaced, htaken, hwaited⟩ hnext
      exact ⟨hplaced.next hnext, htaken.next hplaced hnext, hwaited.next hplaced hnext⟩
  refine ⟨fun u => ?_, fun k hk u hu => ?_, fun cpu => ?_⟩
  · rw [(hplaced.uses u).ran]
    split
    · exact .inr rfl
    · exact .inl rfl
  · rcases hwaited k [] (by rw [hk]; rfl) u hu with hmem | hdone
    · cases hmem
    · exact hplaced.ran_of_done hdone
  · obtain ⟨hnodup, hmem⟩ := hplaced.located (.queued cpu) rfl
    refine ⟨hnodup, fun u hu => ?_, htaken cpu⟩
    have hplace := (hmem u).mp hu
    refine ⟨((hplaced.uses u).queued cpu hplace).symm, ?_⟩
    rw [(hplaced.uses u).ran, hplace]
    rfl

theorem calls_never_run_twice_enabledTwice :
    ∃ S, csdMachine.Reachable S ∧ S.closed 1 = true ∧ S.queue 1 = [0] ∧ (S.csd 0).ranOn = [] := by
  obtain ⟨S, hexec, hclosed, hqueue⟩ : ∃ S, csdMachine.Exec {} enabledTwice S ∧ S.closed 1 = true ∧
      S.queue 1 = [0] := Machine.exists_exec_ofNext (by decide +kernel)
  have hreach : csdMachine.Reachable S := ⟨{}, _, rfl, hexec⟩
  have hstack := ((calls_never_run_twice hreach).2.2 1).2.1
  exact ⟨S, hreach, hclosed, hqueue, (hstack 0 (by rw [hqueue]; simp)).2⟩

/-- As long as `enable_cpu` finds no lease out, the word of every CPU counts the leases on it, and a
closed CPU has none. -/
theorem leases_counted (h : (csdMachine.restrict Enables).Reachable S) : Leased S :=
  (Invariant.of_reachable h).leased

theorem leases_counted_syncCall :
    ∃ S, (csdMachine.restrict Enables).Reachable S ∧ S.closed 1 = true ∧
    (S.word 1).toNat % 2 ^ 31 = 0 := by
  obtain ⟨S, hreach, hclosed⟩ : ∃ S, (csdMachine.restrict Enables).Reachable S ∧
    S.closed 1 = true :=
    Machine.exists_reachable_restrict_ofNext syncCall rfl (by decide +kernel)
  have hat := leases_counted hreach 1
  exact ⟨S, hreach, hclosed, by rw [hat.count, hat.closed hclosed]; rfl⟩

end ZXFoundation.Smp.Csd
