import Mathlib.Order.Bounds.Defs
import ZXFoundation.Sync.RtMutex

/-!
# What a boost is owed to

The source keeps one number per strand, `boosted_prio`. It is exact while three things hold of every
strand (`Ranks`): no waiter of a mutex it owns ranks above it, its boost is covered by the rank of
such a waiter, and the boost is not below its own priority. A strand that blocks may rank above the
owner; the walk of `slow_lock` repairs that link and breaks the next one, so the invariant is
carried along the chain with one waiter excepted.

`PiOp.Inherits` leaves out what breaks it: `boost_prio` lowers an owner whose own priority is above
the waiter's; `unlock` drops the whole boost of a strand with other contended mutexes; a strand that
queues before the owner is stored boosts nobody; and of queued strands the source sees only what
lies at their stray pointers, so a walk passes on a number that nobody has, and an `unlock` that
finds a waiter writes through one.
-/

namespace ZXFoundation.Sync.Rtmutex

open Runs Function PiSystem List
open Sched (StrandId)
open Sched.Rt (boostPrio unboostPrio effectiveRtPrio)

namespace PiSystem

def boosted (S : PiSystem) (s : StrandId) : Nat := (S.strand s).body.boostedPrio

/-- The strand's own priority: of the saved policy while it is boosted. -/
def ownPrio (S : PiSystem) (s : StrandId) : Nat :=
  if S.boosted s = 0 then S.prio s
  else if (S.strand s).body.savedClass = .rt then (S.strand s).body.savedPrio else 0

/-- What a strand on the chain of owners must be like for the boost to be right: it is a strand
other than the one that blocks, the gate to it is open, and the priority does not lower it. -/
def linkFits (S : PiSystem) (self gate cur : StrandId) (prio : Nat) : Bool :=
  cur != self && S.piMayCross gate cur && !(S.strand cur).idle &&
    (prio == 0 || S.boosted cur != 0 || decide (S.ownPrio cur ≤ prio))

/-- The chain of owners in front of a strand that blocks on the mutex is no cycle and not too long
for the walk, fits link by link, and no stray pointer of those who wait along it shows a higher
priority. -/
def chainFits (self : StrandId) (m : MutexId) : Nat → PiSystem → StrandId → Option Ptr → Nat → Bool
  | _, _, _, none, _ => true
  | 0, _, _, some _, _ => false
  | _ + 1, _, _, some (.stray _), _ => false
  | depth + 1, S, gate, some (.strand cur), prio =>
    S.linkFits self gate cur prio &&
      match S.blockedOn cur with
      | none => true
      | some next => next != m && decide (S.topWaiterPrio next ≤ prio) &&
          ((S.mutex next).owner == some (.strand cur) ||
            chainFits self m depth S cur (S.mutex next).owner prio)

end PiSystem

/-- The steps that keep the boosts exact. -/
def PiOp.Inherits (S : PiSystem) : PiOp → Prop
  | .go s =>
    match S.phase s with
    | .claimed m => (S.mutex m).owner = none ∧ (S.mutex m).waiters = []
    | .slow m =>
      if (S.mutex m).lockWord = 0 then (S.mutex m).owner = none ∧ (S.mutex m).waiters = []
      else (S.mutex m).owner = some (.strand s) ∨ (S.mutex m).owner ≠ none ∧
        chainFits s m maxPiDepth S s (S.mutex m).owner (S.prio s) = true
    | _ => True
  | .unlock s m =>
    (S.mutex m).owner = some (.strand s) ∧ (S.mutex m).waiters = [] ∧
      ∀ m' ∈ S.held s, m' ≠ m → (S.mutex m').owner = some (.strand s) →
        ∀ w ∈ (S.mutex m').waiters, S.prio w ≤ S.ownPrio s
  | _ => True

instance (S : PiSystem) (op : PiOp) : Decidable (op.Inherits S) :=
  match op with
  | .lock _ _ | .tryLock _ _ | .stir _ _ => .isTrue trivial
  | .unlock _ _ => by
    dsimp only [PiOp.Inherits]
    infer_instance
  | .go s => by
    dsimp only [PiOp.Inherits]
    generalize S.phase s = phase
    exact match phase with
      | .outside | .sleeping _ => .isTrue trivial
      | .claimed _ | .slow _ => by infer_instance

variable {S₀ S S' : PiSystem} {m m' : MutexId} {s t w g cur : StrandId} {p : Nat}
    {st₀ st : Sched.Strand}

/-! ## Saving and restoring a policy -/

/-- The strand has its first policy, or has it saved under a boost. -/
structure Kept (st₀ st : Sched.Strand) : Prop where
  idle : st.idle = true → st.body.boostedPrio = 0
  plain : st.body.boostedPrio = 0 → st.policy = st₀.policy
  boosted : st.body.boostedPrio ≠ 0 →
    st.policy = { st₀.policy with classId := .rt, rtPriority := st.body.boostedPrio } ∧
      st.body.savedClass = st₀.policy.classId ∧ st.body.savedPrio = st₀.policy.rtPriority

theorem boostPrio_boosted (h : st.idle = false) :
    (boostPrio st p).body.boostedPrio = max st.body.boostedPrio p := by
  unfold boostPrio
  rw [h]
  by_cases hz : st.body.boostedPrio = 0
  · by_cases hp : 0 < p
    · simp [hz, hp]
    · simp [hz, Nat.eq_zero_of_not_pos hp]
  · by_cases hp : st.body.boostedPrio < p
    · simp [hz, hp, hp.le]
    · simp [hz, hp, Nat.le_of_not_lt hp]

theorem Kept.boost (h : Kept st₀ st) (p : Nat) : Kept st₀ (boostPrio st p) := by
  unfold boostPrio
  split
  · exact h
  next hidle =>
  by_cases hz : st.body.boostedPrio = 0
  · -- the first boost saves the policy
    have hpolicy := h.plain hz
    rw [if_pos hz]
    dsimp only
    split
    · exact ⟨fun hi => absurd hi hidle, fun hp => absurd hp (by dsimp only; omega),
        fun _ => ⟨by rw [hpolicy], by rw [hpolicy], by rw [hpolicy]⟩⟩
    · exact ⟨fun hi => absurd hi hidle, fun _ => hpolicy, fun hne => absurd hz hne⟩
  · obtain ⟨hpolicy, hclass, hprio⟩ := h.boosted hz
    rw [if_neg hz]
    dsimp only
    split
    · exact ⟨fun hi => absurd hi hidle, fun hp => absurd hp (by dsimp only; omega),
        fun _ => ⟨by dsimp only; rw [hpolicy], hclass, hprio⟩⟩
    · exact h

theorem Kept.unboost (h : Kept st₀ st) :
    Kept st₀ (unboostPrio st) ∧ (unboostPrio st).body.boostedPrio = 0 := by
  unfold unboostPrio
  by_cases hz : st.body.boostedPrio = 0
  · simp only [hz, beq_self_eq_true, Bool.or_true, if_true]
    exact ⟨h, trivial⟩
  obtain ⟨hpolicy, hclass, hprio⟩ := h.boosted hz
  have hidle : st.idle = false := Bool.eq_false_iff.mpr fun hi => hz (h.idle hi)
  have hne : (st.body.boostedPrio == 0) = false := beq_eq_false_iff_ne.mpr hz
  simp only [hidle, hne, Bool.or_self, Bool.false_eq_true, if_false]
  refine ⟨⟨fun _ => rfl, fun _ => ?_, fun hne => absurd rfl hne⟩, trivial⟩
  rw [hpolicy, hclass, hprio]

theorem Kept.prio (h : Kept st₀ st) (h₀ : st₀.body.boostedPrio = 0) :
    effectiveRtPrio st = if st.body.boostedPrio = 0 then effectiveRtPrio st₀
      else st.body.boostedPrio := by
  unfold effectiveRtPrio
  by_cases hz : st.body.boostedPrio = 0
  · rw [h.plain hz, hz, h₀]
    simp
  · simp [hz]

/-! ## Ranks along a chain -/

/-- The boosts are exact, but for a waiter that may rank above those it waits for. -/
structure Ranks (S₀ S : PiSystem) (skip : Option StrandId) : Prop where
  kept : ∀ s, Kept (S₀.strand s) (S.strand s)
  floor : ∀ s, S.boosted s ≠ 0 → S₀.prio s ≤ S.boosted s
  owed : ∀ s, S.boosted s ≠ 0 → ∃ w, S.Blocks w s ∧ S.boosted s ≤ S.prio w
  covers : ∀ s w, S.Blocks w s → skip ≠ some w → S.prio w ≤ S.prio s

/-! ## The walk -/

variable {v : Sched.Strand}

theorem setStrand_strand_self : (S.setStrand s v).strand s = v := update_self ..

theorem setStrand_strand_of_ne (h : t ≠ s) : (S.setStrand s v).strand t = S.strand t :=
  update_of_ne h ..

theorem setStrand_prio_of_ne (h : t ≠ s) : (S.setStrand s v).prio t = S.prio t :=
  congrArg effectiveRtPrio (setStrand_strand_of_ne h)

theorem setStrand_boosted_of_ne (h : t ≠ s) : (S.setStrand s v).boosted t = S.boosted t := by
  unfold boosted
  rw [setStrand_strand_of_ne h]

theorem setStrand_boosted_self : (S.setStrand s v).boosted s = v.body.boostedPrio := by
  unfold boosted
  rw [setStrand_strand_self]

theorem boost_boosted (h : (S.strand s).idle = false) (p : Nat) :
    (S.boost s p).boosted s = max (S.boosted s) p := by
  unfold boost
  rw [setStrand_boosted_self]
  exact boostPrio_boosted h

variable {skip : Option StrandId}

theorem Ranks.kept_setStrand (h : Ranks S₀ S skip)
    (hv : Kept (S₀.strand s) v) (t : StrandId) : Kept (S₀.strand t) ((S.setStrand s v).strand t) :=
  (forall_update_iff S.strand fun t v => Kept (S₀.strand t) v).mpr ⟨hv, fun t _ => h.kept t⟩ t

/-- A strand waits for one mutex, and is in the way of nobody but its owner. -/
theorem Links.owner_of_blocks (h : Links S) (hw : S.blockedOn w = some m) (hblocks : S.Blocks w s) :
    (S.mutex m).owner = some (.strand s) := by
  obtain ⟨m', howner, hmem⟩ := hblocks
  rw [h.linked, hw] at hmem
  cases hmem
  exact howner

section Walk

variable (h₀ : Start S₀)
include h₀

theorem Ranks.prio_eq (h : Ranks S₀ S skip) (s : StrandId) :
    S.prio s = if S.boosted s = 0 then S₀.prio s else S.boosted s :=
  (h.kept s).prio (h₀.unboosted s)

theorem Ranks.ownPrio_eq (h : Ranks S₀ S skip) (s : StrandId) : S.ownPrio s = S₀.prio s := by
  unfold ownPrio
  split
  · next hz => rw [h.prio_eq h₀ s, if_pos hz]
  next hz =>
  obtain ⟨-, hclass, hprio⟩ := (h.kept s).boosted hz
  rw [hclass, hprio]
  unfold prio effectiveRtPrio
  simp [h₀.unboosted s]

/-- A boost raises the rank of a strand to the priority or leaves it. -/
theorem Ranks.boost_prio (h : Ranks S₀ S skip) (hidle : (S.strand cur).idle = false)
    (hlow : p = 0 ∨ S.boosted cur ≠ 0 ∨ S₀.prio cur ≤ p) :
    S.prio cur ≤ (S.boost cur p).prio cur ∧ p ≤ (S.boost cur p).prio cur ∧
      ((S.boost cur p).prio cur = p ∨ (S.boost cur p).prio cur = S.prio cur) := by
  have hrank : (S.boost cur p).prio cur =
      if (S.boost cur p).boosted cur = 0 then S₀.prio cur else (S.boost cur p).boosted cur :=
    (h.kept_setStrand ((h.kept cur).boost p) cur).prio (h₀.unboosted cur)
  rw [hrank, h.prio_eq h₀ cur, boost_boosted hidle p]
  by_cases hz : S.boosted cur = 0
  · rcases hlow with rfl | hne | hlow
    · simp [hz]
    · exact absurd hz hne
    · by_cases hpz : p = 0
      · simp [hz, hpz]
      · simp [hz, hpz, hlow]
  · have hmax : max (S.boosted cur) p ≠ 0 := by omega
    rw [if_neg hz, if_neg hmax]
    omega

/-- The owner of the mutex is boosted to a priority that one of its waiters has. It is then above
all its own waiters, and either has that priority now or the one it had before. -/
theorem Ranks.boost (h : Ranks S₀ S (some g)) (hlinks : Links S) (hg : S.blockedOn g = some m)
    (howner : (S.mutex m).owner = some (.strand cur)) (hp : p ≤ S.prio g)
    (hle : S.prio g ≤ p ∨ S.prio g ≤ S.prio cur) (hidle : (S.strand cur).idle = false)
    (hlow : p = 0 ∨ S.boosted cur ≠ 0 ∨ S₀.prio cur ≤ p) :
    Ranks S₀ (S.boost cur p) (some cur) ∧ p ≤ (S.boost cur p).prio cur ∧
      ((S.boost cur p).prio cur = p ∨ (S.boost cur p).prio cur = S.prio cur) := by
  have hkept := h.kept_setStrand ((h.kept cur).boost p)
  have hboosted := boost_boosted hidle p
  have hfloor := h.floor cur
  have hnew := h.boost_prio h₀ hidle hlow
  have hgc : g ≠ cur := by
    rintro rfl
    exact hlinks.apart m g howner hg
  have hother : ∀ t, t ≠ cur → (S.boost cur p).prio t = S.prio t :=
    fun t ht => setStrand_prio_of_ne ht
  have hall : ∀ t, S.prio t ≤ (S.boost cur p).prio t := by
    intro t
    by_cases ht : t = cur
    · exact ht ▸ hnew.1
    · exact (hother t ht).ge
  refine ⟨⟨hkept, fun s hs => ?_, fun s hs => ?_, fun s w hblocks hskip => ?_⟩, hnew.2⟩
  · by_cases hsc : s = cur
    · subst hsc
      rw [hboosted] at hs ⊢
      rcases hlow with rfl | hne | hlow
      · exact (hfloor (by omega)).trans (le_max_left ..)
      · exact (hfloor hne).trans (le_max_left ..)
      · exact hlow.trans (le_max_right ..)
    · have heq : (S.boost cur p).boosted s = S.boosted s := setStrand_boosted_of_ne hsc
      rw [heq] at hs ⊢
      exact h.floor s hs
  · by_cases hsc : s = cur
    · subst hsc
      rw [hboosted] at hs ⊢
      by_cases hless : S.boosted s < p
      · -- a new boost is covered by the waiter it comes from
        refine ⟨g, ⟨m, howner, (hlinks.linked m g).mpr hg⟩, ?_⟩
        rw [max_eq_right hless.le]
        exact hp.trans (hall g)
      · rw [max_eq_left (Nat.le_of_not_lt hless)] at hs ⊢
        obtain ⟨w, hw, hwp⟩ := h.owed s hs
        exact ⟨w, hw, hwp.trans (hall w)⟩
    · have heq : (S.boost cur p).boosted s = S.boosted s := setStrand_boosted_of_ne hsc
      rw [heq] at hs ⊢
      obtain ⟨w, hw, hwp⟩ := h.owed s hs
      exact ⟨w, hw, hwp.trans (hall w)⟩
  · have hwc : w ≠ cur := fun heq => hskip (by rw [heq])
    rw [hother w hwc]
    by_cases hwg : w = g
    · subst hwg
      have howner' : (S.mutex m).owner = some (.strand s) := hlinks.owner_of_blocks hg hblocks
      rw [howner] at howner'
      cases howner'
      rcases hle with hle | hle
      · exact hle.trans hnew.2.1
      · exact hle.trans hnew.1
    · exact (h.covers s w hblocks (fun heq => hwg (by cases heq; rfl))).trans (hall s)

omit h₀ in
theorem boost_field {α : Type} {f : Sched.Strand → α}
    (hf : f (boostPrio (S.strand cur) p) = f (S.strand cur))
    (t : StrandId) : f ((S.boost cur p).strand t) = f (S.strand t) := by
  by_cases ht : t = cur
  · subst ht
    exact (congrArg f setStrand_strand_self).trans hf
  · exact congrArg f (setStrand_strand_of_ne ht)

omit h₀ in
theorem linkFits_boost {self gate c : StrandId} (hidle : (S.strand cur).idle = false)
    (h : S.linkFits self gate c p = true) : (S.boost cur p).linkFits self gate c p = true := by
  have howner : ∀ t, ((S.boost cur p).strand t).owner = (S.strand t).owner :=
    boost_field (by simp only [boostPrio]; split_ifs <;> rfl)
  have hidles : ((S.boost cur p).strand c).idle = (S.strand c).idle :=
    boost_field (by simp only [boostPrio]; split_ifs <;> rfl) c
  have hcross : (S.boost cur p).piMayCross gate c = S.piMayCross gate c := by
    unfold piMayCross
    rw [howner, howner]
    rfl
  unfold linkFits at h ⊢
  simp only [Bool.and_eq_true, Bool.or_eq_true, beq_iff_eq, bne_iff_ne, decide_eq_true_eq] at h ⊢
  obtain ⟨⟨⟨hself, hgate⟩, hc⟩, hlow⟩ := h
  refine ⟨⟨⟨hself, hcross.trans hgate⟩, by rw [hidles]; exact hc⟩, ?_⟩
  by_cases hcc : c = cur
  · subst hcc
    rw [boost_boosted hidle]
    by_cases hpz : p = 0
    · exact .inl (.inl hpz)
    · exact .inl (.inr (by omega))
  · have hb : (S.boost cur p).boosted c = S.boosted c := setStrand_boosted_of_ne hcc
    have ho : (S.boost cur p).ownPrio c = S.ownPrio c := by
      unfold ownPrio
      rw [hb, show (S.boost cur p).prio c = S.prio c from setStrand_prio_of_ne hcc,
        show (S.boost cur p).strand c = S.strand c from setStrand_strand_of_ne hcc]
    rw [hb, ho]
    exact hlow

omit h₀ in
/-- Whatever leaves the links, the waiting strands and their mutexes alone leaves the chain fit. -/
theorem chainFits_congr {self : StrandId} {m : MutexId} {depth : Nat} {gate : StrandId}
    {next : Option Ptr}
    (hlink : ∀ gate c, S.linkFits self gate c p = true → S'.linkFits self gate c p = true)
    (hblocked : ∀ c, c ≠ self → S'.blockedOn c = S.blockedOn c)
    (hmutex : ∀ m', m' ≠ m → S'.mutex m' = S.mutex m') (hstray : S'.stray = S.stray)
    (h : chainFits self m depth S gate next p = true) :
    chainFits self m depth S' gate next p = true := by
  induction depth generalizing gate next with
  | zero =>
    cases next with
    | none => rfl
    | some _ => cases h
  | succ depth ih =>
    match next with
    | none => rfl
    | some (.stray _) => cases h
    | some (.strand c) =>
    rw [chainFits] at h ⊢
    obtain ⟨hc, hrest⟩ := Bool.and_eq_true_iff.mp h
    have hne : c ≠ self := by
      unfold linkFits at hc
      simp only [Bool.and_eq_true, bne_iff_ne] at hc
      exact hc.1.1.1
    rw [hlink gate c hc, hblocked c hne]
    cases hnext : S.blockedOn c with
    | none => rfl
    | some next =>
    rw [hnext] at hrest
    simp only [Bool.and_eq_true, Bool.or_eq_true, beq_iff_eq, bne_iff_ne, decide_eq_true_eq,
      true_and] at hrest ⊢
    have hsame := hmutex next hrest.1.1
    have htop : S'.topWaiterPrio next = S.topWaiterPrio next := by
      unfold topWaiterPrio
      rw [hsame, hstray]
    rw [htop, hsame]
    exact ⟨hrest.1, hrest.2.imp id ih⟩

omit h₀ in
theorem Ranks.close (h : Ranks S₀ S (some g)) (hg : ∀ s, S.Blocks g s → S.prio g ≤ S.prio s) :
    Ranks S₀ S none :=
  { h with
    covers := fun s w hblocks _ => by
      by_cases hwg : w = g
      · subst hwg
        exact hg s hblocks
      · exact h.covers s w hblocks fun heq => hwg (by cases heq; rfl) }

/-- The walk of `slow_lock` ends with every boost exact. The induction is on the depth that is left;
the excepted waiter is the strand the walk came from, which has the priority that is passed on or
ranks no higher than the strand it waits for. -/
theorem Ranks.propagate {depth : Nat} (h : Ranks S₀ S (some g)) (hlinks : Links S)
    (hg : S.blockedOn g = some m) (howner : (S.mutex m).owner = some (.strand cur))
    (hp : p ≤ S.prio g)
    (hle : S.prio g ≤ p ∨ S.prio g ≤ S.prio cur)
    {self : StrandId} {m₀ : MutexId}
    (hfits : chainFits self m₀ depth S g (some (.strand cur)) p = true) :
    Ranks S₀ (S.propagate depth g (some (.strand cur)) p) none := by
  induction depth generalizing S g m cur with
  | zero => cases hfits
  | succ depth ih =>
    rw [chainFits] at hfits
    obtain ⟨hlink, hrest⟩ := Bool.and_eq_true_iff.mp hfits
    unfold linkFits at hlink
    simp only [Bool.and_eq_true, Bool.not_eq_true', Bool.or_eq_true, beq_iff_eq, bne_iff_ne,
      decide_eq_true_eq] at hlink
    obtain ⟨⟨⟨-, hgate⟩, hidle⟩, hlow⟩ := hlink
    rw [h.ownPrio_eq h₀, or_assoc] at hlow
    obtain ⟨hboost, hpcur, hnew⟩ := h.boost h₀ hlinks hg howner hp hle hidle hlow
    have hlinks' := hlinks.boost cur p
    rw [propagate, hgate]
    simp only [Bool.not_true, Bool.false_eq_true, if_false]
    cases hnext : (S.boost cur p).blockedOn cur with
    | none =>
      refine hboost.close fun s hblocks => ?_
      obtain ⟨m', -, hmem⟩ := hblocks
      rw [hlinks'.linked, hnext] at hmem
      cases hmem
    | some next =>
      have honly : ∀ s, (S.boost cur p).Blocks cur s →
          ((S.boost cur p).mutex next).owner = some (.strand s) :=
        fun s => hlinks'.owner_of_blocks hnext
      rw [show S.blockedOn cur = some next from hnext] at hrest
      simp only [Bool.and_eq_true, Bool.or_eq_true, beq_iff_eq, decide_eq_true_eq] at hrest
      have htop : ¬ (S.boost cur p).topWaiterPrio next > p := Nat.not_lt.mpr hrest.1.2
      dsimp only
      rw [if_neg htop]
      by_cases hself : ((S.boost cur p).mutex next).owner = some (.strand cur)
      · rw [if_pos hself]
        refine hboost.close fun s hblocks => ?_
        have hs := honly s hblocks
        rw [hself] at hs
        cases hs
        exact le_rfl
      · rw [if_neg hself]
        have hfits' : chainFits self m₀ depth (S.boost cur p) cur
            ((S.boost cur p).mutex next).owner p = true :=
          chainFits_congr (fun _ _ => linkFits_boost hidle) (fun _ _ => rfl) (fun _ _ => rfl) rfl
            (hrest.2.resolve_left hself)
        cases hov : ((S.boost cur p).mutex next).owner with
        | none =>
          have hstop : propagate depth (S.boost cur p) cur none p = S.boost cur p := by
            cases depth <;> rfl
          rw [hstop]
          refine hboost.close fun s hblocks => ?_
          have hs := honly s hblocks
          rw [hov] at hs
          cases hs
        | some o =>
          rw [hov] at hfits' hself
          cases o with
          | stray w => cases depth <;> cases hfits'
          | strand o =>
          refine ih hboost hlinks' hnext hov hpcur ?_ hfits'
          rcases hnew with hnew | hnew
          · exact .inl hnew.le
          · -- it ranks as before, and its owner covered it then
            have hoc : o ≠ cur := fun heq => hself (by rw [heq])
            have hgcur : some g ≠ some cur := by
              rintro ⟨⟩
              exact hlinks.apart m _ howner hg
            right
            rw [hnew, show (S.boost cur p).prio o = S.prio o from setStrand_prio_of_ne hoc]
            exact h.covers o cur ⟨next, hov, (hlinks.linked next cur).mpr hnext⟩ hgcur

end Walk

/-! ## The ranks in a step -/

/-- Nobody's priority changes, nobody ceases to wait, and whoever begins to is excepted. -/
theorem Ranks.grow {skip skip' : Option StrandId} (h : Ranks S₀ S skip)
    (hstrand : S'.strand = S.strand)
    (hblocks : ∀ w s, S.Blocks w s → S'.Blocks w s)
    (hback : ∀ w s, S'.Blocks w s → skip' ≠ some w → S.Blocks w s ∧ skip ≠ some w) :
    Ranks S₀ S' skip' := by
  have hprio : S'.prio = S.prio := by
    funext s
    unfold prio
    rw [hstrand]
  have hboosted : S'.boosted = S.boosted := by
    funext s
    unfold boosted
    rw [hstrand]
  refine ⟨fun s => hstrand ▸ h.kept s, fun s hs => ?_, fun s hs => ?_, fun s w hw hne => ?_⟩
  · rw [hboosted] at hs ⊢
    exact h.floor s hs
  · rw [hboosted] at hs
    obtain ⟨w, hw, hle⟩ := h.owed s hs
    exact ⟨w, hblocks w s hw, by rw [hboosted, hprio]; exact hle⟩
  · obtain ⟨hold, hskip⟩ := hback w s hw hne
    rw [hprio]
    exact h.covers s w hold hskip

theorem Ranks.same (h : Ranks S₀ S skip) (hstrand : S'.strand = S.strand)
    (hblocks : ∀ w s, S'.Blocks w s ↔ S.Blocks w s) : Ranks S₀ S' skip :=
  h.grow hstrand (fun w s => (hblocks w s).mpr) fun w s hw hne => ⟨(hblocks w s).mp hw, hne⟩

theorem Ranks.setOwner (h : Ranks S₀ S none) {v : RtMutex} (hno : (S.mutex m).waiters = [])
    (hwaiters : v.waiters = (S.mutex m).waiters) : Ranks S₀ (S.setMutex m v) none := by
  refine h.same rfl fun w s => exists_congr fun m' => setMutex_cases m' ?_ fun _ _ => .rfl
  rw [hwaiters, hno]
  simp

theorem queue_strand : (S.queue s m).strand = S.strand := by
  unfold queue
  split <;> rfl

theorem queue_rest : (S.queue s m).rights = S.rights ∧ (S.queue s m).stray = S.stray ∧
    (∀ t, t ≠ s → (S.queue s m).blockedOn t = S.blockedOn t) ∧
    ∀ m', m' ≠ m → (S.queue s m).mutex m' = S.mutex m' := by
  unfold queue
  split
  · exact ⟨rfl, rfl, fun _ _ => rfl, fun _ _ => rfl⟩
  · exact ⟨rfl, rfl, fun _ ht => update_of_ne ht .., fun _ hm => setMutex_of_ne hm⟩

theorem Ranks.queue (h : Ranks S₀ S none) : Ranks S₀ (S.queue s m) (some s) := by
  have hmem : ∀ w m', (w ∈ (S.mutex m').waiters → w ∈ ((S.queue s m).mutex m').waiters) ∧
      (w ∈ ((S.queue s m).mutex m').waiters → w = s ∨ w ∈ (S.mutex m').waiters) := by
    intro w m'
    unfold PiSystem.queue
    split
    · exact ⟨id, .inr⟩
    dsimp only
    refine setMutex_cases m' ?_ fun _ _ => ⟨id, .inr⟩
    rw [insertWaiter_perm.mem_iff, mem_cons]
    exact ⟨.inr, id⟩
  refine h.grow queue_strand ?_ ?_
  · rintro w t ⟨m', howner, hw⟩
    exact ⟨m', (queue_frame m' m).2.1.trans howner, (hmem w m').1 hw⟩
  · rintro w t ⟨m', howner, hw⟩ hne
    exact ⟨⟨m', (queue_frame m' m).2.1.symm.trans howner,
      ((hmem w m').2 hw).resolve_left fun heq => hne (by rw [heq])⟩, nofun⟩

theorem linkFits_queue {self gate c : StrandId} :
    (S.queue s m).linkFits self gate c p = S.linkFits self gate c p := by
  unfold linkFits piMayCross ownPrio PiSystem.prio boosted
  rw [queue_strand, queue_rest.1]

/-- Both halves of the invariant, in runs from a starting state. -/
structure Exact (S₀ S : PiSystem) : Prop where
  links : Links S
  ranks : Ranks S₀ S none

section Step

variable (h : Exact S₀ S) {q : Phase}
include h

theorem Exact.setPhase (hwaits : ∀ m, S.blockedOn s = some m → q = .slow m ∨ q = .sleeping m)
    (howns : ∀ m, (S.mutex m).owner = some (.strand s) →
      m ∈ S.held s ∨ q = .slow m ∨ q = .sleeping m) :
    Exact S₀ (S.setPhase s q) where
  links := by
    refine h.links.move (fun _ => ⟨rfl, rfl⟩) rfl (fun t hts => setPhase_of_ne hts) (fun _ _ => rfl)
      (fun m hm => ?_) fun m hm => ?_
    · rw [setPhase_self]
      exact hwaits m hm
    · rw [setPhase_self]
      exact howns m hm
  ranks := h.ranks.same rfl fun _ _ => .rfl

theorem Exact.stays (hs : S.phase s = .slow m ∨ S.phase s = .sleeping m)
    (hq : q = .slow m ∨ q = .sleeping m) : Exact S₀ (S.setPhase s q) := by
  have hsame : ∀ m', S.phase s = .slow m' ∨ S.phase s = .sleeping m' →
    q = .slow m' ∨ q = .sleeping m' := by
    intro m' hp
    have hm : m = m' := by
      rcases hs with hs | hs <;> rcases hp with hp | hp <;> rw [hs] at hp <;> cases hp <;> rfl
    exact hm ▸ hq
  exact h.setPhase (fun m' hm' => hsame m' (h.links.blocked m' s hm'))
    fun m' hm' => (h.links.held m' s hm').imp id (hsame m')

theorem Exact.goes (hs : S.phase s = .outside) : Exact S₀ (S.setPhase s q) := by
  obtain ⟨hblocked, howns⟩ := h.links.free (s := s) fun m => by rw [hs]; exact ⟨nofun, nofun⟩
  refine h.setPhase (fun m hm => ?_) fun m hm => .inl (howns m hm)
  rw [hblocked] at hm
  cases hm

theorem Exact.setWord (m : MutexId) (n : Nat) :
    Exact S₀ (S.setMutex m { S.mutex m with lockWord := n }) := by
  have hsame : ∀ m', ((S.setMutex m { S.mutex m with lockWord := n }).mutex m').owner =
    (S.mutex m').owner ∧
      ((S.setMutex m { S.mutex m with lockWord := n }).mutex m').waiters =
        (S.mutex m').waiters := fun m' =>
    setMutex_cases m' ⟨rfl, rfl⟩ fun _ _ => ⟨rfl, rfl⟩
  refine ⟨h.links.move (s := 0) hsame rfl (fun _ _ => rfl) (fun _ _ => rfl) (h.links.blocked · 0)
    (h.links.held · 0),
    h.ranks.same rfl fun w s => exists_congr fun m' => ?_⟩
  rw [(hsame m').1, (hsame m').2]

theorem Exact.own {v : RtMutex} (howner : v.owner = some (.strand s))
    (hwaiters : v.waiters = (S.mutex m).waiters)
    (hno : (S.mutex m).waiters = []) (hblocked : S.blockedOn s = none)
    (howns : ∀ m', (S.mutex m').owner = some (.strand s) → m' ∈ S.held s ∨ m' = m) :
    Exact S₀ ((S.setMutex m v).acquired s m) :=
  ⟨h.links.own howner hwaiters hblocked howns,
    (h.ranks.setOwner hno hwaiters).same rfl fun _ _ => .rfl⟩

theorem Exact.acquired (hs : S.phase s = .slow m ∨ S.phase s = .sleeping m)
    (howner : (S.mutex m).owner = some (.strand s)) : Exact S₀ (S.acquired s m) := by
  obtain ⟨hblocked, howns⟩ := h.links.inSlow hs (h.links.apart m s howner)
  exact ⟨h.links.acquired hblocked howns, h.ranks.same rfl fun _ _ => .rfl⟩

theorem Exact.woken (hs : S.phase s = .sleeping m) : Exact S₀ (S.woken s m) := by
  unfold PiSystem.woken
  split
  · next howner => exact h.acquired (.inr hs) howner
  · exact h.stays (.inr hs) (.inl rfl)

variable (h₀ : Start S₀)
include h₀

theorem Exact.slowLock (hs : S.phase s = .slow m) (hop : (PiOp.go s).Inherits S) :
    Exact S₀ (S.slowLock s m) := by
  simp only [PiOp.Inherits, hs] at hop
  unfold PiSystem.slowLock
  split
  · next hw =>
    rw [if_pos hw] at hop
    have hblocked : S.blockedOn s ≠ some m := by
      rw [Ne, ← h.links.linked, hop.2]
      exact not_mem_nil
    obtain ⟨hnone, howns⟩ := h.links.inSlow (.inl hs) hblocked
    exact h.own rfl rfl hop.2 hnone howns
  · next hw =>
    rw [if_neg hw] at hop
    split
    · next howner => exact h.acquired (.inl hs) howner
    next hother =>
    obtain ⟨howner, hfits⟩ := hop.resolve_left hother
    obtain ⟨o, ho⟩ := Option.ne_none_iff_exists'.mp howner
    rw [ho] at hfits
    cases o with
    | stray w => cases hfits
    | strand o =>
    have hblocked : S.blockedOn s = none ∨ S.blockedOn s = some m := by
      by_cases hm : S.blockedOn s = some m
      · exact .inr hm
      · exact .inl (h.links.inSlow (.inl hs) hm).1
    have hlinks := h.links.queue hblocked hs hother
    have hself : (S.queue s m).blockedOn s = some m := by
      unfold PiSystem.queue
      split
      · assumption
      · exact update_self ..
    have howner' : ((S.queue s m).mutex m).owner = some (.strand o) :=
      (queue_frame m m).2.1.trans ho
    have hprio : (S.queue s m).prio s = S.prio s := by
      unfold PiSystem.prio
      rw [queue_strand]
    obtain ⟨-, hstray, hothers, hmutex⟩ := queue_rest (S := S) (s := s) (m := m)
    dsimp only
    rw [howner', hprio]
    have hranks := h.ranks.queue.propagate h₀ hlinks hself howner' hprio.ge (.inl hprio.le)
      (chainFits_congr (fun _ _ => linkFits_queue.trans) hothers hmutex hstray hfits)
    obtain ⟨f, hf⟩ := propagate_frame maxPiDepth (S.queue s m) s (some (.strand o)) (S.prio s)
    have hexact :
      Exact S₀ ((S.queue s m).propagate maxPiDepth s (some (.strand o)) (S.prio s)) := by
      refine ⟨?_, hranks⟩
      rw [hf]
      exact { hlinks with }
    have hphase : ((S.queue s m).propagate maxPiDepth s (some (.strand o)) (S.prio s)).phase s =
        .slow m := by
      rw [hf]
      exact (congrFun (queue_frame (S := S) (s := s) m m).2.2.1 s).trans hs
    exact hexact.stays (.inl hphase) (.inr rfl)

omit h in
/-- The old owner loses its boost, and nobody waits for the mutex. -/
theorem Ranks.unlock (h : Ranks S₀ S none) (hwaits : ∀ m', s ∉ (S.mutex m').waiters)
    (hempty : (S.mutex m).waiters = [])
    (hothers : ∀ m', m' ≠ m → (S.mutex m').owner = some (.strand s) →
      ∀ w ∈ (S.mutex m').waiters, S.prio w ≤ S.ownPrio s) :
    Ranks S₀ ((S.setMutex m { S.mutex m with owner := none, lockWord := 0 }).unboost s) none := by
  generalize hS₁ : S.setMutex m { S.mutex m with owner := none, lockWord := 0 } = S₁
  have hstrand₁ : S₁.strand = S.strand := hS₁ ▸ rfl
  -- those who wait wait for another mutex
  have hblocks : ∀ w t, S₁.Blocks w t ↔ S.Blocks w t := by
    subst hS₁
    intro w t
    refine exists_congr fun m' => setMutex_cases m' ?_ fun _ _ => .rfl
    simp [hempty]
  obtain ⟨hkeeps, hzero⟩ := (h.kept s).unboost
  have hstrand : (S₁.unboost s).strand = update S.strand s (unboostPrio (S.strand s)) := by
    unfold unboost setStrand
    rw [hstrand₁]
  have hself : (S₁.unboost s).strand s = unboostPrio (S.strand s) := by rw [hstrand, update_self]
  have hother : ∀ t, t ≠ s → (S₁.unboost s).strand t = S.strand t := fun t hts => by
    rw [hstrand, update_of_ne hts]
  have hprio : ∀ t, t ≠ s → (S₁.unboost s).prio t = S.prio t :=
    fun t hts => congrArg effectiveRtPrio (hother t hts)
  have hkept : ∀ t, Kept (S₀.strand t) ((S₁.unboost s).strand t) := by
    rw [hstrand]
    exact fun t => update_cases t hkeeps fun t _ => h.kept t
  -- whoever is boosted now is another strand and was boosted before
  have hboosted : ∀ t, (S₁.unboost s).boosted t ≠ 0 →
      t ≠ s ∧ (S₁.unboost s).boosted t = S.boosted t := by
    intro t ht
    by_cases hts : t = s
    · subst hts
      unfold boosted at ht
      rw [hself] at ht
      exact absurd hzero ht
    · exact ⟨hts, congrArg (fun st : Sched.Strand => st.body.boostedPrio) (hother t hts)⟩
  have hown : (S₁.unboost s).prio s = S₀.prio s := by
    have heq := (hkept s).prio (h₀.unboosted s)
    rw [hself, if_pos hzero, ← hself] at heq
    exact heq
  have hne : ∀ {w m'}, w ∈ (S.mutex m').waiters → w ≠ s := fun hw heq => hwaits _ (heq ▸ hw)
  refine ⟨hkept, fun t ht => ?_, fun t ht => ?_, fun t w hw _ => ?_⟩
  · obtain ⟨hts, heq⟩ := hboosted t ht
    rw [heq] at ht ⊢
    exact h.floor t ht
  · obtain ⟨hts, heq⟩ := hboosted t ht
    rw [heq] at ht ⊢
    obtain ⟨w, hw, hle⟩ := h.owed t ht
    refine ⟨w, (hblocks w t).mpr hw, ?_⟩
    obtain ⟨m', -, hmem⟩ := hw
    rw [hprio w (hne hmem)]
    exact hle
  · obtain ⟨m', ho, hmem⟩ := (hblocks w t).mp hw
    rw [hprio w (hne hmem)]
    by_cases hts : t = s
    · subst hts
      have hm : m' ≠ m := by
        rintro rfl
        rw [hempty] at hmem
        cases hmem
      rw [hown, ← h.ownPrio_eq h₀]
      exact hothers m' hm ho w hmem
    · rw [hprio t hts]
      exact h.covers t w ⟨m', ho, hmem⟩ nofun

theorem Exact.unlock (hs : S.phase s = .outside) (hop : (PiOp.unlock s m).Inherits S) :
    Exact S₀ { S.unlock m with held := update S.held s ((S.held s).erase m) } := by
  obtain ⟨howner, hempty, hothers⟩ := hop
  obtain ⟨hblocked, howns⟩ := h.links.free (s := s) fun m => by rw [hs]; exact ⟨nofun, nofun⟩
  have hwaits : ∀ m', s ∉ (S.mutex m').waiters := by
    intro m'
    rw [h.links.linked, hblocked]
    nofun
  have hlinks : Links (S.setMutex m { S.mutex m with owner := none, lockWord := 0 }) :=
    h.links.release
  have hranks := h.ranks.unlock h₀ hwaits hempty fun m' hm ho => hothers m' (howns m' ho) hm ho
  rw [unlock_of_owner howner hblocked hempty]
  refine ⟨hlinks.move (s := s) (fun _ => ⟨rfl, rfl⟩) rfl (fun _ _ => rfl)
    (fun t hts => update_of_ne hts ..)
    (hlinks.blocked · s) fun m' hm' => .inl ?_, hranks.same rfl fun _ _ => .rfl⟩
  -- the old owner owns the mutex no more, and holds the others still
  have hm : m' ≠ m := by
    rintro rfl
    rw [setMutex_self] at hm'
    cases hm'
  rw [setMutex_of_ne hm] at hm'
  change m' ∈ update S.held s ((S.held s).erase m) s
  rw [update_self]
  exact (mem_erase_of_ne hm).mpr (howns m' hm')

theorem Exact.step {op : PiOp} (hop : op.Inherits S) (hstep : op.next S = some S') :
    Exact S₀ S' := by
  cases op with
  | lock s m =>
    simp only [PiOp.next] at hstep
    split_ifs at hstep with hout hw
    · cases hstep
      exact (h.setWord m 1).goes (not_not.mp hout)
    · cases hstep
      exact h.goes (not_not.mp hout)
  | tryLock s m =>
    simp only [PiOp.next] at hstep
    split_ifs at hstep with hout hw
    · cases hstep
      exact (h.setWord m 1).goes (not_not.mp hout)
    · cases hstep
      exact h
  | unlock s m =>
    obtain ⟨hout, rfl⟩ := of_guard hstep
    exact h.unlock h₀ (not_not.mp (not_or.mp hout).1) hop
  | go s =>
    simp only [PiOp.next] at hstep
    split at hstep
    · cases hstep
    · next m hphase =>
      cases hstep
      simp only [PiOp.Inherits, hphase] at hop
      obtain ⟨hblocked, howns⟩ := h.links.free (s := s) fun m => by
        rw [hphase]
        exact ⟨fun heq => (by cases heq), fun heq => by cases heq⟩
      exact h.own rfl rfl hop.2 hblocked fun m' hm' => .inl (howns m' hm')
    · next m hphase =>
      cases hstep
      exact h.slowLock h₀ hphase hop
    · next m hphase =>
      cases hstep
      exact h.woken hphase
  | stir s v =>
    cases hstep
    exact ⟨{ h.links with }, h.ranks.same rfl fun _ _ => .rfl⟩

omit h in
theorem Start.exact : Exact S₀ S₀ := by
  have hnone : ∀ s, S₀.boosted s = 0 := h₀.unboosted
  have hblocks : ∀ w s, ¬ S₀.Blocks w s := by
    rintro w s ⟨m, howner, -⟩
    rw [h₀.mutex m] at howner
    cases howner
  refine ⟨⟨fun m => ?_, fun m w => ?_, fun m w hw => ?_, fun m s hs => ?_, fun m s hs => ?_⟩,
    ⟨fun s => ⟨fun _ => h₀.unboosted s, fun _ => rfl, fun hne => absurd (h₀.unboosted s) hne⟩,
      fun s hs => absurd (hnone s) hs, fun s hs => absurd (hnone s) hs, fun s w hw =>
        absurd hw (hblocks w s)⟩⟩
  · rw [h₀.mutex m]
    exact nodup_nil
  · rw [h₀.mutex m, h₀.blockedOn w]
    exact iff_of_false not_mem_nil nofun
  · rw [h₀.blockedOn w] at hw
    cases hw
  · rw [h₀.mutex m] at hs
    cases hs
  · rw [h₀.mutex m] at hs
    cases hs

end Step

end ZXFoundation.Sync.Rtmutex
