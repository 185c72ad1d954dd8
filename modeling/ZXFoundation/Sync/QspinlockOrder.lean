import ZXFoundation.Sync.QspinlockSteps

/-!
# The queued spin lock excludes and hands over in order

Every step keeps `Sound`: each lock has a line that the state shows. From a line it is read off that
one context at most has the lock, that the queue is served in the order in which it was entered, and
who goes next when the lock is free: the pending waiter if there is one, else the first of the
queue. Either has the lock after a few steps of its own.
-/

namespace ZXFoundation.Sync.Qspinlock

open LockSystem Function Place
open Runs

variable {S S' : LockSystem} {t t' : Thread} {l l' : LockId} {p : Place} {q : Line} {i : Nat}
    {w : Word} {c : CpuId}

/-- A move for the lock that concerns no line. -/
structure Place.Beside (l : LockId) (p₀ p : Place) : Prop where
  lockBefore : p₀.lock = none ∨ p₀.lock = some l
  lockAfter : p.lock = none ∨ p.lock = some l
  roles : (p.idx, p.pendsOn, p.waitsOn, p.passesOn) = (p₀.idx, p₀.pendsOn, none, none)
  before : (p₀.waitsOn, p₀.passesOn) = (none, none)

theorem eq_of_lock {o : Option LockId} (h : o = none ∨ o = some l) (ho : o = some l') : l' = l := by
  rcases h with h | h <;> rw [h] at ho
  · cases ho
  · exact (Option.some.inj ho).symm

/-- Every lock has a line. -/
structure Sound (S : LockSystem) : Prop where
  stacked : Stacked S
  good : ∀ l, ∃ q, Good S l q

namespace Sound

/-- Free locks and idle CPUs. -/
theorem start (h : Start S) : Sound S := by
  refine ⟨⟨fun c => ?_, fun t _ => h.place t, fun c => ?_⟩, fun l => ⟨{}, ?_⟩⟩
  · rw [h.depth, h.level, nodesBelow_succ, h.place]
    rfl
  · rw [h.level]
    decide
  constructor
  case word =>
    rw [h.word]
    show 0#32 = 0#32 ||| lowBits false false
    decide
  case held => simp [h.held]
  case once => simp [h.held]
  case pends => simp [h.place, pendsOn]
  case waits => simp [h.place, waitsOn]
  case passes => simp [h.place, passesOn]
  case nodup => exact List.nodup_nil
  case followed => exact fun t ht => by cases ht
  case linked => exact List.isChain_nil
  case ended => exact fun t ht => by cases ht
  case front => exact fun _ t ht => by cases ht
  case ready => simp [h.place, lock]
  case log => rw [h.entered, h.served]; rfl

section

variable (h : Sound S)
include h

/-- A step for a lock keeps every line if it keeps, or changes, that of its lock. -/
theorem of_local (hloc : Local S S' t l p) (hstacked : Stacked S') (hgood : ∃ q, Good S' l q) :
    Sound S' := by
  refine ⟨hstacked, fun l' => ?_⟩
  by_cases hl : l' = l
  · rw [hl]
    exact hgood
  · obtain ⟨q, hq⟩ := h.good l'
    exact ⟨q, hloc.good hl hq⟩

/-- A step that concerns one lock and leaves the nodes of the CPU in use. -/
theorem kept (hloc : Local S S' (S.running c) l p) (hlevel : S'.level = S.level)
    (hdepth : S'.depth = S.depth) (hidx : p.idx = (S.place (S.running c)).idx)
    (hgood : ∃ q, Good S' l q) : Sound S' :=
  h.of_local hloc (h.stacked.kept hloc.place hlevel hdepth hidx) hgood

variable {p₀ : Place}

/-- A thread goes on without writing the word. -/
theorem placed (hp : S.place (S.running c) = p₀) (hb : Place.Beside l p₀ p)
    (hready : ∀ q, Good S l q → (S.setPlace (S.running c) p).Ready q (S.running c)) :
    Sound (S.setPlace (S.running c) p) := by
  obtain ⟨q, hq⟩ := h.good l
  subst hp
  have hroles := hb.roles
  have hbefore := hb.before
  simp only [Prod.mk.injEq] at hroles hbefore
  have hloc : Local S (S.setPlace (S.running c) p) (S.running c) l p :=
    .setPlace (fun _ => eq_of_lock hb.lockBefore) (fun _ => eq_of_lock hb.lockAfter)
  refine h.kept hloc rfl rfl hroles.1 ⟨q, ?_⟩
  exact hq.moved_outside hloc (fun _ _ _ _ => rfl) rfl rfl ⟨rfl, rfl⟩ hroles.2.1 hbefore hroles.2.2
    fun _ => hready q hq

theorem placed_careless (hp : S.place (S.running c) = p₀) (hb : Place.Beside l p₀ p)
    (hcareless : p.careless) : Sound (S.setPlace (S.running c) p) := by
  refine h.placed hp hb fun q _ => ready_of_careless ?_
  show (update S.place (S.running c) p (S.running c)).careless
  rw [update_self]
  exact hcareless

theorem placed_tailCas (hp : S.place (S.running c) = p₀)
    (hp₀ : p₀ = .tailLoad l i ∨ ∃ v, p₀ = .tailCas l i v) :
    Sound (S.setPlace (S.running c) (.tailCas l i w)) := by
  refine h.placed (l := l) hp ?_ fun q hq => ?_
  · rcases hp₀ with rfl | ⟨v, rfl⟩ <;> exact ⟨.inr rfl, .inr rfl, rfl, rfl⟩
  have hplace : (S.setPlace (S.running c) (.tailCas l i w)).place (S.running c) = .tailCas l i w :=
    update_self _ _ _
  have hnode : (S.setPlace (S.running c) (.tailCas l i w)).nodeOf (S.running c) = S.nodeOf
    (S.running c) :=
    nodeOf_congr (by rw [hplace, hp]; rcases hp₀ with rfl | ⟨v, rfl⟩ <;> rfl)
  have hready : S.Ready q (S.running c) :=
    hq.ready _ (by rw [hp]; rcases hp₀ with rfl | ⟨v, rfl⟩ <;> rfl)
  unfold Ready at hready ⊢
  rw [hplace, hnode]
  rw [hp] at hready
  rcases hp₀ with rfl | ⟨v, rfl⟩ <;> exact hready

theorem taken (hfree : S.word l = 0#32)
    (hp : S.place (S.running c) = .tryCas l ∨ S.place (S.running c) = .fastCas l) :
    Sound (((S.setWord l lockedVal).acquired (S.running c) l).setPlace (S.running c) .out) := by
  obtain ⟨q, hq⟩ := h.good l
  have hplain : (S.place (S.running c)).Plain := by
    rcases hp with hp | hp <;> rw [hp] <;> exact ⟨rfl, rfl, rfl⟩
  have hlock : (S.place (S.running c)).lock = some l := by
    rcases hp with hp | hp <;> rw [hp] <;> rfl
  have hidx : (S.place (S.running c)).idx = none := by rcases hp with hp | hp <;> rw [hp] <;> rfl
  refine h.kept (.acquired (fun l' hl' => Option.some.inj (hl'.symm.trans hlock)) (by simp [lock]))
    rfl rfl
    hidx.symm ⟨_, hq.taken h.stacked hfree hplain hlock⟩

/-- A thread takes the next node of its CPU. -/
theorem tookNode (hp : S.place (S.running c) = .takeNode l) :
    Sound ((S.setDepth c (S.depth c + 1)).setPlace (S.running c) (.initNode l (S.depth c))) := by
  obtain ⟨q, hq⟩ := h.good l
  have hloc :
    Local S ((S.setDepth c (S.depth c + 1)).setPlace (S.running c) (.initNode l (S.depth c)))
      (S.running c) l (.initNode l (S.depth c)) := .setDepth (by simp [hp, lock]) (by simp [lock])
  refine h.of_local hloc (h.stacked.took hloc.place rfl rfl (by rw [hp]; rfl) rfl) ⟨q, ?_⟩
  have hbefore : (S.place (S.running c)).waitsOn = none ∧
    (S.place (S.running c)).passesOn = none := by
    rw [hp]
    exact ⟨rfl, rfl⟩
  exact hq.moved_outside hloc (fun _ _ _ _ => rfl) rfl rfl ⟨rfl, rfl⟩
    (by rw [hp]; rfl) hbefore ⟨rfl, rfl⟩
    fun _ => ready_of_careless (by rw [hloc.place_self]; rfl)

/-- It gives the node back, the last one that was taken. -/
theorem gaveNode (hp : S.place (S.running c) = .giveNode l i) :
    Sound ((S.setDepth c (S.depth c - 1)).setPlace (S.running c) .out) := by
  obtain ⟨q, hq⟩ := h.good l
  have hloc : Local S ((S.setDepth c (S.depth c - 1)).setPlace (S.running c) .out)
    (S.running c) l .out :=
    .setDepth (by simp [hp, lock]) (by simp [lock])
  refine h.of_local hloc (h.stacked.gave (i := i) hloc.place rfl rfl (by rw [hp]; rfl) rfl) ⟨q, ?_⟩
  have hbefore : (S.place (S.running c)).waitsOn = none ∧
    (S.place (S.running c)).passesOn = none := by
    rw [hp]
    exact ⟨rfl, rfl⟩
  exact hq.moved_outside hloc (fun _ _ _ _ => rfl) rfl rfl ⟨rfl, rfl⟩
    (by rw [hp]; rfl) hbefore ⟨rfl, rfl⟩
    fun _ => ready_of_careless (by rw [hloc.place_self]; rfl)

/-- The two stores to a fresh node: no other context has it. -/
theorem initialised (hp : S.place (S.running c) = .initNode l i) :
    Sound ((S.setNode ⟨c, i⟩ { next := none, locked := true }).setPlace (S.running c)
      (.tailLoad l i)) := by
  obtain ⟨q, hq⟩ := h.good l
  have hi : (S.place (S.running c)).idx = some i := by rw [hp]; rfl
  generalize hS' : (S.setNode ⟨c, i⟩ { next := none, locked := true }).setPlace (S.running c)
    (.tailLoad l i) = S'
  have hnode : ∀ t' k, t' ≠ S.running c → (S.place t').idx = some k →
      S'.node (S.nodeOf t') = S.node (S.nodeOf t') := by
    intro t' k hne hk
    rw [← hS']
    refine update_of_ne ?_ _ _
    intro heq
    exact hne (h.stacked.nodeOf_inj hk hi (heq.trans (nodeOf_of_idx hi).symm))
  have hloc : Local S S' (S.running c) l (.tailLoad l i) := by
    rw [← hS'] at hnode ⊢
    exact ⟨rfl, by simp [hp, lock], by simp [lock], fun _ _ => rfl, fun _ _ _ => rfl,
      fun _ _ => ⟨rfl, rfl⟩, fun t' k hne hk _ => hnode t' k hne hk⟩
  have hplain : (S.place (S.running c)).waitsOn = none ∧
    (S.place (S.running c)).passesOn = none := by
    rw [hp]
    exact ⟨rfl, rfl⟩
  have hself := nodeOf_of_idx (S := S') (t := S.running c) (i := i) (by rw [hloc.place_self]; rfl)
  rw [← hS'] at hloc hnode hself ⊢
  refine h.kept hloc rfl rfl (by rw [hp]; rfl) ⟨q, ?_⟩
  refine hq.moved_outside hloc hnode rfl rfl ⟨rfl, rfl⟩
    (by rw [hp]; rfl) hplain ⟨rfl, rfl⟩ fun _ => ?_
  unfold Ready
  rw [hloc.place_self, hself]
  exact update_self _ _ _

/-- Every step of a thread inside the lock. -/
theorem go {fails : Bool} (hgo : S.go (S.running c) fails = some S') : Sound S' := by
  cases hp : S.place (S.running c) <;> simp only [LockSystem.go, hp] at hgo
  case out | stopped => cases hgo
  case tryCas l =>
    split at hgo
    next hfree => cases hgo; exact h.taken hfree (.inl hp)
    next => cases hgo; exact h.placed_careless hp (l := l) ⟨.inr rfl, .inl rfl, rfl, rfl⟩ rfl
  case fastCas l =>
    split at hgo
    next hfree => cases hgo; exact h.taken hfree (.inr hp)
    next => cases hgo; exact h.placed_careless hp (l := l) ⟨.inr rfl, .inr rfl, rfl, rfl⟩ rfl
  case slowLoad l =>
    split at hgo <;> cases hgo
      <;> exact h.placed_careless hp (l := l) ⟨.inr rfl, .inr rfl, rfl, rfl⟩ rfl
  case pendingCas l =>
    obtain ⟨q, hq⟩ := h.good l
    split at hgo
    next hheld =>
      cases hgo
      exact h.kept (.setWord (by simp [hp, lock]) (by simp [lock])) rfl rfl (by rw [hp]; rfl)
        ⟨_, hq.pended h.stacked hheld hp⟩
    next => cases hgo; exact h.placed_careless hp (l := l) ⟨.inr rfl, .inr rfl, rfl, rfl⟩ rfl
  case pendingSpin l =>
    split at hgo <;> cases hgo
    · exact h
    · exact h.placed_careless hp (l := l) ⟨.inr rfl, .inr rfl, rfl, rfl⟩ rfl
  case convertLoad l =>
    cases hgo
    exact h.placed_careless hp (l := l) ⟨.inr rfl, .inr rfl, rfl, rfl⟩ rfl
  case convertCas l w =>
    obtain ⟨q, hq⟩ := h.good l
    split at hgo
    next => cases hgo; exact h.placed_careless hp (l := l) ⟨.inr rfl, .inr rfl, rfl, rfl⟩ rfl
    next hfree =>
      split at hgo
      next hword =>
        cases hgo
        exact h.kept (.acquired (by simp [hp, lock]) (by simp [lock])) rfl rfl (by rw [hp]; rfl)
          ⟨_, hq.converted hp (not_not.mp hfree) hword.1⟩
      next => cases hgo; exact h.placed_careless hp (l := l) ⟨.inr rfl, .inr rfl, rfl, rfl⟩ rfl
  case takeNode l =>
    split at hgo
    next hfull =>
      -- one node for each nested context: there is one left
      exact absurd (h.stacked.depth_lt (c := c) (by rw [hp]; rfl)) (Nat.not_lt.mpr hfull)
    next => cases hgo; exact h.tookNode hp
  case initNode l i =>
    cases hgo
    exact h.initialised hp
  case tailLoad l i =>
    cases hgo
    exact h.placed_tailCas hp (.inl rfl)
  case tailCas l i w =>
    obtain ⟨q, hq⟩ := h.good l
    split at hgo
    next hword =>
      -- the exchange of the tail is where a thread joins the line
      cases hgo
      have hidx : (afterTail l i w).idx = some i ∧ (afterTail l i w).lock = some l := by
        unfold afterTail
        split <;> exact ⟨rfl, rfl⟩
      exact h.kept (.enqueued (by simp [hp, lock]) (by simp [hidx.2])) rfl rfl
        (by rw [hp, hidx.1]; rfl)
        ⟨_, hq.joined h.stacked hp hword.1⟩
    next => cases hgo; exact h.placed_tailCas hp (.inr ⟨w, rfl⟩)
  case link l i prev =>
    cases hgo
    obtain ⟨q, hq⟩ := h.good l
    obtain ⟨hloc, hgood⟩ := hq.hooked h.stacked hp
    exact h.kept hloc rfl rfl (by rw [hp]; rfl) ⟨q, hgood⟩
  case spinLocked l i =>
    obtain ⟨q, hq⟩ := h.good l
    split at hgo
    next => cases hgo; exact h
    next hfree =>
      cases hgo
      exact h.kept (.setPlace (by simp [hp, lock]) (by simp [lock])) rfl rfl (by rw [hp]; rfl)
        ⟨q, hq.woken hp (Bool.eq_false_iff.mpr hfree)⟩
  case spinWord l i =>
    obtain ⟨q, hq⟩ := h.good l
    split at hgo
    next => cases hgo; exact h
    next hfree =>
      cases hgo
      exact h.kept (.setPlace (by simp [hp, lock]) (by simp [lock])) rfl rfl (by rw [hp]; rfl)
        ⟨q, hq.sawFree hp (not_not.mp hfree)⟩
  case soloCas l i =>
    obtain ⟨q, hq⟩ := h.good l
    split at hgo
    next hword =>
      cases hgo
      exact h.kept (.dequeued (by simp [hp, lock]) (by simp [lock])) rfl rfl (by rw [hp]; rfl)
        ⟨_, hq.served_solo h.stacked hp hword⟩
    next hword =>
      cases hgo
      exact h.kept (.setPlace (by simp [hp, lock]) (by simp [lock])) rfl rfl (by rw [hp]; rfl)
        ⟨q, hq.sawOthers hp hword⟩
  case fetchOr l i =>
    cases hgo
    obtain ⟨q, hq⟩ := h.good l
    obtain ⟨rest, -, hgood⟩ := hq.served_first hp
    exact h.kept (.dequeued (by simp [hp, lock]) (by simp [lock])) rfl rfl
      (by rw [hp]; rfl) ⟨_, hgood⟩
  case spinNext l i =>
    obtain ⟨q, hq⟩ := h.good l
    split at hgo
    next => cases hgo; exact h
    next next hnext =>
      cases hgo
      exact h.kept (.setPlace (by simp [hp, lock]) (by simp [lock])) rfl rfl (by rw [hp]; rfl)
        ⟨q, hq.sawNext hp hnext⟩
  case passOn l i next =>
    cases hgo
    obtain ⟨q, hq⟩ := h.good l
    obtain ⟨hloc, hgood⟩ := hq.passed h.stacked hp
    exact h.kept hloc rfl rfl (by rw [hp]; rfl) ⟨_, hgood⟩
  case giveNode l i =>
    cases hgo
    exact h.gaveNode hp

theorem step {op : LockOp} (hnext : op.next S = some S') : Sound S' := by
  cases op with
  | lock c l =>
    obtain ⟨hp, rfl⟩ := of_allow hnext
    exact h.placed_careless hp (l := l) ⟨.inl rfl, .inr rfl, rfl, rfl⟩ rfl
  | tryLock c l =>
    obtain ⟨hp, rfl⟩ := of_allow hnext
    exact h.placed_careless hp (l := l) ⟨.inl rfl, .inr rfl, rfl, rfl⟩ rfl
  | unlock c l =>
    obtain ⟨hp, rfl⟩ := of_allow hnext
    obtain ⟨q, hq⟩ := h.good l
    exact h.kept (.unlock hp.1) rfl rfl (by rw [hp.1]) ⟨_, hq.unlocked hp.1 hp.2⟩
  | go c fails => exact h.go hnext
  | interrupt c =>
    obtain ⟨hlt, rfl⟩ := of_allow hnext
    exact ⟨h.stacked.interrupted hlt, fun l => (h.good l).imp fun q hq => { hq with }⟩
  | resume c =>
    obtain ⟨hback, rfl⟩ := of_allow hnext
    exact ⟨h.stacked.resumed hback.1 hback.2.1, fun l => (h.good l).imp fun q hq => { hq with }⟩

end

theorem of_reachable (h : lockMachine.Reachable S) : Sound S := by
  refine h.invariant (P := Sound) (fun S hS => start hS) ?_
  rintro S op S' hS hnext
  exact hS.step hnext

end Sound

/-! ## Who goes next -/

namespace LockSystem

def goes (S : LockSystem) (t : Thread) : Nat → Option LockSystem
  | 0 => some S
  | n + 1 => (S.go t false).bind fun S' => S'.goes t n

/-- The context has the lock after some steps of its own. -/
def Completes (S : LockSystem) (t : Thread) (l : LockId) :
    Prop := ∃ n S', S.goes t n = some S' ∧ l ∈ S'.held t

/-- One more step of the same thread. -/
theorem Completes.cons (hgo : S.go t false = some S') (h : S'.Completes t l) : S.Completes t l := by
  obtain ⟨n, S'', hgoes, hmem⟩ := h
  refine ⟨n + 1, S'', ?_, hmem⟩
  rw [goes, hgo]
  exact hgoes

theorem Completes.now (hgo : S.go t false = some S') (h : l ∈ S'.held t) : S.Completes t l :=
  .cons hgo ⟨0, S', rfl, h⟩

@[simp]
theorem place_setPlace : (S.setPlace t p).place t = p := update_self _ _ _

theorem mem_held_acquired : l ∈ (S.acquired t l).held t := by
  show l ∈ update S.held t (l :: S.held t) t
  rw [update_self]
  exact List.mem_cons_self

section

variable (hfree : S.word l &&& lockedVal = 0#32)
include hfree

theorem completes_of_convertCas (hp : S.place t = .convertCas l (S.word l)) : S.Completes t l := by
  have hgo : S.go t false =
      some (((S.setWord l ((S.word l &&& ~~~pendingVal) ||| lockedVal)).acquired t l).setPlace t
        .out) := by
    simp [go, hp, hfree]
  exact .now hgo mem_held_acquired

theorem completes_of_convertLoad (hp : S.place t = .convertLoad l) : S.Completes t l := by
  have hgo : S.go t false = some (S.setPlace t (.convertCas l (S.word l))) := by simp [go, hp]
  exact .cons hgo (completes_of_convertCas hfree place_setPlace)

/-- The pending waiter, when the lock bit is clear. -/
theorem completes_of_pends (hp : (S.place t).pendsOn = some l) : S.Completes t l := by
  cases hplace : S.place t <;> rw [hplace] at hp <;> cases hp
  case pendingSpin =>
    have hgo : S.go t false = some (S.setPlace t (.convertLoad l)) := by simp [go, hplace, hfree]
    exact .cons hgo (completes_of_convertLoad hfree place_setPlace)
  case convertLoad => exact completes_of_convertLoad hfree hplace
  case convertCas w =>
    -- the value it last read may be an old one, and then it reads again
    by_cases hw : w &&& lockedVal = 0#32
    · by_cases hword : S.word l = w
      · subst hword
        exact completes_of_convertCas hfree hplace
      · have hgo : S.go t false = some (S.setPlace t (.convertCas l (S.word l))) := by
          simp [go, hplace, hw, hword]
        exact .cons hgo (completes_of_convertCas hfree place_setPlace)
    · have hgo : S.go t false = some (S.setPlace t (.convertLoad l)) := by simp [go, hplace, hw]
      exact .cons hgo (completes_of_convertLoad hfree place_setPlace)

end

theorem completes_of_fetchOr (hp : S.place t = .fetchOr l i) : S.Completes t l := by
  have hgo : S.go t false = some
    ((((S.setWord l (S.word l ||| lockedVal)).acquired t l).dequeued t l).setPlace t
      (.spinNext l i)) := by simp [go, hp]
  exact .now hgo mem_held_acquired

theorem completes_of_soloCas (hp : S.place t = .soloCas l i) : S.Completes t l := by
  by_cases hword : S.word l = encodeTail t.cpu i
  · have hgo : S.go t false = some ((((S.setWord l lockedVal).acquired t l).dequeued t l).setPlace t
        (.giveNode l i)) := by simp [go, hp, hword]
    exact .now hgo mem_held_acquired
  · have hgo : S.go t false = some (S.setPlace t (.fetchOr l i)) := by simp [go, hp, hword]
    exact .cons hgo (completes_of_fetchOr place_setPlace)

theorem completes_of_spinWord (hfree : S.word l &&& lockedMask = 0#32)
    (hp : S.place t = .spinWord l i) :
    S.Completes t l := by
  have hgo : S.go t false = some (S.setPlace t (.soloCas l i)) := by simp [go, hp, hfree]
  exact .cons hgo (completes_of_soloCas place_setPlace)

/-- The first of the queue, when the two bits are clear. -/
theorem completes_of_atFront (hfree : S.word l &&& lockedMask = 0#32)
    (hp : (S.place t).waitsOn = some l)
    (hfront : S.AtFront t) : S.Completes t l := by
  unfold AtFront at hfront
  cases hplace : S.place t <;> rw [hplace] at hp hfront <;> cases hp
  case link => exact hfront.elim
  case spinLocked i =>
    have hlocked : (S.node ⟨t.cpu, i⟩).locked = false := by
      rw [← nodeOf_of_idx (S := S) (t := t) (i := i) (by rw [hplace]; rfl)]
      exact hfront
    have hgo : S.go t false = some (S.setPlace t (.spinWord l i)) := by simp [go, hplace, hlocked]
    exact .cons hgo (completes_of_spinWord hfree place_setPlace)
  case spinWord i => exact completes_of_spinWord hfree hplace
  case soloCas i => exact completes_of_soloCas hplace
  case fetchOr i => exact completes_of_fetchOr hplace

theorem level_go {fails : Bool} (h : S.go t fails = some S') : S'.level = S.level := by
  unfold go at h
  split at h <;> (try split at h) <;> (try split at h) <;> cases h <;> rfl

/-- A thread that is running may go on by itself. -/
theorem exec_of_goes {n : Nat} (ht : S.running t.cpu = t) (h : S.goes t n = some S') :
    lockMachine.Exec S (List.replicate n (.go t.cpu false)) S' := by
  induction n generalizing S with
  | zero =>
    cases h
    exact .nil _
  | succ n ih =>
    obtain ⟨S₁, hgo, hgoes⟩ := Option.bind_eq_some_iff.mp h
    have hstep : lockMachine.step S (.go t.cpu false) S₁ := by
      show S.go (S.running t.cpu) false = some S₁
      rw [ht]
      exact hgo
    refine .cons hstep (ih ?_ hgoes)
    rw [running, level_go hgo]
    exact ht

end LockSystem

namespace Good

/-- A free lock that someone waits for has a waiter that gets it by itself. -/
theorem exists_completes (h : Good S l q) (hfree : q.holder = none)
    (hwaits : q.pending ≠ none ∨ q.waiters ≠ []) :
    ∃ t, ((S.place t).pendsOn = some l ∨ (S.place t).waitsOn = some l) ∧ S.Completes t l := by
  cases hpending : q.pending with
  | some t =>
    have hp := (h.pends t).mpr hpending
    refine ⟨t, .inl hp, completes_of_pends ?_ hp⟩
    rw [h.and_lockedVal_eq, hfree]
    decide
  | none =>
    obtain ⟨t, rest, hfirst⟩ :=
      List.exists_cons_of_ne_nil (hwaits.resolve_left fun hne => hne hpending)
    have hp : (S.place t).waitsOn = some l :=
      (h.waits t).mpr (by rw [hfirst]; exact List.mem_cons_self)
    -- no one passes the line on, since whoever does so holds the lock
    have hpass : q.passing = none := by
      cases hpass : q.passing with
      | none => rfl
      | some a => exact absurd hfree (by rw [(h.followed a hpass).1]; simp)
    refine ⟨t, .inr hp, completes_of_atFront ?_ hp (h.front hpass t (by rw [hfirst]; rfl))⟩
    rw [h.and_lockedMask_eq, hfree, hpending]
    decide

end Good

/-- In every state the machine reaches, for every lock: one context at most has it, and the lock bit
says whether one has; the contexts that got it from the queue are the first that entered, in the
order in which they did, and the others that entered are those on the queue; and when the lock bit
is clear and the word shows a waiter, some waiter has the lock after steps of its own. If that
waiter runs on its CPU, these steps are a run of the machine, in which no one unlocks. -/
theorem qspinlock_excludes_and_hands_over (h : lockMachine.Reachable S) (l : LockId) :
    (∀ t t', l ∈ S.held t → l ∈ S.held t' → t = t') ∧ (∀ t, (S.held t).count l ≤ 1) ∧
      (S.word l &&& lockedVal ≠ 0#32 ↔ ∃ t, l ∈ S.held t) ∧
      S.served l <+: S.entered l ∧
      (∀ t, t ∈ (S.entered l).drop (S.served l).length ↔ (S.place t).waitsOn = some l) ∧
      (S.word l &&& lockedVal = 0#32 → S.word l ≠ 0#32 →
        ∃ t, ((S.place t).pendsOn = some l ∨ (S.place t).waitsOn = some l) ∧
          ∃ n S', S.goes t n = some S' ∧ l ∈ S'.held t ∧
            (S.running t.cpu = t →
              lockMachine.Exec S (List.replicate n (.go t.cpu false)) S')) := by
  have hsound := Sound.of_reachable h
  obtain ⟨q, hq⟩ := hsound.good l
  refine ⟨?_, hq.once, ?_, ?_, ?_, ?_⟩
  · intro t t' ht ht'
    exact Option.some.inj (((hq.held t).mp ht).symm.trans ((hq.held t').mp ht'))
  · rw [hq.and_lockedVal_eq]
    cases hholder : q.holder with
    | none => simp [hq.held, hholder, lowBits]
    | some t =>
      exact iff_of_true (show lowBits true false ≠ 0#32 by decide) ⟨t, (hq.held t).mpr hholder⟩
  · rw [hq.log]
    exact List.prefix_append _ _
  · intro t
    rw [hq.log, List.drop_left, hq.waits]
  · intro hfree hword
    rw [hq.and_lockedVal_eq, show 0#32 = lowBits false false from by decide, lowBits_inj] at hfree
    have hnone : q.holder = none := by simpa using hfree.1
    have hwaits : q.pending ≠ none ∨ q.waiters ≠ [] := by
      by_contra hno
      push Not at hno
      refine hword ?_
      rw [hq.word, hnone, hno.1, hno.2]
      show 0#32 ||| lowBits false false = 0#32
      decide
    obtain ⟨t, ht, n, S', hgoes, hmem⟩ := hq.exists_completes hnone hwaits
    exact ⟨t, ht, n, S', hgoes, hmem, fun hrun => exec_of_goes hrun hgoes⟩

/-- CPU 0 has the lock, CPU 1 is pending, CPUs 2 and 3 queue; then 0, 1 and 2 have had the lock in
turn. -/
def threeTurns : List LockOp :=
  [.lock 0 0, .go 0 false, .lock 1 0] ++ List.replicate 3 (.go 1 false) ++
    [LockOp.lock 2 0] ++ List.replicate 6 (.go 2 false) ++ [LockOp.lock 3 0] ++ List.replicate 7
    (.go 3 false) ++
    [LockOp.unlock 0 0] ++ List.replicate 3 (.go 1 false) ++ [LockOp.unlock 1 0] ++
    List.replicate 6 (.go 2 false) ++ [LockOp.unlock 2 0]

theorem qspinlock_excludes_and_hands_over_to_third :
    ∃ S, lockMachine.Reachable S ∧ S.served 0 = [⟨2, 0⟩] ∧ S.entered 0 = [⟨2, 0⟩, ⟨3, 0⟩] ∧
      ∃ t, ((S.place t).pendsOn = some 0 ∨ (S.place t).waitsOn = some 0) ∧
        ∃ n S', S.goes t n = some S' ∧ 0 ∈ S'.held t := by
  obtain ⟨S, hexec, hserved, hentered, hfree, hword⟩ : ∃ S, lockMachine.Exec {} threeTurns S ∧
      S.served 0 = [⟨2, 0⟩] ∧ S.entered 0 = [⟨2, 0⟩, ⟨3, 0⟩] ∧ S.word 0 &&& lockedVal = 0#32 ∧
        S.word 0 ≠ 0#32 :=
    Machine.exists_exec_ofNext (by decide +kernel)
  have hreach : lockMachine.Reachable S :=
    ⟨{}, threeTurns, ⟨fun _ => rfl, fun _ => rfl, fun _ => rfl, fun _ => rfl, fun _ => rfl,
      fun _ => rfl,
      fun _ => rfl⟩, hexec⟩
  obtain ⟨-, -, -, -, -, hnext⟩ := qspinlock_excludes_and_hands_over hreach 0
  obtain ⟨t, ht, n, S', hgoes, hmem, -⟩ := hnext hfree hword
  exact ⟨S, hreach, hserved, hentered, t, ht, n, S', hgoes, hmem⟩

/-- A lock word is zero exactly when no context has the lock, is pending or waits for it. The check
of `lock_depth` never fails, and no two contexts of a CPU have the same MCS node. -/
theorem qspinlock_word_and_nodes (h : lockMachine.Reachable S) :
    (∀ l, S.word l = 0#32 ↔ ∀ t, l ∉ S.held t ∧ (S.place t).pendsOn ≠ some l ∧
      (S.place t).waitsOn ≠ some l) ∧
    (∀ c, (S.place (S.running c)).idx = none → S.depth c < mcsMaxLockDepth) ∧
    ∀ t t' i, t.cpu = t'.cpu → (S.place t).idx = some i → (S.place t').idx = some i → t = t' := by
  have hsound := Sound.of_reachable h
  refine ⟨fun l => ?_, fun c => hsound.stacked.depth_lt, fun t t' i hcpu ht ht' => ?_⟩
  · obtain ⟨q, hq⟩ := hsound.good l
    simp only [Ne, hq.held, hq.pends, hq.waits, forall_and, ← List.eq_nil_iff_forall_not_mem,
      ← Option.eq_none_iff_forall_ne_some]
    constructor
    · intro hword
      obtain ⟨hwaiters, hlow⟩ := hq.word_eq_low (k := false) (m := false) hsound.stacked hword
      simpa [hwaiters] using hlow
    · rintro ⟨hholder, hpending, hwaiters⟩
      rw [hq.word, hholder, hpending, hwaiters]
      exact (by decide : 0#32 ||| lowBits false false = 0#32)
  · refine hsound.stacked.nodeOf_inj ht ht' ?_
    rw [nodeOf_of_idx ht, nodeOf_of_idx ht', hcpu]

theorem qspinlock_word_and_nodes_queued : ∃ S, lockMachine.Reachable S ∧
    ¬ ∀ t, 0 ∉ S.held t ∧ (S.place t).pendsOn ≠ some 0 ∧ (S.place t).waitsOn ≠ some 0 := by
  obtain ⟨S, hexec, hword⟩ : ∃ S, lockMachine.Exec {} threeTurns S ∧ S.word 0 ≠ 0#32 :=
    Machine.exists_exec_ofNext (by decide +kernel)
  have hreach : lockMachine.Reachable S :=
    ⟨{}, _, ⟨fun _ => rfl, fun _ => rfl, fun _ => rfl, fun _ => rfl,
    fun _ => rfl, fun _ => rfl, fun _ => rfl⟩, hexec⟩
  exact ⟨S, hreach, fun hfree => hword (((qspinlock_word_and_nodes hreach).1 0).mpr hfree)⟩

end ZXFoundation.Sync.Qspinlock
