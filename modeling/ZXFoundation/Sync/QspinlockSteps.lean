import ZXFoundation.Sync.Qspinlock

/-!
# The steps of the queued spin lock

What each step does to the line of its lock. The swaps of the fast path, of `try_lock` and of the
pending bit succeed on a word without a tail; so a context on the queue that has seen the two bits
clear finds them clear until it takes the lock itself.
-/

namespace ZXFoundation.Sync.Qspinlock

open LockSystem Function Place Line List Option

variable {S S' : LockSystem} {t t' : Thread} {l l' : LockId} {p : Place} {q : Line} {i : Nat}
    {w : Word}

namespace LockSystem

theorem count_acquired (h : t' ≠ t ∨ l' ≠ l) :
    ((S.acquired t l).held t').count l' = (S.held t').count l' := by
  show (update S.held t _ t').count l' = _
  induction t' using update_cases with
  | self => exact count_cons_of_ne (h.resolve_left (· rfl)).symm
  | other => rfl

theorem count_unlock (h : t' ≠ t ∨ l' ≠ l) :
    ((S.unlock t l).held t').count l' = (S.held t').count l' := by
  show (update S.held t _ t').count l' = _
  induction t' using update_cases with
  | self => exact count_erase_of_ne (h.resolve_left (· rfl))
  | other => rfl

end LockSystem

def Place.Plain (p : Place) : Prop := p.pendsOn = none ∧ p.waitsOn = none ∧ p.passesOn = none

instance (p : Place) : Decidable p.Plain := inferInstanceAs (Decidable (_ ∧ _))

namespace Local

section

variable (hb : ∀ l', (S.place t).lock = some l' → l' = l) (ha : ∀ l', p.lock = some l' → l' = l)
include hb ha

/-! ## Steps that concern one lock -/

theorem acquired : Local S (((S.setWord l w).acquired t l).setPlace t p) t l p :=
  ⟨rfl, hb, ha, fun _ hne => update_of_ne hne _ _, fun _ _ hne => count_acquired hne,
    fun _ _ => ⟨rfl, rfl⟩, fun _ _ _ _ _ => rfl⟩

theorem dequeued : Local S ((((S.setWord l w).acquired t l).dequeued t l).setPlace t p) t l p :=
  ⟨rfl, hb, ha, fun _ hne => update_of_ne hne _ _, fun _ _ hne => count_acquired hne,
    fun _ hne => ⟨rfl, update_of_ne hne _ _⟩, fun _ _ _ _ _ => rfl⟩

theorem enqueued : Local S (((S.setWord l w).enqueued t l).setPlace t p) t l p :=
  ⟨rfl, hb, ha, fun _ hne => update_of_ne hne _ _, fun _ _ _ => rfl,
    fun _ hne => ⟨update_of_ne hne _ _, rfl⟩, fun _ _ _ _ _ => rfl⟩

theorem setWord : Local S ((S.setWord l w).setPlace t p) t l p :=
  ⟨rfl, hb, ha, fun _ hne => update_of_ne hne _ _, fun _ _ _ => rfl, fun _ _ => ⟨rfl, rfl⟩,
    fun _ _ _ _ _ => rfl⟩

theorem setPlace : Local S (S.setPlace t p) t l p :=
  ⟨rfl, hb, ha, fun _ _ => rfl, fun _ _ _ => rfl, fun _ _ => ⟨rfl, rfl⟩, fun _ _ _ _ _ => rfl⟩

theorem setDepth {c : CpuId} {d : Nat} : Local S ((S.setDepth c d).setPlace t p) t l p :=
  ⟨rfl, hb, ha, fun _ _ => rfl, fun _ _ _ => rfl, fun _ _ => ⟨rfl, rfl⟩, fun _ _ _ _ _ => rfl⟩

end

theorem unlock (hout : S.place t = .out) : Local S (S.unlock t l) t l .out where
  place := by rw [← hout, update_eq_self]; rfl
  lockBefore l' hl' := by rw [hout] at hl'; cases hl'
  lockAfter l' hl' := by cases hl'
  word _ hne := update_of_ne hne _ _
  held _ _ hne := count_unlock hne
  log _ _ := ⟨rfl, rfl⟩
  node _ _ _ _ _ := rfl

end Local

namespace Good

variable (h : Good S l q)
include h

theorem count_acquired_self (hnone : q.holder = none) :
    ((S.acquired t l).held t).count l = if some t = some t then 1 else 0 := by
  show (update S.held t (l :: S.held t) t).count l = _
  rw [update_self, count_cons_self, h.count_held, hnone, if_neg (by simp), if_pos rfl]

/-- A thread that neither waits nor passes the lock on is not in the line. -/
theorem not_mem_chain (hplain : (S.place t).Plain) : t ∉ q.chain := by
  rw [mem_chain, ← h.passes, ← h.waits, hplain.2.1, hplain.2.2]
  simp

/-- The word is zero and the lock is taken. -/
theorem taken (hs : Stacked S) (hfree : S.word l = 0#32) (hplain : (S.place t).Plain)
    (hlock : (S.place t).lock = some l) :
    Good (((S.setWord l lockedVal).acquired t l).setPlace t .out) l
      { q with holder := some t } := by
  obtain ⟨hnil, hnone, hpending⟩ := h.word_eq_low hs (k := false) (m := false) hfree
  rw [isSome_eq_false_iff, isNone_iff_eq_none] at hnone hpending
  have hloc : Local S (((S.setWord l lockedVal).acquired t l).setPlace t .out) t l .out :=
    .acquired (fun l' hl' => some.inj (hl'.symm.trans hlock)) (by intro l' hl'; cases hl')
  have hout := h.not_mem_chain hplain
  refine h.relabelled hloc (fun _ _ _ _ => rfl) ?_ ?_ ?_ ?_ (fun _ _ => Iff.rfl) hplain.2.1.symm
    hplain.2.2.symm (fun hmem => absurd hmem hout) (by simp [waitsOn]) ?_ (by simp [lock]) ?_
    ⟨rfl, rfl⟩
  · show update S.word l lockedVal l = _
    rw [update_self, (h.tailOf_eq_zero hs).mpr hnil, hpending, BitVec.zero_or]
    exact lockedVal_eq
  · exact h.count_acquired_self hnone
  · intro t' ht'
    rw [hnone]
    simp [ht'.symm]
  · rw [hpending]
    simp [pendsOn]
  · intro t' ht'
    exact absurd hnil (h.followed t' ht').2
  · intro t' ht' hl' hready
    exact h.ready_relabelled (fun hne => absurd hnil hne) hl' hready

/-- One more thread, and it waits at the pending bit. -/
theorem pended (hs : Stacked S) (hheld : S.word l = lockedVal) (hp : S.place t = .pendingCas l) :
    Good ((S.setWord l (lockedVal ||| pendingVal)).setPlace t (.pendingSpin l)) l
      { q with pending := some t } := by
  obtain ⟨hnil, hsome, hnone⟩ := h.word_eq_low hs (hheld.trans lockedVal_eq)
  rw [isSome_eq_false_iff, isNone_iff_eq_none] at hnone
  have hplain : (S.place t).Plain := by rw [hp]; exact ⟨rfl, rfl, rfl⟩
  have hloc : Local S ((S.setWord l (lockedVal ||| pendingVal)).setPlace t (.pendingSpin l)) t l
    (.pendingSpin l) :=
    .setWord (by simp [hp, lock]) (by simp [lock])
  have hout := h.not_mem_chain hplain
  refine h.relabelled hloc (fun _ _ _ _ => rfl) ?_ (h.count_held t)
    (fun _ _ => Iff.rfl) ?_ ?_ hplain.2.1.symm
    hplain.2.2.symm (fun hmem => absurd hmem hout) (by simp [waitsOn])
    (fun t' ht' => (h.followed t' ht').1) (fun _ => ?_) ?_ ⟨rfl, rfl⟩
  · show update S.word l (lockedVal ||| pendingVal) l = _
    rw [update_self, (h.tailOf_eq_zero hs).mpr hnil, hsome, BitVec.zero_or]
    show lockedVal ||| pendingVal = lowBits true true
    decide
  · simp [pendsOn]
  · intro t' ht'
    rw [hnone]
    simp [ht'.symm]
  · exact ready_of_careless (by rw [hloc.place_self]; rfl)
  · intro t' ht' hl' hready
    exact h.ready_relabelled (fun hne => absurd hnil hne) hl' hready

theorem converted (hp : S.place t = .convertCas l w) (hfree : w &&& lockedVal = 0#32)
    (hword : S.word l = w) :
    Good (((S.setWord l ((w &&& ~~~pendingVal) ||| lockedVal)).acquired t l).setPlace t .out) l
      { q with holder := some t, pending := none } := by
  have hpending : q.pending = some t := (h.pends t).mp (by rw [hp]; rfl)
  have hnone : q.holder = none := by
    rw [← hword, h.and_lockedVal_eq,
      show 0#32 = lowBits false false from by decide, lowBits_inj] at hfree
    simpa using hfree.1
  have hloc :
    Local S (((S.setWord l ((w &&& ~~~pendingVal) ||| lockedVal)).acquired t l).setPlace t .out) t l
      .out := .acquired (by simp [hp, lock]) (by simp [lock])
  have hout : t ∉ q.chain := by
    rw [mem_chain, ← h.passes, ← h.waits, hp]
    simp [passesOn, waitsOn]
  refine h.relabelled hloc (fun _ _ _ _ => rfl) ?_ ?_ ?_ (by simp [pendsOn]) ?_ (by rw [hp]; rfl)
    (by rw [hp]; rfl) (fun hmem => absurd hmem hout) (by simp [waitsOn]) ?_ (by simp [lock]) ?_
    ⟨rfl, rfl⟩
  · show update S.word l ((w &&& ~~~pendingVal) ||| lockedVal) l = _
    rw [update_self, ← hword, h.word, isTail_tailOf.or_converted]
    rfl
  · exact h.count_acquired_self hnone
  · intro t' ht'
    rw [hnone]
    simp [ht'.symm]
  · intro t' ht'
    rw [hpending]
    simp [ht'.symm]
  · intro t' ht'
    rw [(h.followed t' ht').1] at hnone
    exact absurd hnone (by simp)
  · intro t' ht' hl' hready
    exact h.ready_relabelled (fun _ => .inr (by rw [hpending]; simp)) hl' hready

/-- The holder leaves, and the line stays as it is. -/
theorem unlocked (hp : S.place t = .out) (hmem : l ∈ S.held t) :
    Good (S.unlock t l) l { q with holder := none } := by
  have hholder : q.holder = some t := (h.held t).mp hmem
  have hplain : (S.place t).Plain := by rw [hp]; decide
  have hout := h.not_mem_chain hplain
  refine h.relabelled (Local.unlock hp) (fun _ _ _ _ => rfl) ?_ ?_ ?_ ?_
    (fun _ _ => Iff.rfl) hplain.2.1.symm
    hplain.2.2.symm (fun hmem => absurd hmem hout) (by simp [waitsOn]) ?_ (by simp [lock]) ?_
    ⟨rfl, rfl⟩
  · show update S.word l (S.word l &&& ~~~lockedVal) l = _
    rw [update_self, h.word, isTail_tailOf.or_and_not_lockedVal]
    rfl
  · show (update S.held t ((S.held t).erase l) t).count l = _
    rw [update_self, count_erase_self, h.count_held, hholder, if_pos rfl, if_neg (by simp)]
  · intro t' ht'
    rw [hholder]
    simp [ht'.symm]
  · rw [← h.pends, hp]
  · intro t' ht'
    -- whoever passes the line on holds the lock and is still in `lock`
    obtain rfl : t = t' := some.inj (hholder.symm.trans (h.followed t' ht').1)
    exact absurd (mem_chain.mpr (.inl ht')) hout
  · intro t' ht' hl' hready
    exact h.ready_relabelled (fun _ => .inl (by rw [hholder]; simp)) hl' hready

/-! ## Joining the line -/

theorem chain_eq_nil (hnil : q.waiters = []) : q.chain = [] := by
  cases hpass : q.passing with
  | none => rw [chain, hpass, hnil]; rfl
  | some a => exact absurd hnil (h.followed a hpass).2

omit h in
/-- The last waiter is the last of the line. -/
theorem getLast?_chain (hlast : q.waiters.getLast? = some t) : q.chain.getLast? = some t := by
  rw [chain, getLast?_append, hlast, some_or]

/-- The tail in the word names the node of the last waiter. -/
theorem afterTail_eq (hs : Stacked S) (i : Nat) :
    afterTail l i (S.word l) =
      match q.waiters.getLast? with
      | none => .spinWord l i
      | some a => .link l i (S.nodeOf a) := by
  unfold afterTail
  rw [h.and_tailMask_eq]
  cases hlast : q.waiters.getLast? with
  | none =>
    rw [if_neg]
    exact not_not.mpr ((h.tailOf_eq_zero hs).mpr (getLast?_eq_none_iff.mp hlast))
  | some a =>
    have hmem := mem_of_getLast? hlast
    obtain ⟨j, hj⟩ := idx_of_waitsOn ((h.waits a).mpr hmem)
    have htail : S.tailOf q.waiters = encodeTail a.cpu j := by
      simp only [tailOf, hlast, hj, getD_some]
    have hdecode := decode_encodeTail (k := q.holder.isSome) (p := q.pending.isSome) a.cpu
      (hs.idx_lt hj)
    show _ = link l i (S.nodeOf a)
    rw [if_pos (htail ▸ encodeTail_ne_zero a.cpu (hs.idx_lt hj)), h.word, htail, hdecode.1,
      hdecode.2,
      nodeOf_of_idx hj]

/-- The tail is exchanged: the thread is the last of the line. -/
theorem joined (hs : Stacked S) (hp : S.place t = .tailCas l i w) (hword : S.word l = w) :
    Good (((S.setWord l ((w &&& lockedMask) ||| encodeTail t.cpu i)).enqueued t l).setPlace t
      (afterTail l i w)) l
      { q with waiters := q.waiters ++ [t] } := by
  have hplain : (S.place t).Plain := by rw [hp]; exact ⟨rfl, rfl, rfl⟩
  have hout := h.not_mem_chain hplain
  have hafter := h.afterTail_eq hs i
  rw [hword] at hafter
  have hloc :
    Local S (((S.setWord l ((w &&& lockedMask) ||| encodeTail t.cpu i)).enqueued t l).setPlace t
      (afterTail l i w)) t l (afterTail l i w) := by
    refine .enqueued (by simp [hp, lock]) ?_
    rw [hafter]
    split <;> simp [lock]
  generalize hS' :
    ((S.setWord l ((w &&& lockedMask) ||| encodeTail t.cpu i)).enqueued t l).setPlace t
    (afterTail l i w) = S' at hloc ⊢
  have hnodes : S'.node = S.node := by rw [← hS']; rfl
  have hheld : S'.held = S.held := by rw [← hS']; rfl
  have hidx : (afterTail l i w).idx = some i := by
    rw [hafter]
    split <;> rfl
  have hnode : S'.nodeOf t = S.nodeOf t := nodeOf_congr (by rw [hloc.place_self, hidx, hp]; rfl)
  have hready : S.node (S.nodeOf t) = { next := none, locked := true } := by
    have hready := h.ready t (by rw [hp]; rfl)
    simpa only [Ready, hp] using hready
  have hother : ∀ t' ∈ q.chain, S'.place t' = S.place t' := fun t' ht' =>
    hloc.place_of_ne (by rintro rfl; exact hout ht')
  have hchain : chain { q with waiters := q.waiters ++ [t] } = q.chain ++ [t] := by
    rw [chain, chain, append_assoc]
  have hsame : ∀ t', t' ∈ q.chain → S'.nodeOf t' = S.nodeOf t' := fun t' ht' =>
    nodeOf_congr (by rw [hother t' ht'])
  constructor
  case word =>
    show S'.word l = S'.tailOf (q.waiters ++ [t]) ||| lowBits q.holder.isSome q.pending.isSome
    have htail : S'.tailOf (q.waiters ++ [t]) = encodeTail t.cpu i := by
      rw [tailOf, getLast?_concat]
      simp only [hloc.place_self, hidx, getD_some]
    rw [htail, ← hS', ← hword]
    show update S.word l _ l = _
    rw [update_self, h.and_lockedMask_eq, BitVec.or_comm]
  case held => exact fun t' => (hloc.held_self h (hheld ▸ h.count_held t) (fun _ _ => Iff.rfl) t').1
  case once => exact fun t' => (hloc.held_self h (hheld ▸ h.count_held t) (fun _ _ => Iff.rfl) t').2
  case pends =>
    refine hloc.role_self h.pends ?_ fun _ _ => Iff.rfl
    rw [← h.pends, hp, hafter]
    split <;> simp [pendsOn]
  case waits =>
    refine hloc.role_self h.waits ?_ fun t' ht' => ?_
    · rw [hafter]
      split <;> simp [waitsOn]
    · simp [ht']
  case passes =>
    refine hloc.role_self h.passes ?_ fun _ _ => Iff.rfl
    rw [← h.passes, hp, hafter]
    split <;> simp [passesOn]
  case nodup =>
    refine nodup_append.mpr ⟨h.nodup, nodup_singleton t, ?_⟩
    intro a ha b hb
    rw [mem_singleton.mp hb]
    rintro rfl
    exact hout (mem_chain_of_mem ha)
  case followed => exact fun t' ht' => ⟨(h.followed t' ht').1, by simp⟩
  case linked =>
    rw [hchain]
    refine isChain_append.mpr ⟨?_, isChain_singleton t, ?_⟩
    · refine h.linked.imp_of_mem_imp fun a b ha hb hab => ?_
      exact hab.congr (hother b hb) (by rw [hother a ha]) (by rw [hnodes]) (by rw [hnodes])
    -- the last of the old line is the context that the swapped tail names
    intro a ha b hb
    obtain rfl : t = b := by simpa using hb
    have hmem := mem_of_getLast? ha
    have hnext := h.ended a ha
    have hlast : q.waiters.getLast? = some a := by
      cases hlast : q.waiters.getLast? with
      | none =>
        rw [h.chain_eq_nil (getLast?_eq_none_iff.mp hlast)] at hmem
        exact absurd hmem not_mem_nil
      | some b => exact (getLast?_chain hlast).symm.trans ha
    rw [hlast] at hafter
    refine ⟨by rw [hnodes, hnode, hready], ?_⟩
    rw [hloc.place_self, hafter, hsame a hmem, hnodes]
    exact ⟨rfl, hnext⟩
  case ended =>
    intro a ha
    rw [hchain, getLast?_concat] at ha
    obtain rfl : t = a := some.inj ha
    rw [hnodes, hnode, hready]
  case front =>
    intro hpass a ha
    cases hw : q.waiters with
    | nil =>
      obtain rfl : t = a := by simpa [hw] using ha
      rw [hw] at hafter
      unfold AtFront
      rw [hloc.place_self, hafter]
      trivial
    | cons b rest =>
      obtain rfl : b = a := by simpa [hw] using ha
      have hmem := mem_chain_of_mem (q := q) (hw ▸ mem_cons_self)
      exact (h.front hpass b (by rw [hw]; rfl)).congr (hother b hmem) (by rw [hnodes])
  case ready =>
    intro t' ht'
    by_cases ht : t' = t
    · unfold Ready
      rw [ht, hloc.place_self, hafter]
      cases q.waiters.getLast? <;> trivial
    rw [hloc.place_of_ne ht] at ht'
    have hready' := h.ready t' ht'
    have hwaits := h.waits t'
    refine Ready.congr (S := S) ?_ (hloc.place_of_ne ht) fun _ _ => by rw [hnodes]
    unfold Ready at hready' ⊢
    cases hp' : S.place t' <;> simp only [hp'] at hready' ⊢ <;> try exact hready'
    case fetchOr l' j =>
      obtain rfl : l' = l := by simpa [hp', lock] using ht'
      have hmem : t' ∈ q.waiters := hwaits.mp (by rw [hp']; rfl)
      refine ⟨hready'.1, hready'.2.1, fun heq => ?_⟩
      have hlen := congrArg length heq
      have hpos := length_pos_of_mem hmem
      rw [length_append, length_singleton, length_singleton] at hlen
      omega
  case log =>
    rw [← hS']
    show update S.entered l (S.entered l ++ [t]) l = S.served l ++ (q.waiters ++ [t])
    rw [update_self, h.log, append_assoc]

theorem chain_nodup : q.chain.Nodup := by
  cases hpass : q.passing with
  | none => rw [chain, hpass]; exact h.nodup
  | some a =>
  rw [chain, hpass]
  refine nodup_cons.mpr ⟨fun hmem => ?_, h.nodup⟩
  have hpasses := (h.passes a).mpr hpass
  have hwaits := (h.waits a).mpr hmem
  cases hp : S.place a <;> simp_all [passesOn, waitsOn]

/-- A context about to store to the node of its predecessor is not the first of the line. -/
theorem exists_pred {prev : NodeRef} (hp : S.place t = .link l i prev) :
    ∃ c₁ a c₂, q.chain = c₁ ++ a :: t :: c₂ ∧ S.Behind a t := by
  have hmem : t ∈ q.chain := mem_chain_of_mem ((h.waits t).mp (by rw [hp]; rfl))
  obtain ⟨c, c₂, hsplit⟩ := append_of_mem hmem
  cases c using reverseRecOn with
  | nil =>
    cases hpass : q.passing with
    | some b =>
      obtain rfl : b = t := by
        rw [chain, hpass] at hsplit
        exact (cons.inj hsplit).1
      have hpasses := (h.passes b).mpr hpass
      rw [hp] at hpasses
      cases hpasses
    | none =>
      have hhead : q.waiters.head? = some t := by
        rw [chain, hpass] at hsplit
        exact congrArg head? hsplit
      have hfront := h.front hpass t hhead
      unfold AtFront at hfront
      rw [hp] at hfront
      exact hfront.elim
  | append_singleton c a =>
    rw [append_assoc] at hsplit
    exact ⟨c, a, c₂, hsplit, isChain_iff_forall_rel_of_append_cons_cons.mp h.linked hsplit⟩

/-- The predecessor learns of its successor. -/
theorem hooked (hs : Stacked S) {prev : NodeRef} (hp : S.place t = .link l i prev) :
    let S' := (S.setNode prev { S.node prev with next := some ⟨t.cpu, i⟩ }).setPlace t
      (.spinLocked l i)
    Local S S' t l (.spinLocked l i) ∧ Good S' l q := by
  intro S'
  obtain ⟨c₁, a, c₂, hsplit, hbehind⟩ := h.exists_pred hp
  have hnodup := h.chain_nodup
  rw [hsplit, nodup_append] at hnodup
  have hleft : a ∉ c₁ := fun hmem => hnodup.2.2 a hmem a mem_cons_self rfl
  have hright : a ∉ t :: c₂ := (nodup_cons.mp hnodup.2.1).1
  have ha : a ∈ q.chain := by rw [hsplit]; simp
  obtain ⟨j, hj⟩ := h.idx_of_mem ha
  obtain ⟨hlocked, hprev, hnone⟩ : (S.node (S.nodeOf t)).locked = true ∧ prev = S.nodeOf a ∧
      (S.node (S.nodeOf a)).next = none := by
    have hbehind := hbehind
    unfold Behind at hbehind
    rw [hp] at hbehind
    exact hbehind
  -- the store changes one field of one node
  have hnext : ∀ t' k, t' ≠ a → (S.place t').idx = some k →
    S'.node (S.nodeOf t') = S.node (S.nodeOf t') := by
    intro t' k hne hk
    refine update_of_ne ?_ _ _
    rw [hprev]
    exact fun heq => hne (hs.nodeOf_inj hk hj heq)
  have hsame : ∀ n, (S'.node n).locked = (S.node n).locked := fun n => by
    show (update S.node prev _ n).locked = _
    exact update_cases n rfl fun _ _ => rfl
  have hloc : Local S S' t l (.spinLocked l i) := by
    refine ⟨rfl, by simp [hp, lock], by simp [lock], fun _ _ => rfl, fun _ _ _ => rfl,
      fun _ _ => ⟨rfl, rfl⟩, fun t' k _ hk hlock => hnext t' k ?_ hk⟩
    rintro rfl
    exact hlock (h.lock_of_mem ha)
  refine ⟨hloc, ?_⟩
  have hidx := hloc.idx_eq (by rw [hp]; rfl)
  constructor
  case word => rw [show S'.word l = S.word l from rfl, h.word, tailOf_congr fun t' _ => hidx t']
  case held => exact h.held
  case once => exact h.once
  case pends => exact hloc.role_self h.pends (by rw [← h.pends, hp]; rfl) fun _ _ => Iff.rfl
  case waits => exact hloc.role_self h.waits (by rw [← h.waits, hp]; rfl) fun _ _ => Iff.rfl
  case passes => exact hloc.role_self h.passes (by rw [← h.passes, hp]; rfl) fun _ _ => Iff.rfl
  case nodup => exact h.nodup
  case followed => exact h.followed
  case linked =>
    refine isChain_iff_forall_rel_of_append_cons_cons.mpr fun x y d₁ d₂ hd => ?_
    have hxy := isChain_iff_forall_rel_of_append_cons_cons.mp h.linked hd
    have hx : x ∈ q.chain := by rw [hd]; simp
    by_cases hxa : x = a
    · -- no two contexts stand behind one
      subst hxa
      obtain rfl : t = y := by
        have heq := hsplit.symm.trans hd
        rw [append_cons_inj_of_notMem hleft hright] at heq
        exact (cons.inj heq.2.2).1
      refine ⟨by rw [nodeOf_congr (hidx t), hsame]; exact hlocked, ?_⟩
      rw [hloc.place_self]
      show (update S.node prev _ (S'.nodeOf x)).next = some (S'.nodeOf t)
      rw [nodeOf_congr (hidx x), nodeOf_congr (hidx t), ← hprev, update_self,
        nodeOf_of_idx (i := i) (by rw [hp]; rfl)]
    · have hyt : y ≠ t := by
        rintro rfl
        unfold Behind at hxy
        rw [hp] at hxy
        obtain ⟨k, hk⟩ := h.idx_of_mem hx
        exact hxa (hs.nodeOf_inj hk hj (hxy.2.1.symm.trans hprev))
      obtain ⟨k, hk⟩ := h.idx_of_mem hx
      exact hxy.congr (hloc.place_of_ne hyt) (hidx x) (by rw [hnext x k hxa hk]) (hsame _)
  case ended =>
    intro t' ht'
    have hmem := mem_of_getLast? ht'
    obtain ⟨k, hk⟩ := h.idx_of_mem hmem
    have hne : t' ≠ a := by
      rintro rfl
      rw [hsplit, getLast?_append, getLast?_cons_cons] at ht'
      have hlast : t' ∈ t :: c₂ := by
        cases hlast : (t :: c₂).getLast? with
        | none => simp at hlast
        | some b =>
          rw [hlast] at ht'
          obtain rfl : b = t' := some.inj ht'
          exact mem_of_getLast? hlast
      exact hright hlast
    rw [nodeOf_congr (hidx t'), hnext t' k hne hk]
    exact h.ended t' ht'
  case front =>
    intro hpass t' ht'
    have hfront := h.front hpass t' ht'
    have hne : t' ≠ t := by
      rintro rfl
      unfold AtFront at hfront
      rw [hp] at hfront
      exact hfront
    exact hfront.congr (hloc.place_of_ne hne) (hsame _)
  case ready =>
    intro t' ht'
    by_cases ht : t' = t
    · exact ready_of_careless (by rw [ht, hloc.place_self]; rfl)
    rw [hloc.place_of_ne ht] at ht'
    have hready := h.ready t' ht'
    by_cases hta : t' = a
    · subst hta
      have hplace := hloc.place_of_ne ht
      have hrole := mem_chain.mp ha
      rw [← h.passes, ← h.waits] at hrole
      unfold Ready at hready ⊢
      rw [hplace]
      cases hp' : S.place t' <;> simp_all [passesOn, waitsOn]
    · exact hready.congr (hloc.place_of_ne ht) fun k hk => hnext t' k hta hk
  case log => exact h.log

end Good

/-!
## Leaving the queue of a queued spin lock

The first of the line takes the lock, alone or with others behind it, and in the second case tells
the next.
-/

namespace Good

variable (h : Good S l q)
include h

/-- Who watches the word is the first of the line. -/
theorem first_of_watching
    (hp : S.place t = .spinWord l i ∨ S.place t = .soloCas l i ∨ S.place t = .fetchOr l i) :
    q.passing = none ∧ ∃ rest, q.waiters = t :: rest := by
  refine h.first_of_not_behind ?_ fun a ha => ?_
  · rcases hp with hp | hp | hp <;> rw [hp] <;> rfl
  · unfold Behind at ha
    rcases hp with hp | hp | hp <;> rw [hp] at ha <;> exact ha.2

variable {rest : List Thread}

/-- Two waiters never look at the word at once. -/
theorem ready_of_first (hfirst : q.waiters = t :: rest) (hne : t' ≠ t)
    (ht' : (S.place t').lock = some l)
    {q' : Line} : S.Ready q t' → S.Ready q' t' := by
  intro hready
  have hhead : ∀ rest', q.waiters = t' :: rest' → False := by
    intro rest' heq
    exact hne (cons.inj (heq.symm.trans hfirst)).1
  unfold Ready at hready ⊢
  cases hp : S.place t' <;> simp only [hp] at hready ⊢ <;> try exact hready
  case soloCas l' j =>
    obtain rfl : l' = l := by simpa [hp, lock] using ht'
    obtain ⟨-, rest', hrest'⟩ := h.first_of_watching (.inr (.inl hp))
    exact (hhead rest' hrest').elim
  case fetchOr l' j =>
    obtain rfl : l' = l := by simpa [hp, lock] using ht'
    obtain ⟨-, rest', hrest'⟩ := h.first_of_watching (.inr (.inr hp))
    exact (hhead rest' hrest').elim

theorem getLast?_of_word (hs : Stacked S) (hi : (S.place t).idx = some i)
    (hword : S.word l = encodeTail t.cpu i) : q.waiters.getLast? = some t := by
  rw [h.word, ← BitVec.or_zero (x := encodeTail t.cpu i),
    show 0#32 = lowBits false false from by decide,
    isTail_tailOf.or_inj isTail_encodeTail] at hword
  have htail := hword.1
  cases hlast : q.waiters.getLast? with
  | none =>
    rw [(h.tailOf_eq_zero hs).mpr (getLast?_eq_none_iff.mp hlast)] at htail
    exact absurd htail.symm (encodeTail_ne_zero _ (hs.idx_lt hi))
  | some a =>
    obtain ⟨j, hj⟩ := idx_of_waitsOn ((h.waits a).mpr (mem_of_getLast? hlast))
    simp only [tailOf, hlast, hj, getD_some] at htail
    rw [encodeTail_inj (hs.idx_lt hj) (hs.idx_lt hi)] at htail
    have heq : S.nodeOf a = S.nodeOf t := by
      rw [nodeOf_of_idx hj, nodeOf_of_idx hi, htail.1, htail.2]
    rw [hs.nodeOf_inj hj hi heq]

/-- The first of the line takes the lock. If others wait behind it, it stays the first of the linked
nodes until it has passed the line on. -/
theorem served {passing : Option Thread} (hpass : q.passing = none) (hfirst : q.waiters = t :: rest)
    (hfree : q.holder = none ∧ q.pending = none)
    (hpassing : passing = none ∧ rest = [] ∨ passing = some t ∧ rest ≠ [])
    (hlock : (S.place t).lock = some l ∧ p.lock = some l) (hidx : p.idx = (S.place t).idx)
    (hroles : p.pendsOn = none ∧ p.waitsOn = none ∧ (p.passesOn = some l ↔ passing = some t))
    (hcareless : p.careless) (hword : w = S.tailOf rest ||| lowBits true false) :
    Good ((((S.setWord l w).acquired t l).dequeued t l).setPlace t p) l
      { holder := some t, passing, waiters := rest } := by
  have hloc : Local S ((((S.setWord l w).acquired t l).dequeued t l).setPlace t p) t l p :=
    .dequeued (fun l' hl' => some.inj (hl'.symm.trans hlock.1))
      fun l' hl' => some.inj (hl'.symm.trans hlock.2)
  generalize hS' : (((S.setWord l w).acquired t l).dequeued t l).setPlace t p = S' at hloc ⊢
  have hnodes : S'.node = S.node := by rw [← hS']; rfl
  have hcount : (S'.held t).count l = if some t = some t then 1 else 0 := by
    rw [← hS']
    exact h.count_acquired_self hfree.1
  have hholder : ∀ t', t' ≠ t → (some t = some t' ↔ q.holder = some t') := by
    intro t' ht'
    rw [hfree.1]
    simp [ht'.symm]
  have hidx := hloc.idx_eq hidx
  have hnodup := h.nodup
  rw [hfirst, nodup_cons] at hnodup
  have hold : q.chain = t :: rest := by
    rw [chain, hpass, hfirst]
    rfl
  have hchain : passing = some t →
    chain { holder := some t, passing, waiters := rest } = q.chain := by
    rintro rfl
    rw [hold]
    rfl
  constructor
  case word =>
    rw [tailOf_congr (S := S) fun t' _ => hidx t', ← hS']
    exact (update_self ..).trans hword
  case held => exact fun t' => (hloc.held_self h hcount hholder t').1
  case once => exact fun t' => (hloc.held_self h hcount hholder t').2
  case pends => exact hloc.role_self h.pends (by simp [hroles.1]) (by simp [hfree.2])
  case waits =>
    exact hloc.role_self h.waits (by simp [hroles.2.1, hnodup.1]) (by simp +contextual [hfirst])
  case passes =>
    refine hloc.role_self h.passes hroles.2.2 fun t' ht' => ?_
    rcases hpassing with ⟨rfl, -⟩ | ⟨rfl, -⟩ <;> simp [hpass, ht'.symm]
  case nodup => exact hnodup.2
  case followed =>
    rintro t' rfl
    rcases hpassing with ⟨hnone, -⟩ | ⟨hself, hrest⟩
    · cases hnone
    · exact ⟨hself.symm, hrest⟩
  case linked =>
    rcases hpassing with ⟨rfl, rfl⟩ | ⟨hself, -⟩
    · exact isChain_nil
    rw [hchain hself]
    refine h.linked.imp_of_mem_tail_imp fun a b _ hb hab => ?_
    rw [hold] at hb
    have hne : b ≠ t := by
      rintro rfl
      exact hnodup.1 hb
    exact hab.congr (hloc.place_of_ne hne) (hidx a) (by rw [hnodes]) (by rw [hnodes])
  case ended =>
    intro t' ht'
    rcases hpassing with ⟨rfl, rfl⟩ | ⟨hself, -⟩
    · cases ht'
    rw [hchain hself] at ht'
    rw [nodeOf_congr (hidx t'), hnodes]
    exact h.ended t' ht'
  case front =>
    rintro rfl t' ht'
    rcases hpassing with ⟨-, rfl⟩ | ⟨hself, -⟩
    · cases ht'
    · cases hself
  case ready =>
    intro t' ht'
    by_cases ht : t' = t
    · exact ready_of_careless (by rw [ht, hloc.place_self]; exact hcareless)
    · rw [hloc.place_of_ne ht] at ht'
      exact (h.ready_of_first hfirst ht ht' (h.ready t' ht')).congr (hloc.place_of_ne ht)
        fun _ _ => by rw [hnodes]
  case log =>
    rw [← hS']
    show S.entered l = update S.served l (S.served l ++ [t]) l ++ rest
    rw [update_self, h.log, hfirst, append_assoc]
    rfl

/-- The first takes the lock and is the last one too. -/
theorem served_solo (hs : Stacked S) (hp : S.place t = .soloCas l i)
    (hword : S.word l = encodeTail t.cpu i) :
    Good ((((S.setWord l lockedVal).acquired t l).dequeued t l).setPlace t (.giveNode l i)) l
      { holder := some t } := by
  obtain ⟨hpass, rest, hfirst⟩ := h.first_of_watching (.inr (.inl hp))
  have hfree : q.holder = none ∧ q.pending = none := by
    have hready := h.ready t (by rw [hp]; rfl)
    simpa only [Ready, hp] using hready
  have hsolo : q.waiters = [t] := by
    have hlast := h.getLast?_of_word hs (by rw [hp]; rfl) hword
    have hnodup := h.nodup
    rw [hfirst] at hlast hnodup ⊢
    cases rest with
    | nil => rfl
    | cons b rest =>
      rw [getLast?_cons_cons] at hlast
      exact absurd (mem_of_getLast? hlast) (nodup_cons.mp hnodup).1
  refine h.served hpass hsolo hfree (.inl ⟨rfl, rfl⟩) ⟨by rw [hp]; rfl, rfl⟩ (by rw [hp]; rfl)
    ⟨rfl, rfl, by simp [passesOn]⟩ rfl ?_
  show lockedVal = 0#32 ||| lowBits true false
  decide

/-- The first takes the lock, and others are behind it. -/
theorem served_first (hp : S.place t = .fetchOr l i) :
    ∃ rest, q.waiters = t :: rest ∧
      Good ((((S.setWord l (S.word l ||| lockedVal)).acquired t l).dequeued t l).setPlace t
        (.spinNext l i)) l
        { holder := some t, passing := some t, waiters := rest } := by
  obtain ⟨hpass, rest, hfirst⟩ := h.first_of_watching (.inr (.inr hp))
  obtain ⟨hnone, hpending, hmore⟩ : q.holder = none ∧ q.pending = none ∧ q.waiters ≠ [t] := by
    have hready := h.ready t (by rw [hp]; rfl)
    simpa only [Ready, hp] using hready
  have hrest : rest ≠ [] := by
    rintro rfl
    exact hmore hfirst
  refine ⟨rest, hfirst, h.served hpass hfirst ⟨hnone, hpending⟩ (.inr ⟨rfl, hrest⟩)
    ⟨by rw [hp]; rfl, rfl⟩
    (by rw [hp]; rfl) ⟨rfl, rfl, by simp [passesOn]⟩ rfl ?_⟩
  have htail : S.tailOf rest = S.tailOf q.waiters := by
    rw [hfirst, tailOf, tailOf]
    cases rest with
    | nil => exact absurd rfl hrest
    | cons b rest => rw [getLast?_cons_cons]
  rw [htail, h.word, or_or_lockedVal, hpending]
  rfl

variable {next : NodeRef}

/-- The node of the next thread is unlocked. -/
theorem passed (hs : Stacked S) (hp : S.place t = .passOn l i next) :
    let S' := (S.setNode next { S.node next with locked := false }).setPlace t (.giveNode l i)
    Local S S' t l (.giveNode l i) ∧ Good S' l { q with passing := none } := by
  intro S'
  have hpass : q.passing = some t := (h.passes t).mp (by rw [hp]; rfl)
  obtain ⟨-, hne⟩ := h.followed t hpass
  obtain ⟨b, rest, hw⟩ := exists_cons_of_ne_nil hne
  have hchain : q.chain = t :: b :: rest := by
    rw [chain, hpass, hw]
    rfl
  have hlinked := h.linked
  rw [hchain, isChain_cons_cons] at hlinked
  have hnodup := h.nodup
  rw [hw, nodup_cons] at hnodup
  have hb : b ∈ q.waiters := by rw [hw]; exact mem_cons_self
  have hbmem := mem_chain_of_mem (q := q) hb
  obtain ⟨j, hj⟩ := h.idx_of_mem hbmem
  have hout : t ∉ q.waiters := by
    rw [← h.waits, hp]
    simp [waitsOn]
  have hready : (S.node (S.nodeOf t)).next = some next := by
    have hready := h.ready t (by rw [hp]; rfl)
    simpa only [Ready, hp] using hready
  -- the next waiter has linked its node, so it is the one that is told
  obtain ⟨k, m, hpb, hnext⟩ : ∃ k m, S.place b = .spinLocked k m ∧ next = S.nodeOf b := by
    have hbehind := hlinked.1
    unfold Behind at hbehind
    cases hpb : S.place b <;> simp only [hpb] at hbehind
    case link k m prev =>
      rw [hready] at hbehind
      exact absurd hbehind.2.2 (by simp)
    case spinLocked k m =>
      rw [hready] at hbehind
      exact ⟨k, m, rfl, some.inj hbehind.2⟩
    all_goals exact absurd hbehind.2 id
  have hnodes : ∀ t' k, t' ≠ b → (S.place t').idx = some k →
    S'.node (S.nodeOf t') = S.node (S.nodeOf t') := by
    intro t' k hne hk
    refine update_of_ne ?_ _ _
    rw [hnext]
    exact fun heq => hne (hs.nodeOf_inj hk hj heq)
  have hsame : ∀ n, (S'.node n).next = (S.node n).next := fun n => by
    show (update S.node next _ n).next = _
    exact update_cases n rfl fun _ _ => rfl
  have hloc : Local S S' t l (.giveNode l i) := by
    refine ⟨rfl, by simp [hp, lock], by simp [lock], fun _ _ => rfl, fun _ _ _ => rfl,
      fun _ _ => ⟨rfl, rfl⟩, fun t' k _ hk hlock => hnodes t' k ?_ hk⟩
    rintro rfl
    exact hlock (h.lock_of_mem hbmem)
  refine ⟨hloc, ?_⟩
  have hidx := hloc.idx_eq (by rw [hp]; rfl)
  have hplace : ∀ t' ∈ q.waiters, S'.place t' = S.place t' := fun t' ht' =>
    hloc.place_of_ne (by rintro rfl; exact hout ht')
  have hchain' : chain { q with passing := none } = b :: rest := by
    rw [chain, hw]
    rfl
  constructor
  case word => rw [show S'.word l = S.word l from
    rfl, h.word, tailOf_congr (S := S) fun t' _ => hidx t']
  case held => exact h.held
  case once => exact h.once
  case pends => exact hloc.role_self h.pends (by rw [← h.pends, hp]; rfl) fun _ _ => Iff.rfl
  case waits => exact hloc.role_self h.waits (by rw [← h.waits, hp]; rfl) fun _ _ => Iff.rfl
  case passes =>
    refine hloc.role_self h.passes (by simp [passesOn]) fun t' ht' => ?_
    rw [hpass]
    simp [ht'.symm]
  case nodup => exact h.nodup
  case followed => exact fun t' ht' => by cases ht'
  case linked =>
    rw [hchain']
    refine hlinked.2.imp_of_mem_tail_imp fun x y _ hy hxy => ?_
    have hy' : y ∈ q.waiters := by rw [hw]; exact mem_cons_of_mem b hy
    have hyb : y ≠ b := by
      rintro rfl
      exact hnodup.1 hy
    obtain ⟨k, hk⟩ := h.idx_of_mem (mem_chain_of_mem hy')
    exact hxy.congr (hplace y hy') (hidx x) (hsame _) (by rw [hnodes y k hyb hk])
  case ended =>
    intro t' ht'
    rw [hchain'] at ht'
    rw [nodeOf_congr (hidx t'), hsame]
    refine h.ended t' ?_
    rw [hchain, getLast?_cons_cons]
    exact ht'
  case front =>
    intro _ t' ht'
    obtain rfl : b = t' := by
      rw [hw] at ht'
      exact some.inj ht'
    unfold AtFront
    rw [hplace b hb, hpb]
    show (update S.node next _ (S'.nodeOf b)).locked = false
    rw [nodeOf_congr (hidx b), ← hnext, update_self]
  case ready =>
    intro t' ht'
    by_cases ht : t' = t
    · exact ready_of_careless (by rw [ht, hloc.place_self]; rfl)
    rw [hloc.place_of_ne ht] at ht'
    have hready := h.ready t' ht'
    by_cases htb : t' = b
    · exact ready_of_careless (by rw [htb, hplace b hb, hpb]; rfl)
    · exact Ready.congr (S := S) hready (hloc.place_of_ne ht) fun k hk => hnodes t' k htb hk
  case log => exact h.log

/-! ## Moves of the first -/

/-- The first of the line goes on to wait, or to try, in another way. -/
theorem watching (hpass : q.passing = none) (hfirst : q.waiters = t :: rest)
    (hi : (S.place t).idx = some i)
    (hlock : p.lock = some l) (hp : p = .spinWord l i ∨ p = .soloCas l i ∨ p = .fetchOr l i)
    (hready : (S.setPlace t p).Ready q t) : Good (S.setPlace t p) l q := by
  have hmem : t ∈ q.waiters := by rw [hfirst]; exact mem_cons_self
  have hwaits : p.waitsOn = (S.place t).waitsOn := by
    rw [(h.waits t).mpr hmem]
    rcases hp with rfl | rfl | rfl <;> rfl
  have hplain : p.pendsOn = (S.place t).pendsOn ∧ p.passesOn = (S.place t).passesOn := by
    have hold := (h.waits t).mpr hmem
    rcases hp with rfl | rfl | rfl <;> cases hpt : S.place t <;>
      simp_all [pendsOn, passesOn, waitsOn]
  have hidx : p.idx = (S.place t).idx := by
    rw [hi]
    rcases hp with rfl | rfl | rfl <;> rfl
  have hloc : Local S (S.setPlace t p) t l p := by
    refine .setPlace (fun l' hl' => ?_) (fun l' hl' => some.inj (hl'.symm.trans hlock))
    exact some.inj (hl'.symm.trans (h.lock_of_mem (mem_chain_of_mem hmem)))
  refine h.moved hloc (fun _ _ _ _ => rfl) rfl rfl ⟨rfl, rfl⟩ hplain.1 hwaits hplain.2
    (fun _ => ⟨?_, hidx, rfl⟩)
    (fun _ => ?_) fun _ => hready
  · have hnodup := h.nodup
    rw [hfirst, nodup_cons] at hnodup
    rw [chain, hpass, hfirst]
    exact hnodup.1
  · unfold AtFront
    rw [hloc.place_self]
    rcases hp with rfl | rfl | rfl <;> trivial

theorem woken (hp : S.place t = .spinLocked l i) (hfree : (S.node ⟨t.cpu, i⟩).locked = false) :
    Good (S.setPlace t (.spinWord l i)) l q := by
  have hi : (S.place t).idx = some i := by rw [hp]; rfl
  obtain ⟨hpass, rest, hfirst⟩ := h.first_of_not_behind (t := t) (by rw [hp]; rfl) fun a ha => by
    have hlocked := ha.1
    rw [nodeOf_of_idx hi, hfree] at hlocked
    cases hlocked
  refine h.watching hpass hfirst hi rfl (.inl rfl) ?_
  simp [Ready, LockSystem.setPlace]

theorem sawFree (hp : S.place t = .spinWord l i) (hfree : S.word l &&& lockedMask = 0#32) :
    Good (S.setPlace t (.soloCas l i)) l q := by
  obtain ⟨hpass, rest, hfirst⟩ := h.first_of_watching (.inl hp)
  refine h.watching hpass hfirst (by rw [hp]; rfl) rfl (.inr (.inl rfl)) ?_
  rw [h.and_lockedMask_eq, show 0#32 = lowBits false false from by decide, lowBits_inj] at hfree
  simpa [Ready, LockSystem.setPlace] using hfree

theorem sawOthers (hp : S.place t = .soloCas l i) (hword : S.word l ≠ encodeTail t.cpu i) :
    Good (S.setPlace t (.fetchOr l i)) l q := by
  obtain ⟨hpass, rest, hfirst⟩ := h.first_of_watching (.inr (.inl hp))
  have hi : (S.place t).idx = some i := by rw [hp]; rfl
  obtain ⟨hnone, hpending⟩ : q.holder = none ∧ q.pending = none := by
    have hready := h.ready t (by rw [hp]; rfl)
    simpa only [Ready, hp] using hready
  refine h.watching hpass hfirst hi rfl (.inr (.inr rfl)) ?_
  have hmore : q.waiters ≠ [t] := by
    intro hsolo
    refine hword ?_
    rw [h.word, hnone, hpending, hsolo, tailOf]
    simp only [getLast?_singleton, hi, getD_some]
    exact BitVec.or_zero
  simpa [Ready, LockSystem.setPlace] using ⟨hnone, hpending, hmore⟩

theorem sawNext (hp : S.place t = .spinNext l i) (hnext : (S.node ⟨t.cpu, i⟩).next = some next) :
    Good (S.setPlace t (.passOn l i next)) l q := by
  have hpass : q.passing = some t := (h.passes t).mp (by rw [hp]; rfl)
  have hloc : Local S (S.setPlace t (.passOn l i next)) t l (.passOn l i next) :=
    .setPlace (by simp [hp, lock]) (by simp [lock])
  refine h.moved hloc (fun _ _ _ _ => rfl) rfl rfl ⟨rfl, rfl⟩
    (by rw [hp]; rfl) (by rw [hp]; rfl) (by rw [hp]; rfl)
    (fun _ => ⟨?_, by rw [hp]; rfl, rfl⟩) (by simp [waitsOn]) fun _ => ?_
  · have hnodup := h.chain_nodup
    rw [chain, hpass] at hnodup ⊢
    exact (nodup_cons.mp hnodup).1
  unfold Ready
  rw [hloc.place_self]
  show (S.node ((S.setPlace t (.passOn l i next)).nodeOf t)).next = some next
  rw [nodeOf_of_idx (i := i) (by rw [hloc.place_self]; rfl)]
  exact hnext

end Good

end ZXFoundation.Sync.Qspinlock
