import Mathlib.Data.List.Range
import ZXFoundation.Lib.Chain
import ZXFoundation.Scoms.Kobject

/-!
# The slots and the free list of a `scoms_table`

`zxfoundation/scoms/table.cxxm`, the part that involves no object: slot pointers, free links and
per-slot generation counters, in blocks of 256 that are allocated on demand. The free list is
threaded through `next` from `freeHead` and ends in `~0U`; what the functions do to it is stated
with `Linked.Chain`.

The link and generation blocks of an initialized table are all present; a slot block may be missing,
and `objectPtr` looks first.
-/

namespace ZXFoundation.Scoms

open Linked Function Chain

def tableBlockSize : Nat := 256

/-- `BLOCK_COUNT`, in `u32` arithmetic. -/
def tableBlockCount (N : Nat) : Nat := (N + (tableBlockSize - 1)) % 2 ^ 32 / tableBlockSize

/-- A template argument for which `scoms_table<T, N>` is well formed: a `u32` that does not
make the block arrays empty. -/
structure Capacity where
  N : Nat
  lt : N < 2 ^ 32
  blocks : 0 < tableBlockCount N

theorem Capacity.pos (cap : Capacity) : 0 < cap.N := by
  have h := cap.blocks
  unfold tableBlockCount tableBlockSize at h
  omega

theorem Capacity.lt_invalid (cap : Capacity) : cap.N < kobjectIdInvalid := by
  have h := cap.blocks
  have hlt := cap.lt
  unfold tableBlockCount tableBlockSize at h
  unfold kobjectIdInvalid
  omega

structure ScomsTable where
  /-- `m_slot_blocks[block] != nullptr`. -/
  slotBlock : Nat → Bool := fun _ => false
  slot : Nat → Option Addr := fun _ => none
  /-- `m_next_blocks[block] != nullptr`. -/
  nextBlock : Nat → Bool := fun _ => false
  next : Nat → Nat := fun _ => kobjectIdInvalid
  generation : Nat → Nat := fun _ => 0
  freeHead : Nat := 0
  count : Nat := 0
  initialized : Bool := false
  /-- `s_instance != nullptr`. -/
  hasInstance : Bool := false
  type : KobjectType := .none

namespace ScomsTable

/-! ## Slots -/

def objectPtr (T : ScomsTable) (id : Nat) : Option Addr :=
  if T.slotBlock (id / tableBlockSize) then T.slot id else none

def setSlot (T : ScomsTable) (id : Nat) (p : Option Addr) : ScomsTable :=
  { T with slot := update T.slot id p }

/-- `ensure_object_block`; `mem` is the outcome of the allocation. -/
def ensureObjectBlock (T : ScomsTable) (mem : Bool) (b : Nat) : Option ScomsTable :=
  if T.slotBlock b then some T
  else if mem then
    some { T with
      slotBlock := update T.slotBlock b true
      slot := fun i => if i / tableBlockSize = b then none else T.slot i }
  else none

/-- `ensure_slot_block`; `mem` says whether both of its allocations succeed. -/
def ensureSlotBlock (T : ScomsTable) (mem : Bool) (b : Nat) : Option ScomsTable :=
  if T.nextBlock b then some T
  else if mem then
    some { T with
      nextBlock := update T.nextBlock b true
      next := fun i => if i / tableBlockSize = b then kobjectIdInvalid else T.next i
      generation := fun i => if i / tableBlockSize = b then 0 else T.generation i }
  else none

/-! ## The free list -/

def initLink (N i : Nat) : Nat := if i + 1 < N then i + 1 else kobjectIdInvalid

/-- The loop of `init` over the ids from `i` on, and whether it got to the end. -/
def initLoop (N : Nat) (mem : Nat → Bool) : Nat → Nat → ScomsTable → ScomsTable × Bool
  | 0, _, T => (T, true)
  | fuel + 1, i, T =>
    match T.ensureSlotBlock (mem (i / tableBlockSize)) (i / tableBlockSize) with
    | none => (T, false)
    | some T' =>
      initLoop N mem fuel (i + 1) { T' with next := update T'.next i (initLink N i) }

/-- `init`. When a block cannot be allocated it returns early and the table stays
uninitialized. -/
def init (N : Nat) (mem : Nat → Bool) (type : KobjectType) (T : ScomsTable) : ScomsTable :=
  match initLoop N mem N 0 { T with hasInstance := true, type := type } with
  | (T', true) => { T' with freeHead := 0, count := 0, initialized := true }
  | (T', false) => T'

def pushFree (T : ScomsTable) (id : Nat) : ScomsTable :=
  { T with next := update T.next id T.freeHead, freeHead := id }

def popFree (T : ScomsTable) : ScomsTable :=
  { T with
    freeHead := T.next T.freeHead
    next := update T.next T.freeHead kobjectIdInvalid }

/-- `alloc_at` searches the free list for the id and unlinks it. The result is `none` when the
id is not on the list; the search loop runs for at most `N + 1` rounds. -/
def unlinkFree (N : Nat) (T : ScomsTable) (id : Nat) : Except Trap (Option ScomsTable) :=
  if T.freeHead = id then
    .ok (some { T with
      freeHead := T.next id
      next := update T.next id kobjectIdInvalid })
  else
    match walk T.next kobjectIdInvalid id (N + 1) T.freeHead with
    | none => .error .diverges
    | some prev =>
      if prev = kobjectIdInvalid then .ok none
      else
        let next := update T.next prev (T.next id)
        .ok (some { T with next := update next id kobjectIdInvalid })

/-- The free ids, in the order in which `alloc` hands them out. -/
def FreeChain (T : ScomsTable) (l : List Nat) : Prop :=
  Chain T.next kobjectIdInvalid T.freeHead l

variable {T T' : ScomsTable} {l : List Nat}

theorem FreeChain.pushFree (h : T.FreeChain l) {id : Nat} (hid : id ≠ kobjectIdInvalid)
    (hfresh : id ∉ l) : (T.pushFree id).FreeChain (id :: l) :=
  push h hid hfresh

theorem FreeChain.popFree (h : T.FreeChain l) (hne : T.freeHead ≠ kobjectIdInvalid) :
    ∃ rest, l = T.freeHead :: rest ∧ T.freeHead ∉ rest ∧ T.popFree.FreeChain rest := by
  obtain ⟨rest, rfl, hrest⟩ := pop h hne
  have hnotMem := (List.nodup_cons.mp (nodup h)).1
  exact ⟨rest, rfl, hnotMem, hrest.update_of_notMem hnotMem⟩

theorem FreeChain.unlinkFree (h : T.FreeChain l) {N id : Nat} (hlen : l.length ≤ N)
    (hid : id ≠ kobjectIdInvalid) :
    (id ∉ l ∧ T.unlinkFree N id = .ok none) ∨
      (id ∈ l ∧ ∃ T', T.unlinkFree N id = .ok (some T') ∧ T'.FreeChain (l.erase id) ∧
        T' = { T with freeHead := T'.freeHead, next := T'.next }) := by
  unfold ScomsTable.unlinkFree
  by_cases hhead : T.freeHead = id
  · obtain ⟨rest, rfl, hrest⟩ := pop h (by rwa [hhead])
    have hnotMem := (List.nodup_cons.mp (nodup h)).1
    rw [if_pos hhead]
    rw [hhead] at hrest hnotMem ⊢
    refine Or.inr ⟨by simp, _, rfl, ?_, rfl⟩
    rw [List.erase_cons_head]
    exact hrest.update_of_notMem hnotMem
  · rw [if_neg hhead]
    rcases walk_of_chain h (x := id) (Nat.lt_succ_of_le hlen) with
      ⟨p, hp, hnext, hwalk⟩ | ⟨hnone, hwalk⟩
    · -- the predecessor was found: one write bypasses the id, one clears its own link
      have hpstop : p ≠ kobjectIdInvalid := fun heq => stop_notMem h (heq ▸ hp)
      have hchain := unlink h hp hnext hid
      have hmem : id ∈ l := by
        obtain ⟨l', hsuf, hsub⟩ := suffix_of_mem h hp
        cases hsuf with
        | cons _ hrest =>
          rw [hnext] at hrest
          obtain ⟨l'', rfl, -⟩ := hrest.pop hid
          exact hsub.subset (by simp)
      have hgone : id ∉ l.erase id := (nodup h).not_mem_erase
      simp only [hwalk, if_neg hpstop]
      exact Or.inr ⟨hmem, _, rfl, hchain.update_of_notMem hgone, rfl⟩
    · have hnotMem : id ∉ l := fun hmem => by
        obtain ⟨p, hp, hnext⟩ := exists_pred h hmem (Ne.symm hhead)
        exact hnone p hp hnext
      simp [hwalk, hnotMem]

/-! ## The list that `init` builds -/

/-- `T'` differs from `T` in links and generations only. -/
structure SameSlots (T T' : ScomsTable) : Prop where
  slotBlock : T'.slotBlock = T.slotBlock
  slot : T'.slot = T.slot
  initialized : T'.initialized = T.initialized
  hasInstance : T'.hasInstance = T.hasInstance

theorem ensureSlotBlock_spec {mem : Bool} {b : Nat} (h : T.ensureSlotBlock mem b = some T') :
    SameSlots T T' ∧ T'.nextBlock b = true ∧ ∀ i, T.nextBlock (i / tableBlockSize) = true →
      T'.nextBlock (i / tableBlockSize) = true ∧ T'.next i = T.next i := by
  unfold ensureSlotBlock at h
  split_ifs at h with hb hm
  · cases h
    exact ⟨⟨rfl, rfl, rfl, rfl⟩, hb, fun i hi => ⟨hi, rfl⟩⟩
  cases h
  refine ⟨⟨rfl, rfl, rfl, rfl⟩, update_self .., fun i hi => ?_⟩
  have hne : i / tableBlockSize ≠ b := fun heq => hb (heq ▸ hi)
  exact ⟨(update_of_ne hne ..).trans hi, if_neg hne⟩

/-- The loop leaves the slots alone; when it ends, every id it has passed carries its link. The
blocks of earlier ids are present, so no later round resets them. -/
theorem initLoop_spec {N : Nat} {mem : Nat → Bool} {fuel i : Nat} {done : Bool}
    (hdone : ∀ j < i, T.nextBlock (j / tableBlockSize) = true ∧ T.next j = initLink N j)
    (h : initLoop N mem fuel i T = (T', done)) :
    SameSlots T T' ∧ (done = true → ∀ j < i + fuel, T'.next j = initLink N j) := by
  induction fuel generalizing i T with
  | zero =>
    cases h
    exact ⟨⟨rfl, rfl, rfl, rfl⟩, fun _ j hj => (hdone j hj).2⟩
  | succ fuel ih =>
    rw [initLoop] at h
    split at h
    · cases h
      exact ⟨⟨rfl, rfl, rfl, rfl⟩, fun hend => by cases hend⟩
    next T₁ hT₁ =>
    obtain ⟨hsame₁, hb, hkept⟩ := ensureSlotBlock_spec hT₁
    have hdone' : ∀ j < i + 1, T₁.nextBlock (j / tableBlockSize) = true ∧
        update T₁.next i (initLink N i) j = initLink N j := by
      intro j hj
      by_cases hji : j = i
      · subst hji
        exact ⟨hb, update_self ..⟩
      · obtain ⟨hbj, hlink⟩ := hdone j (by omega)
        obtain ⟨hbj', hnext⟩ := hkept j hbj
        exact ⟨hbj', by rw [update_of_ne hji, hnext, hlink]⟩
    obtain ⟨hsame, hnext⟩ := ih hdone' h
    refine ⟨⟨hsame.1.trans hsame₁.1, hsame.2.trans hsame₁.2, hsame.3.trans hsame₁.3,
      hsame.4.trans hsame₁.4⟩, fun hend j hj => hnext hend j (by omega)⟩

theorem chain_range' {N : Nat} {next : Nat → Nat} (hN : N < kobjectIdInvalid)
    (hlink : ∀ j < N, next j = initLink N j) {n : Nat} :
    ∀ i, i + n + 1 = N → Chain next kobjectIdInvalid i (List.range' i (n + 1)) := by
  induction n with
  | zero =>
    intro i hi
    refine .cons (by omega) ?_
    rw [hlink i (by omega), initLink, if_neg (by omega)]
    exact .nil
  | succ n ih =>
    intro i hi
    refine .cons (by omega) ?_
    rw [hlink i (by omega), initLink, if_pos (by omega)]
    exact ih (i + 1) (by omega)

theorem objectPtr_init (N : Nat) (mem : Nat → Bool) (type : KobjectType) (id : Nat) :
    (T.init N mem type).objectPtr id = T.objectPtr id := by
  unfold init
  rcases hloop : initLoop N mem N 0 { T with hasInstance := true, type := type } with ⟨T₁, done⟩
  obtain ⟨hsame, -⟩ := initLoop_spec (by simp) hloop
  cases done <;> simp [objectPtr, hsame.slotBlock, hsame.slot]

theorem init_spec {cap : Capacity} {mem : Nat → Bool} {type : KobjectType}
    (hok : (T.init cap.N mem type).initialized = true) (hoff : T.initialized = false) :
    (T.init cap.N mem type).FreeChain (List.range cap.N) ∧ (T.init cap.N mem type).count = 0 ∧
      (T.init cap.N mem type).hasInstance = true := by
  unfold init at hok ⊢
  rcases hloop : initLoop cap.N mem cap.N 0 { T with hasInstance := true, type := type } with
    ⟨T₁, done⟩
  obtain ⟨hsame, hnext⟩ := initLoop_spec (by simp) hloop
  rw [hloop] at hok
  cases done with
  | true =>
    obtain ⟨n, hn⟩ : ∃ n, cap.N = n + 1 := ⟨cap.N - 1, by have := cap.pos; omega⟩
    refine ⟨?_, rfl, hsame.hasInstance⟩
    rw [FreeChain, List.range_eq_range', hn]
    exact chain_range' cap.lt_invalid (fun j hj => hnext rfl j (by omega)) 0 (by omega)
  | false =>
    -- the early return leaves `m_initialized` as it was
    exact absurd (hok.symm.trans (hsame.initialized.trans hoff)) (by decide)

end ScomsTable

/-- `T'` shows the same objects as `T`. -/
structure SameObjects (T T' : ScomsTable) : Prop where
  objectPtr : ∀ id, T'.objectPtr id = T.objectPtr id
  count : T'.count = T.count
  initialized : T'.initialized = T.initialized
  hasInstance : T'.hasInstance = T.hasInstance

theorem SameObjects.refl {T : ScomsTable} : SameObjects T T := ⟨fun _ => rfl, rfl, rfl, rfl⟩

theorem SameObjects.trans {T T' T'' : ScomsTable} (h : SameObjects T T') (h' : SameObjects T' T'') :
    SameObjects T T'' where
  objectPtr := fun id => (h'.objectPtr id).trans (h.objectPtr id)
  count := h'.count.trans h.count
  initialized := h'.initialized.trans h.initialized
  hasInstance := h'.hasInstance.trans h.hasInstance

end ZXFoundation.Scoms
