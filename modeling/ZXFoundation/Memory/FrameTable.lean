import Mathlib.Order.Nat
import ZXFoundation.Base

/-!
# Where the frame table is put

`pmm::init` up to the frame descriptor table: the scan of the boot memory map, the staged
reservations and the check on the extent of the table. The table goes behind the highest reservation
and the map is not consulted for it, so it may lie in a hole or in a region that is not usable, and
a reservation near the top of memory stops the boot although there is room below. `Suited` says for
which boot protocols neither happens.
-/

namespace ZXFoundation.Memory.Pmm

open List

def pageSize : Nat := 4096

def memMapMax : Nat := 16

def maxReservations : Nat := memMapMax + 5

/-- `ZXFL_MEM_*`; the field of the protocol may hold other values. -/
inductive MemType where
  | usable | reserved | loader | kernel | other
  deriving DecidableEq, Repr

structure MemRegion where
  base : Nat
  length : Nat
  type : MemType

/-- What `init` reads of `zxfl::protocol`, with the physical end of the bss and of the HHDM. -/
structure Protocol where
  memMapAddr : Nat
  memMap : List MemRegion
  kernelPhysStart : Nat
  kernelPhysEnd : Nat
  pgtblPoolEnd : Nat
  bssPhys : Nat
  physCoverageEnd : Nat

/-- The fatal stops up to the frame table. -/
inductive Fatal where
  | invalidMemoryMap
  | rangeOverflow (entry : Nat)
  | stagingExhausted
  | tableExtent
  deriving DecidableEq, Repr

/-- `resv_entry`; `stop` is exclusive. -/
structure ResvEntry where
  start : Nat
  stop : Nat

/-! ## Reservations -/

/-- `(n + PAGE_SIZE - 1) & ~(PAGE_SIZE - 1)` on a `u64`. -/
def pageUp (n : Nat) : Nat := (n + pageSize - 1) % 2 ^ 64 / pageSize * pageSize

def alignResv (r : ResvEntry) : ResvEntry := ⟨r.start / pageSize * pageSize, pageUp r.stop⟩

/-- One round of the insertion sort. The sorted part stands with its last entry first. -/
def insertKey (key : ResvEntry) : List ResvEntry → List ResvEntry
  | [] => [key]
  | r :: sorted => if r.start > key.start then r :: insertKey key sorted else key :: r :: sorted

/-- One round of the merge. What is put out stands with its last entry first. -/
def mergeEntry (r : ResvEntry) : List ResvEntry → List ResvEntry
  | [] => [r]
  | last :: out =>
    if r.start ≤ last.stop then { last with stop := max last.stop r.stop } :: out
    else r :: last :: out

def sortMergeReservations (resv : List ResvEntry) : List ResvEntry :=
  let sorted := (resv.foldl (fun sorted key => insertKey key sorted) []).reverse
  (sorted.foldl (fun out r => mergeEntry r out) []).reverse

def pushResv (resv : List ResvEntry) (r : ResvEntry) : Except Fatal (List ResvEntry) :=
  if resv.length < maxReservations then .ok (resv ++ [r]) else .error .stagingExhausted

def stage : List ResvEntry → List ResvEntry → Except Fatal (List ResvEntry)
  | resv, [] => .ok resv
  | resv, r :: rest => do stage (← pushResv resv (alignResv r)) rest

def topEnd (resv : List ResvEntry) : Nat :=
  resv.foldl (fun top r => if r.stop > top then r.stop else top) 0

/-! ## The boot protocol -/

/-- The first loop over the map, from entry `i`. -/
def scanMap : Nat → Nat → List MemRegion → Except Fatal Nat
  | _, maxPfn, [] => .ok maxPfn
  | i, maxPfn, r :: map =>
    if r.length ≠ 0 ∧ r.base > 2 ^ 64 - 1 - r.length then .error (.rangeOverflow i)
    else scanMap (i + 1) (max maxPfn ((r.base + r.length + pageSize - 1) % 2 ^ 64 / pageSize)) map

/-- `table_pages`, for descriptors of 16 bytes. -/
def tablePages (maxPfn : Nat) : Nat := (maxPfn * 16 + pageSize - 1) / pageSize

namespace Protocol

variable (P : Protocol)

def maxPfn : Except Fatal Nat :=
  if P.memMap.length > memMapMax ∨ P.memMap.length ≠ 0 ∧ P.memMapAddr = 0 then
    .error .invalidMemoryMap
  else scanMap 0 0 P.memMap

/-- The low memory, the loader, the kernel image and the page-table pool. -/
def fixedReservations : List ResvEntry :=
  [⟨0, 2 ^ 20⟩, ⟨2 ^ 20, 2 ^ 21⟩,
    ⟨P.kernelPhysStart, max (max P.kernelPhysEnd P.bssPhys) P.pgtblPoolEnd⟩] ++
  if P.pgtblPoolEnd > P.kernelPhysEnd then [⟨P.kernelPhysEnd, P.pgtblPoolEnd⟩] else []

/-- The entries of the map that are reserved or the loader's. -/
def mapReservations : List ResvEntry :=
  (P.memMap.filter fun r => r.type = .reserved ∨ r.type = .loader).map fun r =>
    ⟨r.base, r.base + r.length⟩

def stageReservations : Except Fatal (List ResvEntry) := do
  let resv ← stage [] P.fixedReservations
  let resv ← stage (sortMergeReservations resv) P.mapReservations
  return sortMergeReservations resv

def physRangeIsMapped (phys bytes : Nat) : Bool :=
  let stop := (phys + bytes) % 2 ^ 64
  P.physCoverageEnd ≠ 0 ∧ bytes ≠ 0 ∧ phys < P.physCoverageEnd ∧ phys ≤ stop ∧
    stop ≤ P.physCoverageEnd

def fits (maxPfn phys : Nat) : Bool :=
  let bytes := tablePages maxPfn * pageSize
  let stop := (phys + bytes) % 2 ^ 64
  phys ≤ stop ∧ stop ≤ maxPfn * pageSize ∧ P.physRangeIsMapped phys bytes

/-- `init` up to the frame table: its address and its number of pages. -/
def initTable : Except Fatal (Nat × Nat) := do
  let maxPfn ← P.maxPfn
  let resv ← P.stageReservations
  let phys := pageUp (topEnd resv)
  if P.fits maxPfn phys then return (phys, tablePages maxPfn) else .error .tableExtent

/-! ## What the placement is for -/

def reservations : List ResvEntry := P.fixedReservations ++ P.mapReservations

def Usable (page : Nat) : Prop :=
  ∃ r ∈ P.memMap, r.type = .usable ∧ r.base ≤ page ∧ page + pageSize ≤ r.base + r.length

end Protocol

def ResvEntry.Meets (r : ResvEntry) (page : Nat) : Prop := r.start < page + pageSize ∧ page < r.stop

namespace Protocol

variable (P : Protocol)

def Free (page : Nat) : Prop := P.Usable page ∧ ∀ r ∈ P.reservations, ¬ r.Meets page

/-- Some run of free pages is large enough for the table and mapped. -/
def Room : Prop :=
  ∃ maxPfn, P.maxPfn = .ok maxPfn ∧ ∃ start, pageSize ∣ start ∧
    start + tablePages maxPfn * pageSize ≤ maxPfn * pageSize ∧
    P.physRangeIsMapped start (tablePages maxPfn * pageSize) = true ∧
    ∀ i < tablePages maxPfn, P.Free (start + i * pageSize)

/-- The table is put into free memory whenever there is room. -/
structure TablePlaced : Prop where
  free : ∀ phys pages, P.initTable = .ok (phys, pages) → ∀ i < pages, P.Free (phys + i * pageSize)
  room : P.Room → P.initTable ≠ .error .tableExtent

/-- The end of the highest reservation, in whole pages. -/
def top : Nat := topEnd (P.reservations.map alignResv)

/-- Either the pages behind the highest reservation can hold the table, and they are usable and in
none of the reservations that are cut off because their end wraps; or no pages can hold it. -/
def Suited : Prop :=
  ∀ maxPfn, P.maxPfn = .ok maxPfn →
    if P.fits maxPfn P.top then ∀ i < tablePages maxPfn, P.Usable (P.top + i * pageSize) ∧
      ∀ r ∈ P.reservations, 2 ^ 64 < r.stop + pageSize → ¬ r.Meets (P.top + i * pageSize)
    else ¬ P.Room

end Protocol

/-! ## The highest end -/

def StopsBelow (resv : List ResvEntry) (b : Nat) : Prop := ∀ r ∈ resv, r.stop ≤ b

variable {resv : List ResvEntry} {b : Nat}

theorem stopsBelow_cons {r : ResvEntry} :
    StopsBelow (r :: resv) b ↔ r.stop ≤ b ∧ StopsBelow resv b := forall_mem_cons

theorem stopsBelow_append {resv' : List ResvEntry} :
    StopsBelow (resv ++ resv') b ↔ StopsBelow resv b ∧ StopsBelow resv' b := forall_mem_append

theorem stopsBelow_reverse : StopsBelow resv.reverse b ↔ StopsBelow resv b := by
  simp [StopsBelow]

theorem topEnd_le_iff : topEnd resv ≤ b ↔ StopsBelow resv b := by
  suffices h : ∀ top, resv.foldl (fun top r => if r.stop > top then r.stop else top) top ≤ b ↔
      top ≤ b ∧ StopsBelow resv b by
    simpa [topEnd] using h 0
  induction resv with
  | nil => simp [StopsBelow]
  | cons r resv ih =>
    intro top
    rw [foldl_cons, ih, stopsBelow_cons, ← and_assoc]
    refine and_congr_left' ?_
    split <;> omega

/-- A round of a loop that takes the entry `r` into a list. -/
def TakesIn (f : ResvEntry → List ResvEntry → List ResvEntry) : Prop :=
  ∀ r acc, (f r acc).length ≤ acc.length + 1 ∧
    ∀ b, StopsBelow (f r acc) b ↔ r.stop ≤ b ∧ StopsBelow acc b

theorem takesIn_insertKey : TakesIn insertKey := by
  intro key acc
  induction acc with
  | nil => exact ⟨Nat.le_refl _, fun b => stopsBelow_cons⟩
  | cons r acc ih =>
    unfold insertKey
    split
    · refine ⟨Nat.succ_le_succ ih.1, fun b => ?_⟩
      rw [stopsBelow_cons, ih.2, stopsBelow_cons]
      exact and_left_comm
    · exact ⟨Nat.le_refl _, fun b => stopsBelow_cons⟩

theorem takesIn_mergeEntry : TakesIn mergeEntry := by
  intro r acc
  cases acc with
  | nil => exact ⟨Nat.le_refl _, fun b => stopsBelow_cons⟩
  | cons last out =>
  dsimp only [mergeEntry]
  split
  · refine ⟨Nat.le_succ _, fun b => ?_⟩
    simp only [stopsBelow_cons, Nat.max_le]
    tauto
  · exact ⟨Nat.le_refl _, fun b => stopsBelow_cons⟩

theorem TakesIn.foldl {f : ResvEntry → List ResvEntry → List ResvEntry} (hf : TakesIn f)
    (resv acc : List ResvEntry) :
    (resv.foldl (fun acc r => f r acc) acc).length ≤ acc.length + resv.length ∧
      ∀ b, StopsBelow (resv.foldl (fun acc r => f r acc) acc) b ↔ StopsBelow (acc ++ resv) b := by
  induction resv generalizing acc with
  | nil => simp
  | cons r resv ih =>
    obtain ⟨hlen, hstop⟩ := ih (f r acc)
    obtain ⟨hlen', hstop'⟩ := hf r acc
    refine ⟨?_, fun b => ?_⟩
    · rw [foldl_cons, length_cons]
      omega
    · rw [foldl_cons, hstop, stopsBelow_append, hstop', stopsBelow_append, stopsBelow_cons]
      tauto

theorem sortMerge_spec (resv : List ResvEntry) :
    (sortMergeReservations resv).length ≤ resv.length ∧
      ∀ b, StopsBelow (sortMergeReservations resv) b ↔ StopsBelow resv b := by
  obtain ⟨hlen, hstop⟩ := takesIn_insertKey.foldl resv []
  obtain ⟨hlen', hstop'⟩ := takesIn_mergeEntry.foldl
    (resv.foldl (fun sorted key => insertKey key sorted) []).reverse []
  unfold sortMergeReservations
  refine ⟨?_, fun b => ?_⟩
  · simp only [length_reverse, length_nil] at hlen hlen' ⊢
    omega
  · rw [stopsBelow_reverse, hstop', nil_append, stopsBelow_reverse, hstop, nil_append]

theorem stage_eq (resv rest : List ResvEntry) (h : resv.length + rest.length ≤ maxReservations) :
    stage resv rest = .ok (resv ++ rest.map alignResv) := by
  induction rest generalizing resv with
  | nil => simp [stage]
  | cons r rest ih =>
    rw [length_cons] at h
    have hpush : pushResv resv (alignResv r) = .ok (resv ++ [alignResv r]) := if_pos (by omega)
    have hrest := ih (resv ++ [alignResv r]) (by simp; omega)
    simpa [stage, hpush, bind, Except.bind] using hrest

/-! ## The table -/

variable {P : Protocol} {maxPfn : Nat}

theorem stageReservations_eq (h : P.maxPfn = .ok maxPfn) :
    ∃ resv, P.stageReservations = .ok resv ∧ topEnd resv = P.top := by
  have hmap : P.mapReservations.length ≤ memMapMax := by
    unfold Protocol.maxPfn at h
    split at h
    · cases h
    rename_i hok
    have hfilter := length_filter_le (fun r => r.type = .reserved ∨ r.type = .loader) P.memMap
    rw [Protocol.mapReservations, length_map]
    omega
  have hfixed : P.fixedReservations.length ≤ 4 := by
    unfold Protocol.fixedReservations
    split <;> simp
  obtain ⟨hlen, hstop⟩ := sortMerge_spec (P.fixedReservations.map alignResv)
  rw [length_map] at hlen
  have hmax : maxReservations = memMapMax + 5 := rfl
  have hfirst := stage_eq [] P.fixedReservations (by simp; omega)
  have hsecond := stage_eq (sortMergeReservations (P.fixedReservations.map alignResv))
    P.mapReservations (by omega)
  refine ⟨_, (by
    simp only [Protocol.stageReservations, hfirst, hsecond, bind, Except.bind, nil_append]
    rfl), ?_⟩
  refine eq_of_forall_ge_iff fun b => ?_
  rw [Protocol.top, topEnd_le_iff, topEnd_le_iff, (sortMerge_spec _).2, stopsBelow_append, hstop,
    Protocol.reservations, map_append, stopsBelow_append]

theorem pageUp_top : pageUp P.top = P.top := by
  refine foldlRecOn (motive := fun t => pageUp t = t) _ _ rfl fun t ht r hr => ?_
  obtain ⟨r, _, rfl⟩ := mem_map.mp hr
  split
  · simp only [alignResv, pageUp, pageSize]
    omega
  · exact ht

theorem initTable_eq (h : P.maxPfn = .ok maxPfn) : P.initTable =
    if P.fits maxPfn P.top then .ok (P.top, tablePages maxPfn) else .error .tableExtent := by
  obtain ⟨resv, hstage, htop⟩ := stageReservations_eq h
  simp only [Protocol.initTable, h, hstage, bind, Except.bind, htop, pageUp_top]
  rfl

theorem stop_le_top {r : ResvEntry} (hr : r ∈ P.reservations) (hwrap : r.stop + pageSize ≤ 2 ^ 64) :
    r.stop ≤ P.top := by
  have htop := topEnd_le_iff.mp (Nat.le_refl P.top) (alignResv r) (mem_map_of_mem hr)
  refine le_trans ?_ htop
  simp only [alignResv, pageUp, pageSize] at hwrap ⊢
  omega

theorem tablePlaced_iff (P : Protocol) : P.TablePlaced ↔ P.Suited := by
  constructor
  · intro h maxPfn hmax
    have heq := initTable_eq hmax
    split
    · rename_i hfits
      rw [if_pos hfits] at heq
      intro i hi
      have hfree := h.free _ _ heq i hi
      exact ⟨hfree.1, fun r hr _ => hfree.2 r hr⟩
    · rename_i hfits
      rw [if_neg hfits] at heq
      exact fun hroom => h.room hroom heq
  · intro h
    refine ⟨fun phys pages hinit i hi => ?_, fun hroom hinit => ?_⟩
    · cases hmax : P.maxPfn with
      | error e => simp [Protocol.initTable, hmax, bind, Except.bind] at hinit
      | ok maxPfn =>
      have hsuited := h maxPfn hmax
      rw [initTable_eq hmax] at hinit
      split at hinit
      · rename_i hfits
        cases hinit
        rw [if_pos hfits] at hsuited
        refine ⟨(hsuited i hi).1, fun r hr hmeets => ?_⟩
        by_cases hwrap : 2 ^ 64 < r.stop + pageSize
        · exact (hsuited i hi).2 r hr hwrap hmeets
        · have hstop := stop_le_top hr (Nat.le_of_not_lt hwrap)
          have hmeets := hmeets.2
          omega
      · cases hinit
    · obtain ⟨maxPfn, hmax, _⟩ := id hroom
      have hsuited := h maxPfn hmax
      rw [initTable_eq hmax] at hinit
      split at hinit
      · cases hinit
      · rename_i hfits
        rw [if_neg hfits] at hsuited
        exact hsuited hroom

/-- A kernel image in the third megabyte, and the HHDM over the first 2 GiB. -/
def bootWith (memMap : List MemRegion) : Protocol where
  memMapAddr := 0x1000
  memMap := memMap
  kernelPhysStart := 0x200000
  kernelPhysEnd := 0x280000
  pgtblPoolEnd := 0x300000
  bssPhys := 0x290000
  physCoverageEnd := 0x80000000

/-- A reserved megabyte below a hole: the table lies in the hole. A reserved megabyte at the end of
memory: the boot stops with twelve free megabytes. -/
theorem tablePlaced_fails :
    ¬ (bootWith [⟨0, 0x1000000, .usable⟩, ⟨0x1000000, 0x100000, .reserved⟩,
        ⟨0x2000000, 0x1000000, .usable⟩]).TablePlaced ∧
      ¬ (bootWith [⟨0, 0xF00000, .usable⟩, ⟨0xF00000, 0x100000, .reserved⟩]).TablePlaced := by
  constructor
  · intro h
    have hplaced := h.free 0x1100000 48 (by decide +kernel) 0 (by decide)
    revert hplaced
    simp [Protocol.Free, Protocol.Usable, bootWith, pageSize]
  · intro h
    refine h.room ⟨0x1000, by decide +kernel, 0x300000, by decide, by decide, by decide, ?_⟩
      (by decide +kernel)
    intro i hi
    replace hi : i < 16 := hi
    simp [Protocol.Free, Protocol.Usable, Protocol.reservations, Protocol.fixedReservations,
      Protocol.mapReservations, ResvEntry.Meets, bootWith, pageSize]
    omega

end ZXFoundation.Memory.Pmm
