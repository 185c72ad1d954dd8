import ZXFoundation.Scoms.Generations

/-!
# Regions of an address space

`vm_try_merge` and `vm_find_gap` of `zxfoundation/memory/vm.zcomponent`, over the in-order sequence
of the tree of regions. A merge stretches one region over its neighbour and then removes the
neighbour like any other region: `rb_remove_and_free` takes its size off `total_mapped`, although
its pages stay mapped. The search for a gap subtracts the size from the end of the gap before it
compares anything, so that a size larger than the end gives an address near the top of the 64-bit
range, which passes the tests.
-/

namespace ZXFoundation.Memory.Vm

open Scoms List

def vmUserStart : Nat := 0x400000

def vmUserEnd : Nat := 0x8000000000

def sub64 (a b : Nat) : Nat := (a + 2 ^ 64 - b) % 2 ^ 64

inductive VmBacking where
  | anonymous | physical | portalShared | file | ipcShared
  deriving DecidableEq

/-- What `contract_metadata_compatible` compares. -/
structure ContractMetadata where
  storageKey : Nat := 0
  numaNode : Nat := 0
  dgpScope : Nat := 0
  dgpAccess : Nat := 0
  dgpRights : Nat := 0
  dgpGeneration : Nat := 0
  deriving DecidableEq

structure VmRegion where
  vaStart : Nat
  vaEnd : Nat
  prot : UInt32 := 0
  flags : UInt32 := 0
  backing : VmBacking := .anonymous
  physBase : Nat := 0
  fileNode : Nat := 0
  filePageOffset : Nat := 0
  storageObject : MemoryObjectRef := ⟨.none, 0, 0⟩
  grantObject : MemoryObjectRef := ⟨.none, 0, 0⟩
  contract : ContractMetadata := {}
  mappingGeneration : Nat := 0
  committed : Nat := 0
  resident : Nat := 0
  /-- The live slots of `pages`: page address and physical page. -/
  pages : List (Nat × Nat) := []

namespace VmRegion

variable (a b : VmRegion)

def size : Nat := sub64 a.vaEnd a.vaStart

def noMerge : Bool := a.flags &&& 0x100 != 0

/-- `a` ends where `b` starts, and `vm_try_merge` takes the two for one. -/
def Mergeable : Prop :=
  a.vaEnd = b.vaStart ∧ a.prot = b.prot ∧ a.flags = b.flags ∧ a.backing = b.backing ∧
    a.storageObject = b.storageObject ∧ a.grantObject = b.grantObject ∧ a.contract = b.contract ∧
    a.noMerge = false ∧ (a.backing = .physical → b.physBase = (a.physBase + a.size) % 2 ^ 64) ∧
    a.pages = [] ∧ b.pages = []

instance : Decidable (Mergeable a b) := by
  unfold Mergeable
  infer_instance

def absorb : VmRegion :=
  { a with
    vaEnd := b.vaEnd
    mappingGeneration := max a.mappingGeneration b.mappingGeneration
    committed := (a.committed + b.committed) % 2 ^ 64
    resident := (a.resident + b.resident) % 2 ^ 64 }

/-- What the region says of an address: protection, flags, backing, physical page and file page. -/
def view (va : Nat) : UInt32 × UInt32 × VmBacking × Option Nat × Option (Nat × Nat) :=
  (a.prot, a.flags, a.backing,
    if a.backing = .physical then some (a.physBase + (va - a.vaStart))
    else (a.pages.find? (·.1 = va / 4096 * 4096)).map (·.2),
    if a.backing = .file then some (a.fileNode, a.filePageOffset + (va - a.vaStart) / 4096)
      else none)

def InUser : Prop := a.vaStart < a.vaEnd ∧ a.vaEnd ≤ vmUserEnd

variable {a b}

theorem size_bounds (h : a.InUser) : 0 < a.size ∧ a.size ≤ vmUserEnd := by
  unfold InUser vmUserEnd at h
  unfold size sub64 vmUserEnd
  omega

theorem size_absorb (ha : a.InUser) (hb : b.InUser) (h : Mergeable a b) :
    (a.absorb b).size = a.size + b.size := by
  have hadj := h.1
  unfold InUser vmUserEnd at ha hb
  unfold size sub64
  simp only [absorb]
  omega

end VmRegion

open VmRegion

/-! ## Merging -/

/-- A `vm_space` with one of its regions: those below it, the nearest first, and those above it. -/
structure VmSpace where
  below : List VmRegion
  rgn : VmRegion
  above : List VmRegion
  totalMapped : Nat
  regionCount : Nat

namespace VmSpace

variable (S : VmSpace)

def regions : List VmRegion := S.below.reverse ++ S.rgn :: S.above

/-- The function from addresses to what is mapped there. -/
def lookup (va : Nat) : Option (UInt32 × UInt32 × VmBacking × Option Nat × Option (Nat × Nat)) :=
  (S.regions.find? fun r => decide (r.vaStart ≤ va ∧ va < r.vaEnd)).map (·.view va)

def sizes : Nat := (S.regions.map (·.size)).sum

/-- The counters after `rb_remove_and_free` of a region. -/
def rbRemoveAndFree (r : VmRegion) : VmSpace :=
  { S with
    totalMapped := sub64 S.totalMapped r.size
    regionCount := (S.regionCount + 2 ^ 32 - 1) % 2 ^ 32 }

def absorbNext : VmSpace :=
  match S.above with
  | next :: above =>
    if Mergeable S.rgn next then { S.rbRemoveAndFree next with rgn := S.rgn.absorb next, above }
      else S
  | [] => S

def absorbIntoPrev : VmSpace :=
  match S.below with
  | prev :: below =>
    if Mergeable prev S.rgn then { S.rbRemoveAndFree S.rgn with rgn := prev.absorb S.rgn, below }
      else S
  | [] => S

def vmTryMerge : VmSpace :=
  if S.rgn.noMerge ∨ S.rgn.pages ≠ [] then S else S.absorbNext.absorbIntoPrev

/-- One of the neighbours is merged with the region. -/
def Merges : Prop :=
  (∃ next ∈ S.above.head?, Mergeable S.rgn next) ∨ ∃ prev ∈ S.below.head?, Mergeable prev S.rgn

/-- **The merge keeps every page**, and `total_mapped` is the sum of the sizes. -/
structure Kept (S' : VmSpace) : Prop where
  pages : ∀ va, S'.lookup va = S.lookup va
  mapped : S'.totalMapped = S'.sizes

variable {S}

theorem sizes_eq :
    S.sizes = (S.below.map (·.size)).sum + (S.rgn.size + (S.above.map (·.size)).sum) := by
  simp [sizes, regions]

theorem absorbNext_of_not (h : ¬ ∃ next ∈ S.above.head?, Mergeable S.rgn next) :
    S.absorbNext = S := by
  unfold absorbNext
  split
  · rename_i next above hS
    rw [if_neg fun hm => h ⟨next, by rw [hS]; rfl, hm⟩]
  · rfl

theorem absorbIntoPrev_of_not (h : ¬ ∃ prev ∈ S.below.head?, Mergeable prev S.rgn) :
    S.absorbIntoPrev = S := by
  unfold absorbIntoPrev
  split
  · rename_i prev below hS
    rw [if_neg fun hm => h ⟨prev, by rw [hS]; rfl, hm⟩]
  · rfl

theorem not_top_of_merges (h : S.Merges) : ¬ (S.rgn.noMerge ∨ S.rgn.pages ≠ []) := by
  rcases h with ⟨next, _, hm⟩ | ⟨prev, _, hm⟩
  all_goals obtain ⟨_, _, hflags, _, _, _, _, hno, _, ha, hb⟩ := hm
  · simp [hno, ha]
  · rw [noMerge, hflags, ← noMerge] at hno
    simp [hno, hb]

/-- A merge takes something off `total_mapped`, while the sum of the sizes stays. -/
theorem vmTryMerge_of_merges (hrange : ∀ r ∈ S.regions, r.InUser) (h : S.Merges) :
    S.vmTryMerge.sizes = S.sizes ∧ S.vmTryMerge.totalMapped ≠ S.totalMapped := by
  rw [vmTryMerge, if_neg (not_top_of_merges h)]
  obtain ⟨below, rgn, above, total, count⟩ := S
  have hrgn : rgn.InUser := hrange rgn (by simp [regions])
  have hr := size_bounds hrgn
  by_cases hnext : ∃ next ∈ above.head?, Mergeable rgn next
  · obtain ⟨next, hhead, hm⟩ := hnext
    obtain ⟨above, rfl⟩ := head?_eq_some_iff.mp hhead
    have hnext : next.InUser := hrange next (by simp [regions])
    have hn := size_bounds hnext
    have hsum := size_absorb hrgn hnext hm
    simp only [absorbNext, if_pos hm]
    by_cases hprev : ∃ prev ∈ below.head?, Mergeable prev rgn
    · -- both neighbours: the size of the upper one is taken off twice
      obtain ⟨prev, hhead, hp⟩ := hprev
      obtain ⟨below, rfl⟩ := head?_eq_some_iff.mp hhead
      have hjoined : (rgn.absorb next).InUser := by
        have hadj := hm.1
        unfold InUser at hrgn hnext
        exact ⟨show rgn.vaStart < next.vaEnd by omega, hnext.2⟩
      have hsum' := size_absorb (b := rgn.absorb next) (hrange prev (by simp [regions])) hjoined hp
      have hp' : Mergeable prev (rgn.absorb next) := hp
      simp only [absorbIntoPrev, if_pos hp', sizes_eq, rbRemoveAndFree, map_cons, sum_cons, sub64]
      unfold vmUserEnd at hr hn
      omega
    · rw [absorbIntoPrev_of_not hprev]
      simp only [sizes_eq, rbRemoveAndFree, map_cons, sum_cons, sub64]
      unfold vmUserEnd at hn
      omega
  · rw [absorbNext_of_not hnext]
    obtain ⟨prev, hhead, hp⟩ := h.resolve_left hnext
    obtain ⟨below, rfl⟩ := head?_eq_some_iff.mp hhead
    have hsum := size_absorb (hrange prev (by simp [regions])) hrgn hp
    have hp' : Mergeable prev rgn := hp
    simp only [absorbIntoPrev, if_pos hp', sizes_eq, rbRemoveAndFree, map_cons, sum_cons, sub64]
    unfold vmUserEnd at hr
    omega

/-- **A call keeps the pages and the accounting** if and only if it merges nothing. -/
theorem vmTryMerge_kept_iff (hmapped : S.totalMapped = S.sizes)
    (hrange : ∀ r ∈ S.regions, r.InUser) :
    S.Kept S.vmTryMerge ↔ ¬ S.Merges := by
  constructor
  · intro hkept hm
    obtain ⟨hsizes, hne⟩ := vmTryMerge_of_merges hrange hm
    exact hne ((hkept.mapped.trans hsizes).trans hmapped.symm)
  · intro h
    rw [vmTryMerge, absorbNext_of_not fun hm => h (.inl hm),
      absorbIntoPrev_of_not fun hm => h (.inr hm), ite_self]
    exact ⟨fun _ => rfl, hmapped⟩

/-- Pages of a region that `vm_split` cut apart: they keep the storage and the grant of the
whole. -/
def page (k : Nat) : VmRegion :=
  { vaStart := vmUserStart + 4096 * k, vaEnd := vmUserStart + 4096 * (k + 1)
    storageObject := ⟨.storage, 1, 1⟩, grantObject := ⟨.grant, 2, 1⟩ }

theorem vmTryMerge_apart :
    Kept ⟨[], page 0, [page 2], 8192, 2⟩ (vmTryMerge ⟨[], page 0, [page 2], 8192, 2⟩) := by
  refine (vmTryMerge_kept_iff (by decide) fun r hr => ?_).mpr ?_
  · unfold InUser
    revert r
    decide
  · unfold Merges
    decide

/-- Of two pages that become one region only one is counted. -/
theorem vmTryMerge_uncounted :
    ¬ Kept ⟨[], page 0, [page 1], 8192, 2⟩ (vmTryMerge ⟨[], page 0, [page 1], 8192, 2⟩) := by
  intro h
  exact absurd h.mapped (by decide)

end VmSpace

/-! ## Gaps -/

/-- `VM_MMAP_BASE`, the `mmap_base` of every space. -/
def vmMmapBase : Nat := 0x4000000000

section Gaps

variable (size align : Nat)

/-- `(gap_end - size) & ~align_mask`, with a power of two. -/
def alignedStart (gapEnd : Nat) : Nat := sub64 gapEnd size / align * align

/-- The scan, over the regions from the highest on. The test inside the loop does not look at the
end of the candidate; the test after it does, in 64 bits. -/
def scan : Nat → List VmRegion → Option Nat
  | gapEnd, [] =>
    let start := alignedStart size align gapEnd
    if vmUserStart < gapEnd ∧ vmUserStart ≤ start ∧ (start + size) % 2 ^ 64 ≤ gapEnd then some start
    else none
  | gapEnd, r :: rs =>
    let start := alignedStart size align gapEnd
    if r.vaEnd < gapEnd ∧ r.vaEnd ≤ start ∧ vmUserStart ≤ start then some start
    else scan r.vaStart rs

variable (regions : List VmRegion)

/-- `vm_find_gap`. The descent leaves out the regions that start at `mmap_base` or above. -/
def vmFindGap : Option Nat :=
  if size = 0 then none else scan size align vmMmapBase (regions.filter (·.vaStart < vmMmapBase))

/-- The address `a` serves the request: an aligned range of user addresses that ends by `limit`
and meets no region. -/
def Fits (limit a : Nat) : Prop :=
  vmUserStart ≤ a ∧ a + size ≤ limit ∧ align ∣ a ∧ ∀ r ∈ regions, a + size ≤ r.vaStart ∨ r.vaEnd ≤ a

/-- **Sound and complete**: what is returned fits, and an error means that nothing does. -/
def Exact : Prop :=
  (∀ a, vmFindGap size align regions = some a → Fits size align regions vmMmapBase a) ∧
    (vmFindGap size align regions = none → ∀ a, ¬ Fits size align regions vmMmapBase a)

/-- Some gap between `VM_USER_START` and `gapEnd` ends below the size, and the candidate that
wraps around is still at or above the lower end of that gap. Below the lowest region the
candidate must also reach `2 ^ 64` with the size added. -/
def Wraps : Nat → List VmRegion → Prop
  | gapEnd, [] => gapEnd < size ∧ vmUserStart < gapEnd ∧
      vmUserStart ≤ alignedStart size align gapEnd ∧ 2 ^ 64 ≤ alignedStart size align gapEnd + size
  | gapEnd, r :: rs => (gapEnd < size ∧ r.vaEnd < gapEnd ∧
      r.vaEnd ≤ alignedStart size align gapEnd ∧ vmUserStart ≤ alignedStart size align gapEnd) ∨
      Wraps r.vaStart rs

/-- Disjoint user regions, from the highest on. -/
def Descending : Prop :=
  (∀ r ∈ regions, r.InUser) ∧ regions.Pairwise fun hi lo => lo.vaEnd ≤ hi.vaStart

variable {size align regions} {gapEnd a : Nat}

/-- A candidate that does not wrap ends inside its gap. -/
theorem alignedStart_le (hle : size ≤ gapEnd) (hend : gapEnd ≤ vmUserEnd) :
    alignedStart size align gapEnd + size ≤ gapEnd := by
  have hdiv := Nat.div_mul_le_self (sub64 gapEnd size) align
  unfold vmUserEnd at hend
  unfold sub64 at hdiv
  unfold alignedStart sub64
  omega

/-- No aligned range that ends by `gapEnd` starts above the candidate. -/
theorem le_alignedStart (halign : 0 < align) (hend : gapEnd ≤ vmUserEnd) (ha : align ∣ a)
    (hfit : a + size ≤ gapEnd) : a ≤ alignedStart size align gapEnd := by
  have hsub : sub64 gapEnd size = gapEnd - size := by
    unfold vmUserEnd at hend
    unfold sub64
    omega
  obtain ⟨m, rfl⟩ := ha
  rw [alignedStart, hsub, Nat.mul_comm align m]
  refine Nat.mul_le_mul_right _ ((Nat.le_div_iff_mul_le halign).mpr ?_)
  rw [Nat.mul_comm m align]
  omega

/-- A size larger than the end of the gap wraps around: the range would end above every user
address, and by `gapEnd` past `2 ^ 64`. -/
theorem alignedStart_wrap (halign : align ≤ 2 ^ 63) (hpos : 0 < align) (hsize : size < 2 ^ 64)
    (hwrap : gapEnd < size) :
    vmUserEnd < alignedStart size align gapEnd + size ∧
      alignedStart size align gapEnd + size ≤ 2 ^ 64 + gapEnd := by
  have hdiv := Nat.lt_div_mul_add (a := sub64 gapEnd size) hpos
  have hle := Nat.div_mul_le_self (sub64 gapEnd size) align
  unfold sub64 at hdiv hle
  unfold alignedStart sub64 vmUserEnd
  omega

namespace Descending

theorem tail {r : VmRegion} (hrs : Descending (r :: regions)) : Descending regions :=
  ⟨fun t ht => hrs.1 t (.tail _ ht), (pairwise_cons.mp hrs.2).2⟩

theorem start_le {r : VmRegion} (hrs : Descending (r :: regions)) : r.vaStart ≤ vmUserEnd :=
  (hrs.1 r (.head _)).1.le.trans (hrs.1 r (.head _)).2

/-- What starts at the end of a region or above lies above every region below it. -/
theorem end_le {r : VmRegion} (hrs : Descending (r :: regions)) (ha : r.vaEnd ≤ a) :
    ∀ t ∈ r :: regions, t.vaEnd ≤ a := by
  intro t ht
  rcases mem_cons.mp ht with rfl | ht
  · exact ha
  · exact ((pairwise_cons.mp hrs.2).1 t ht).trans ((hrs.1 r (.head _)).1.le.trans ha)

end Descending

/-- What fits below a region fits, the region taken into account, below everything above it. -/
theorem Fits.cons {r : VmRegion} (hle : r.vaStart ≤ gapEnd)
    (h : Fits size align regions r.vaStart a) : Fits size align (r :: regions) gapEnd a := by
  obtain ⟨hlow, hfit, hdvd, hfree⟩ := h
  refine ⟨hlow, hfit.trans hle, hdvd, fun t ht => ?_⟩
  rcases mem_cons.mp ht with rfl | ht
  · exact .inl hfit
  · exact hfree t ht

/-- The candidate of a gap with room fits. -/
theorem fits_alignedStart (hle : size ≤ gapEnd) (hend : gapEnd ≤ vmUserEnd)
    (hlow : vmUserStart ≤ alignedStart size align gapEnd)
    (hfree : ∀ r ∈ regions, r.vaEnd ≤ alignedStart size align gapEnd) :
    Fits size align regions gapEnd (alignedStart size align gapEnd) :=
  ⟨hlow, alignedStart_le hle hend, Nat.dvd_mul_left .., fun r hr => .inr (hfree r hr)⟩

/-- When something fits, so does what the scan returns: the ends of the gaps fall, so every gap
tried up to the one that has room ends at the size or above. -/
theorem scan_of_fits (halign : 0 < align) (hsize : 0 < size) (hrs : Descending regions)
    (hend : gapEnd ≤ vmUserEnd) (hstarts : ∀ r ∈ regions, r.vaStart ≤ gapEnd)
    (h : Fits size align regions gapEnd a) :
    ∃ b, scan size align gapEnd regions = some b ∧ Fits size align regions gapEnd b := by
  induction regions generalizing gapEnd with
  | nil =>
    obtain ⟨hlow, hfit, hdvd, -⟩ := h
    have hle := le_alignedStart halign hend hdvd hfit
    have hroom : alignedStart size align gapEnd + size ≤ gapEnd := alignedStart_le (by omega) hend
    have hmod : (alignedStart size align gapEnd + size) % 2 ^ 64 ≤ gapEnd :=
      (Nat.mod_le _ _).trans hroom
    simp only [scan]
    rw [if_pos ⟨by omega, by omega, hmod⟩]
    exact ⟨_, rfl, fits_alignedStart (by omega) hend (by omega) (forall_mem_nil _)⟩
  | cons r rs ih =>
    obtain ⟨hlow, hfit, hdvd, hfree⟩ := h
    have hle := le_alignedStart halign hend hdvd hfit
    simp only [scan]
    split
    · rename_i htest
      exact ⟨_, rfl, fits_alignedStart (by omega) hend htest.2.2 (hrs.end_le htest.2.1)⟩
    rename_i htest
    rcases hfree r (.head _) with hbelow | habove
    · obtain ⟨b, hb, hfits⟩ := ih hrs.tail hrs.start_le
        (fun t ht => (hrs.tail.1 t ht).1.le.trans ((pairwise_cons.mp hrs.2).1 t ht))
        ⟨hlow, hbelow, hdvd, fun t ht => hfree t (.tail _ ht)⟩
      exact ⟨b, hb, hfits.cons (hstarts r (.head _))⟩
    · exact absurd ⟨by omega, by omega, by omega⟩ htest

/-- When nothing fits, an address is returned exactly if a candidate wraps around. -/
theorem scan_of_not_fits (halign : align ≤ 2 ^ 63) (hpos : 0 < align) (hsize : size < 2 ^ 64)
    (hrs : Descending regions) (hend : gapEnd ≤ vmUserEnd)
    (hstarts : ∀ r ∈ regions, r.vaStart ≤ gapEnd) (h : ∀ a, ¬ Fits size align regions gapEnd a) :
    scan size align gapEnd regions ≠ none ↔ Wraps size align gapEnd regions := by
  induction regions generalizing gapEnd with
  | nil =>
    simp only [scan, Wraps, ne_eq, ite_eq_right_iff, reduceCtorEq, imp_false, not_not]
    constructor
    · intro htest
      have hwrap : gapEnd < size := by
        by_contra hle
        exact h _ (fits_alignedStart (by omega) hend htest.2.1 (forall_mem_nil _))
      have hbounds := alignedStart_wrap halign hpos hsize hwrap
      refine ⟨hwrap, htest.1, htest.2.1, ?_⟩
      by_contra hlt
      have hmod := htest.2.2
      rw [Nat.mod_eq_of_lt (by omega)] at hmod
      omega
    · rintro ⟨hwrap, hgap, hlow, hreach⟩
      have hbounds := alignedStart_wrap halign hpos hsize hwrap
      refine ⟨hgap, hlow, ?_⟩
      unfold vmUserEnd at hend
      omega
  | cons r rs ih =>
    have hrest := ih hrs.tail hrs.start_le
      (fun t ht => (hrs.tail.1 t ht).1.le.trans ((pairwise_cons.mp hrs.2).1 t ht))
      (fun a ha => h a (ha.cons (hstarts r (.head _))))
    simp only [scan, Wraps]
    split
    · rename_i htest
      refine iff_of_true (Option.some_ne_none _) (.inl ⟨?_, htest⟩)
      by_contra hle
      exact h _ (fits_alignedStart (by omega) hend htest.2.2 (hrs.end_le htest.2.1))
    · rename_i htest
      rw [hrest]
      exact ⟨.inr, fun hw => hw.resolve_left fun hhead => htest hhead.2⟩

/-- **The search is sound and complete** if and only if an address fits or no candidate that wraps
around lies above the lower end of its gap. -/
theorem vmFindGap_exact_iff {k : Nat} (hk : k < 64) (hsize : 0 < size ∧ size < 2 ^ 64)
    (hrs : Descending regions) :
    Exact size (2 ^ k) regions ↔ (∃ a, Fits size (2 ^ k) regions vmMmapBase a) ∨
      ¬ Wraps size (2 ^ k) vmMmapBase (regions.filter (·.vaStart < vmMmapBase)) := by
  have hpow : 2 ^ k ≤ 2 ^ 63 := Nat.pow_le_pow_right (by decide) (by omega)
  have hpos : 0 < 2 ^ k := Nat.two_pow_pos k
  have hfind : vmFindGap size (2 ^ k) regions =
      scan size (2 ^ k) vmMmapBase (regions.filter (·.vaStart < vmMmapBase)) := if_neg (by omega)
  have hbelow : Descending (regions.filter (·.vaStart < vmMmapBase)) :=
    ⟨fun r hr => hrs.1 r (List.mem_of_mem_filter hr), hrs.2.filter _⟩
  have hstarts : ∀ r ∈ regions.filter (·.vaStart < vmMmapBase), r.vaStart ≤ vmMmapBase :=
    fun r hr => (of_decide_eq_true (List.mem_filter.mp hr).2).le
  have hbase : vmMmapBase ≤ vmUserEnd := by decide
  -- the regions above `mmap_base` do not restrict what fits below it
  have hfits : ∀ a, Fits size (2 ^ k) (regions.filter (·.vaStart < vmMmapBase)) vmMmapBase a ↔
      Fits size (2 ^ k) regions vmMmapBase a := by
    intro a
    refine and_congr_right fun _ => and_congr_right fun hroom => and_congr_right fun _ =>
      ⟨fun hfree r hr => ?_, fun hfree r hr => hfree r (List.mem_of_mem_filter hr)⟩
    by_cases hlt : r.vaStart < vmMmapBase
    · exact hfree r (List.mem_filter.mpr ⟨hr, decide_eq_true hlt⟩)
    · exact .inl (hroom.trans (Nat.le_of_not_lt hlt))
  unfold Exact
  rw [hfind]
  by_cases hsome : ∃ a, Fits size (2 ^ k) regions vmMmapBase a
  · obtain ⟨a, ha⟩ := hsome
    obtain ⟨b, hb, hbfits⟩ := scan_of_fits hpos hsize.1 hbelow hbase hstarts ((hfits a).mpr ha)
    refine iff_of_true ⟨fun c hc => ?_, fun hnone => ?_⟩ (.inl ⟨a, ha⟩)
    · cases hb.symm.trans hc
      exact (hfits _).mp hbfits
    · cases hb.symm.trans hnone
  · have hscan := scan_of_not_fits hpow hpos hsize.2 hbelow hbase hstarts
      fun a ha => hsome ⟨a, (hfits a).mp ha⟩
    rw [← hscan, not_not, or_iff_right hsome]
    refine ⟨fun hexact => ?_, fun hnone => ⟨fun a ha => ?_, fun _ a ha => hsome ⟨a, ha⟩⟩⟩
    · exact Option.eq_none_iff_forall_ne_some.mpr fun a ha => hsome ⟨a, hexact.1 a ha⟩
    · cases hnone.symm.trans ha

/-- The page above the lowest one is free. -/
theorem vmFindGap_exact_page : Exact 4096 4096 [VmSpace.page 0] := by
  refine (vmFindGap_exact_iff (k := 12) (by decide) (by decide) ⟨fun r hr => ?_, by simp⟩).mpr
    (.inl ⟨vmUserStart + 4096, ?_⟩)
  · unfold InUser
    revert r
    decide
  · unfold Fits
    decide

/-- In an empty space almost the whole 64-bit range is found above `mmap_base`. -/
theorem vmFindGap_wraps : ¬ Exact (2 ^ 64 - 4096) 4096 [] := by
  intro h
  exact absurd (h.1 _ rfl).2.1 (by decide)

end Gaps

end ZXFoundation.Memory.Vm
