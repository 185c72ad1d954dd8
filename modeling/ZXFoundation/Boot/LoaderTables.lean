import Mathlib.Data.List.Basic
import Mathlib.Data.Nat.Bitwise

/-!
# The translation tables of the loader

`zxfl_mmu_setup_and_jump` (`arch/s390x/init/zxfl/common/mmu.c`) maps all storage twice, at its own
address and at `CONFIG_KERNEL_VIRT_OFFSET`. A table is its origin and its entries; what the loops of
the loader store into a table is its entry function. Three tables are arrays of the loader, the
others come out of a bump allocator behind the nucleus.

The loops are instances of one, `entries`, and what they do to the allocator is said once:
`Grows` holds between the pool before and after, so that the new tables are disjoint and lie in what
was handed out in between.
-/

namespace ZXFoundation.Boot.Dat

structure Table where
  origin : Nat
  length : Nat
  entry : Nat → Nat

def Table.stop (t : Table) : Nat := t.origin + 8 * t.length

def Table.Apart (t u : Table) : Prop := t.stop ≤ u.origin ∨ u.stop ≤ t.origin

/-- The static tables of the loader. It is linked at `0x20000`, and the kernel reserves the first
2 MiB for it. -/
structure LoaderImage where
  r1Table : Nat
  r2TableIdent : Nat
  r2TableHhdm : Nat
  aligned : ∀ o ∈ [r1Table, r2TableIdent, r2TableHhdm], o % 16384 = 0
  inside : ∀ o ∈ [r1Table, r2TableIdent, r2TableHhdm], 0x20000 ≤ o ∧ o + 16384 ≤ 0x200000
  distinct : [r1Table, r2TableIdent, r2TableHhdm].Nodup

def segSize : Nat := 2 ^ 20

def segTableCoverage : Nat := 2 ^ 31

def r3Coverage : Nat := 2 ^ 42

def maxPhysMap : Nat := 2 ^ 44

def virtBase : Nat := 0xFFFF800000000000

/-- The part of `zxfl_boot_protocol_t` that the loader reads, and the loader. The memory map and the
nucleus lie within `MAX_PHYS_MAP`, so that no sum wraps around. -/
structure BootProtocol where
  image : LoaderImage
  edat1 : Bool
  memTotalBytes : Nat
  memMap : List (Nat × Nat)
  kernelPhysEnd : Nat
  total : memTotalBytes ≤ maxPhysMap
  regions : ∀ r ∈ memMap, r.1 + r.2 ≤ maxPhysMap
  nucleus : kernelPhysEnd ≤ maxPhysMap

def roundUp (n align : Nat) : Nat := (n + align - 1) / align * align

def BootProtocol.mapBytes (b : BootProtocol) : Nat :=
  let top := b.memMap.foldl (fun top region => max top (region.1 + region.2)) b.memTotalBytes
  min (roundUp (max top 0x200000) segTableCoverage) maxPhysMap

/-- `pool_next`, and the tables that were made. -/
structure Pool where
  next : Nat
  tables : List Table

def Pool.alloc (P : Pool) (size align : Nat) : Nat × Pool :=
  (roundUp P.next align, { P with next := roundUp P.next align + size })

def Pool.add (P : Pool) (t : Table) : Pool := { P with tables := t :: P.tables }

/-- `n` entries from an address on, made by `f`. -/
def entries (f : Nat → Pool → Nat × Pool) (step : Nat) : Nat → Nat → Pool → List Nat × Pool
  | 0, _, P => ([], P)
  | n + 1, phys, P =>
    let made := f phys P
    let rest := entries f step n (phys + step) made.2
    (made.1 :: rest.1, rest.2)

/-- A table of 16 KiB whose first `n` entries are made by `f`, and the entry of the given type that
leads to it. -/
def tableOf (f : Nat → Pool → Nat × Pool) (step n type empty phys : Nat) (P : Pool) : Nat × Pool :=
  let tbl := P.alloc (2048 * 8) 16384
  let made := entries f step n phys tbl.2
  (tbl.1 ||| 0x3 ||| type,
    made.2.add { origin := tbl.1, length := 2048, entry := fun i => made.1.getD i empty })

namespace BootProtocol

variable (b : BootProtocol)

/-- A segment-table entry: a large page with EDAT-1, and a page table without. -/
def segEntry (phys : Nat) (P : Pool) : Nat × Pool :=
  if phys ≥ b.mapBytes then (0x20, P)
  else if b.edat1 then (phys ||| 0x400, P)
  else
    let pt := P.alloc 2048 2048
    (pt.1, pt.2.add { origin := pt.1, length := 256, entry := fun p => phys + p * 4096 })

def segTable (phys : Nat) (P : Pool) : Nat × Pool :=
  tableOf b.segEntry segSize 2048 0x4 0x20 phys P

/-- How many segment tables the slice from `phys` on takes: `num_r3e`. -/
def sliceTables (phys : Nat) : Nat :=
  let sliceEnd := min (phys + r3Coverage) b.mapBytes
  (sliceEnd - phys + segTableCoverage - 1) / segTableCoverage

def r3Table (phys : Nat) (P : Pool) : Nat × Pool :=
  tableOf b.segTable segTableCoverage (b.sliceTables phys) 0x8 (0x20 ||| 0x3 ||| 0x4) phys P

/-- `rfx_hhdm` and `rsx_hhdm`. -/
def rfxHhdm : Nat := virtBase / 2 ^ 53 % 2048

def rsxHhdm : Nat := virtBase / 2 ^ 42 % 2048

def poolBase : Nat := max (roundUp b.kernelPhysEnd 0x100000) 0x2000000

/-- The pool after the lowcore was taken from it. -/
def poolStart : Pool := ({ next := b.poolBase, tables := [] } : Pool).alloc 8192 8192 |>.2

/-- `num_r2_entries`. -/
def numR2Entries : Nat := (b.mapBytes + r3Coverage - 1) / r3Coverage

/-- The entries for the region-third tables, and the pool at the end. -/
def slices : List Nat × Pool := entries b.r3Table r3Coverage b.numR2Entries 0 b.poolStart

/-- The tables in the image of the loader. -/
def staticTables : List Table :=
  let empty := 0x20 ||| 0x3
  [{ origin := b.image.r1Table, length := 2048, entry := fun i =>
      if i = rfxHhdm then b.image.r2TableHhdm ||| 0x3 ||| 0xC
      else if i = 0 then b.image.r2TableIdent ||| 0x3 ||| 0xC else empty ||| 0xC },
    { origin := b.image.r2TableIdent, length := 2048, entry := fun i =>
      b.slices.1.getD i (empty ||| 0x8) },
    { origin := b.image.r2TableHhdm, length := 2048, entry := fun i =>
      if rsxHhdm ≤ i then b.slices.1.getD (i - rsxHhdm) (empty ||| 0x8) else empty ||| 0x8 }]

def tables : List Table := b.staticTables ++ b.slices.2.tables

def pgtblPoolEnd : Nat := roundUp b.slices.2.next 4096

def hhdmPhysCoverageEnd : Nat := max b.pgtblPoolEnd b.mapBytes

end BootProtocol

/-! ## Sizes -/

theorem le_roundUp {n align : Nat} (h : 0 < align) : n ≤ roundUp n align := by
  have hdiv := Nat.div_add_mod (n + align - 1) align
  have hmod := Nat.mod_lt (n + align - 1) h
  rw [Nat.mul_comm] at hdiv
  unfold roundUp
  omega

theorem roundUp_mod (n align : Nat) : roundUp n align % align = 0 := Nat.mul_mod_left _ _

theorem roundUp_of_mod {n align : Nat} (h : 0 < align) (hmod : n % align = 0) :
    roundUp n align = n := by
  obtain ⟨k, rfl⟩ := Nat.dvd_of_mod_eq_zero hmod
  unfold roundUp
  rw [Nat.add_sub_assoc h, Nat.mul_add_div h, Nat.div_eq_of_lt (Nat.sub_lt h Nat.one_pos),
    Nat.add_zero, Nat.mul_comm]

namespace BootProtocol

variable (b : BootProtocol)

theorem mapBytes_mod : b.mapBytes % 2 ^ 31 = 0 := by
  unfold mapBytes
  dsimp only
  have hmod := roundUp_mod
    (max (b.memMap.foldl (fun top region => max top (region.1 + region.2)) b.memTotalBytes)
      0x200000)
    segTableCoverage
  rcases Nat.le_total (roundUp _ segTableCoverage) maxPhysMap with hle | hle
  · rw [Nat.min_eq_left hle]
    exact hmod
  · rw [Nat.min_eq_right hle]
    rfl

theorem mapBytes_le : b.mapBytes ≤ 2 ^ 44 := Nat.min_le_right _ _

theorem le_mapBytes : 2 ^ 31 ≤ b.mapBytes := by
  have hpos : 0 < b.mapBytes := by
    refine Nat.lt_min.mpr ⟨?_, by decide⟩
    exact Nat.lt_of_lt_of_le (Nat.lt_of_lt_of_le (by decide) (Nat.le_max_right _ _))
      (le_roundUp (by decide))
  have hmod := b.mapBytes_mod
  omega

theorem kernelPhysEnd_le_poolBase : b.kernelPhysEnd ≤ b.poolBase :=
  Nat.le_trans (le_roundUp (by decide)) (Nat.le_max_left _ _)

theorem poolBase_mod : b.poolBase % 0x100000 = 0 := by
  unfold poolBase
  rcases Nat.le_total (roundUp b.kernelPhysEnd 0x100000) 0x2000000 with hle | hle
  · rw [Nat.max_eq_right hle]
  · rw [Nat.max_eq_left hle]
    exact roundUp_mod _ _

theorem poolStart_next : b.poolStart.next = b.poolBase + 8192 := by
  have hmod := b.poolBase_mod
  show roundUp b.poolBase 8192 + 8192 = _
  rw [roundUp_of_mod (by decide) (by omega)]

end BootProtocol

/-! ## The pool grows -/

/-- What any part of the loader does to the pool: the new tables lie apart from one another in what
was taken from it. -/
structure Grows (P P' : Pool) : Prop where
  le : P.next ≤ P'.next
  new : ∃ ts, P'.tables = ts ++ P.tables ∧ (∀ t ∈ ts, P.next ≤ t.origin ∧ t.stop ≤ P'.next) ∧
    ts.Pairwise Table.Apart

namespace Grows

variable {P P₁ P₂ : Pool}

theorem refl : Grows P P := ⟨Nat.le_refl _, [], rfl, nofun, .nil⟩

theorem trans (h₁ : Grows P P₁) (h₂ : Grows P₁ P₂) : Grows P P₂ := by
  obtain ⟨ts, hts, hin, hapart⟩ := h₁.new
  obtain ⟨us, hus, hin', hapart'⟩ := h₂.new
  refine ⟨Nat.le_trans h₁.le h₂.le, us ++ ts, by rw [hus, hts, List.append_assoc], ?_, ?_⟩
  · intro t ht
    rcases List.mem_append.mp ht with ht | ht
    · exact ⟨Nat.le_trans h₁.le (hin' t ht).1, (hin' t ht).2⟩
    · exact ⟨(hin t ht).1, Nat.le_trans (hin t ht).2 h₂.le⟩
  · refine List.pairwise_append.mpr ⟨hapart', hapart, fun u hu t ht => .inr ?_⟩
    exact Nat.le_trans (hin t ht).2 (hin' u hu).1

theorem subset (h : Grows P P₁) : P.tables ⊆ P₁.tables := by
  obtain ⟨ts, hts, -⟩ := h.new
  rw [hts]
  exact List.subset_append_right _ _

/-- A table is allocated, then others are, and in the end it is filled in. -/
theorem table {t : Table} {size align : Nat} (halign : 0 < align)
    (horigin : t.origin = (P.alloc size align).1) (hsize : 8 * t.length = size)
    (h : Grows (P.alloc size align).2 P₂) : Grows P (P₂.add t) := by
  have hle : P.next ≤ t.origin := horigin ▸ le_roundUp halign
  have hstop : t.stop = (P.alloc size align).2.next := by
    unfold Table.stop
    rw [horigin, hsize]
    rfl
  obtain ⟨ts, hts, hin, hapart⟩ := h.new
  have hlast : t.stop ≤ P₂.next := hstop ▸ h.le
  refine ⟨?_, t :: ts, congrArg (t :: ·) hts, ?_, List.pairwise_cons.mpr ⟨?_, hapart⟩⟩
  · exact Nat.le_trans hle (Nat.le_trans (Nat.le_add_right _ _) hlast)
  · rintro u (_ | ⟨_, hu⟩)
    · exact ⟨hle, hlast⟩
    · have hu := hin u hu
      rw [← hstop] at hu
      exact ⟨Nat.le_trans hle (Nat.le_trans (Nat.le_add_right _ _) hu.1), hu.2⟩
  · exact fun u hu => .inl (hstop ▸ (hin u hu).1)

end Grows

/-! ## The loop -/

section Entries

variable {f : Nat → Pool → Nat × Pool} {k : Nat}

theorem entries_grows (hf : ∀ p P, Grows P (f p P).2) (n p : Nat) (P : Pool) :
    Grows P (entries f k n p P).2 := by
  induction n generalizing p P with
  | zero => exact .refl
  | succ n ih => exact (hf p P).trans (ih _ _)

theorem entries_length (n p : Nat) (P : Pool) : (entries f k n p P).1.length = n := by
  induction n generalizing p P with
  | zero => rfl
  | succ n ih => exact congrArg (· + 1) (ih _ _)

/-- What holds of an entry when it is made, and of more tables if of some, holds of it in the
end. -/
theorem entries_spec {G : Nat → Nat → List Table → Prop} {A : Nat → Prop}
    (hmono : ∀ {p e ts ts'}, ts ⊆ ts' → G p e ts → G p e ts')
    (hgrows : ∀ p P, Grows P (f p P).2)
    (hf : ∀ p P, A p → G p (f p P).1 (f p P).2.tables) {n p : Nat} {P : Pool}
    (hpre : ∀ i < n, A (p + i * k)) {i : Nat} (hi : i < n) (d : Nat) :
    G (p + i * k) ((entries f k n p P).1.getD i d)
      (entries f k n p P).2.tables := by
  induction n generalizing p P i with
  | zero => cases hi
  | succ n ih =>
    cases i with
    | zero =>
      have hfirst := hpre 0 (Nat.zero_lt_succ n)
      rw [Nat.zero_mul, Nat.add_zero] at hfirst ⊢
      exact hmono (entries_grows hgrows n (p + k) (f p P).2).subset (hf p P hfirst)
    | succ i =>
      have hshift : ∀ j, p + k + j * k = p + (j + 1) * k := by
        intro j
        rw [Nat.add_mul, Nat.one_mul, Nat.add_assoc, Nat.add_comm k]
      have hrest : ∀ j < n, A (p + k + j * k) := by
        intro j hj
        rw [hshift]
        exact hpre (j + 1) (Nat.succ_lt_succ hj)
      have hlast := ih (P := (f p P).2) hrest (Nat.lt_of_succ_lt_succ hi)
      rw [hshift] at hlast
      exact hlast

/-- The first two entries. -/
theorem entries_first {n : Nat} (hn : 0 < n) (p : Nat) (P : Pool) (d : Nat) :
    (entries f k n p P).1.getD 0 d = (f p P).1 := by
  obtain ⟨m, rfl⟩ := Nat.exists_eq_succ_of_ne_zero (Nat.ne_of_gt hn)
  rfl

theorem entries_second {n : Nat} (hn : 1 < n) (p : Nat) (P : Pool) (d : Nat) :
    (entries f k n p P).1.getD 1 d = (f (p + k) (f p P).2).1 := by
  obtain ⟨m, rfl⟩ := Nat.exists_eq_add_of_lt hn
  exact entries_first (by omega) _ _ d

theorem first_subset_entries (hf : ∀ p P, Grows P (f p P).2) {n : Nat} (hn : 0 < n) (p : Nat)
    (P : Pool) : (f p P).2.tables ⊆ (entries f k n p P).2.tables := by
  obtain ⟨m, rfl⟩ := Nat.exists_eq_succ_of_ne_zero (Nat.ne_of_gt hn)
  exact (entries_grows hf m (p + k) (f p P).2).subset

/-- How far the loop moves the allocator, from how far one round does. -/
theorem entries_next {m : Nat → Nat} {A : Nat → Prop}
    (hsize : ∀ p, A p → m p ≤ m (p + k))
    (hf : ∀ p P, A p → P.next % 16384 = 0 →
      (f p P).2.next = P.next + 16384 * (m (p + k) - m p))
    {n p : Nat} {P : Pool} (hpre : ∀ i < n, A (p + i * k)) (hP : P.next % 16384 = 0) :
    m p ≤ m (p + n * k) ∧ (entries f k n p P).2.next =
      P.next + 16384 * (m (p + n * k) - m p) := by
  induction n generalizing p P with
  | zero => simp [entries]
  | succ n ih =>
    have hshift : ∀ j, p + k + j * k = p + (j + 1) * k := by
      intro j
      rw [Nat.add_mul, Nat.one_mul, Nat.add_assoc, Nat.add_comm k]
    have hfirst : A p := by simpa using hpre 0 (Nat.zero_lt_succ n)
    have hle := hsize p hfirst
    have hone := hf p P hfirst hP
    obtain ⟨hle', hrest⟩ := @ih (p + k) (f p P).2
      (fun j hj => hshift j ▸ hpre (j + 1) (Nat.succ_lt_succ hj)) (by omega)
    rw [hshift] at hle' hrest
    refine ⟨Nat.le_trans hle hle', ?_⟩
    show (entries f k n (p + k) (f p P).2).2.next = _
    omega

theorem tableOf_next {m : Nat → Nat} {A : Nat → Prop}
    (hsize : ∀ p, A p → m p ≤ m (p + k))
    (hf : ∀ p P, A p → P.next % 16384 = 0 →
      (f p P).2.next = P.next + 16384 * (m (p + k) - m p))
    {n type empty p : Nat} {P : Pool} (hpre : ∀ i < n, A (p + i * k))
    (hP : P.next % 16384 = 0) : (tableOf f k n type empty p P).2.next =
      P.next + 16384 * (1 + (m (p + n * k) - m p)) := by
  have halloc : (P.alloc (2048 * 8) 16384).2.next = P.next + 16384 := by
    show roundUp P.next 16384 + 2048 * 8 = _
    rw [roundUp_of_mod (by decide) hP]
  have hentries := (entries_next hsize hf hpre (P := (P.alloc (2048 * 8) 16384).2) (by omega)).2
  show (entries f k n p (P.alloc (2048 * 8) 16384).2).2.next = _
  rw [hentries, halloc]
  omega

theorem tableOf_grows (hf : ∀ p P, Grows P (f p P).2) (n type empty p : Nat) (P : Pool) :
    Grows P (tableOf f k n type empty p P).2 :=
  Grows.table (by decide) rfl rfl (entries_grows hf _ _ _)

end Entries

/-! ## The loader takes its tables apart from one another -/

namespace BootProtocol

variable (b : BootProtocol)

theorem segEntry_grows (phys : Nat) (P : Pool) : Grows P (b.segEntry phys P).2 := by
  unfold segEntry
  split_ifs
  · exact .refl
  · exact .refl
  · exact Grows.table (by decide) rfl rfl .refl

theorem segTable_grows (phys : Nat) (P : Pool) : Grows P (b.segTable phys P).2 :=
  tableOf_grows b.segEntry_grows _ _ _ _ _

theorem r3Table_grows (phys : Nat) (P : Pool) : Grows P (b.r3Table phys P).2 :=
  tableOf_grows b.segTable_grows _ _ _ _ _

theorem slices_grows : Grows b.poolStart b.slices.2 := entries_grows b.r3Table_grows _ _ _

theorem mem_poolTables {t : Table} (h : t ∈ b.slices.2.tables) :
    b.poolStart.next ≤ t.origin ∧ t.stop ≤ b.slices.2.next := by
  obtain ⟨ts, hts, hin, -⟩ := b.slices_grows.new
  refine hin t ?_
  rwa [hts, show b.poolStart.tables = [] from rfl, List.append_nil] at h

/-- Every table out of the pool lies between the nucleus and the published end of the pool. -/
theorem poolTables_inside {t : Table} (h : t ∈ b.slices.2.tables) :
    b.kernelPhysEnd ≤ t.origin ∧ t.stop ≤ b.pgtblPoolEnd := by
  have hin := b.mem_poolTables h
  have hbase := b.kernelPhysEnd_le_poolBase
  have hstart := b.poolStart_next
  exact ⟨by omega, Nat.le_trans hin.2 (le_roundUp (by decide))⟩

theorem staticTables_inside {t : Table} (h : t ∈ b.staticTables) :
    t.length = 2048 ∧ t.origin ∈ [b.image.r1Table, b.image.r2TableIdent, b.image.r2TableHhdm] := by
  simp only [staticTables, List.mem_cons, List.not_mem_nil, or_false] at h
  rcases h with rfl | rfl | rfl <;> simp

theorem apart_of_aligned {t u : Table} (ht : t.length = 2048) (hu : u.length = 2048)
    (ht' : t.origin % 16384 = 0) (hu' : u.origin % 16384 = 0) (h : t.origin ≠ u.origin) :
    t.Apart u := by
  unfold Table.Apart Table.stop
  omega

/-- **All tables are disjoint**, those of the loader and those out of the pool. -/
theorem tables_apart : b.tables.Pairwise Table.Apart := by
  refine List.pairwise_append.mpr ⟨?_, ?_, ?_⟩
  · have hdistinct := b.image.distinct
    have hmod := b.image.aligned
    simp only [List.nodup_cons, List.mem_cons, List.not_mem_nil, or_false, not_or,
      not_false_eq_true,
      List.nodup_nil, and_true, forall_eq_or_imp, forall_eq] at hdistinct hmod
    obtain ⟨h1, h2, h3⟩ := hmod
    obtain ⟨⟨h12, h13⟩, h23⟩ := hdistinct
    simp only [staticTables, List.pairwise_cons, List.mem_cons, List.not_mem_nil, or_false,
      forall_eq_or_imp, forall_eq, false_imp_iff, implies_true, List.Pairwise.nil, and_true]
    exact ⟨⟨apart_of_aligned rfl rfl h1 h2 h12, apart_of_aligned rfl rfl h1 h3 h13⟩,
      apart_of_aligned rfl rfl h2 h3 h23⟩
  · obtain ⟨ts, hts, -, hapart⟩ := b.slices_grows.new
    rwa [hts, show b.poolStart.tables = [] from rfl, List.append_nil]
  · intro t ht u hu
    obtain ⟨hlength, horigin⟩ := b.staticTables_inside ht
    have hstatic := (b.image.inside _ horigin).2
    have hpool := (b.mem_poolTables hu).1
    have hbase : 0x2000000 ≤ b.poolBase := Nat.le_max_right _ _
    have hstart := b.poolStart_next
    left
    unfold Table.stop
    omega

end BootProtocol

end ZXFoundation.Boot.Dat
