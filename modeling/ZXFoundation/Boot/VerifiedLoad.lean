import Mathlib.Algebra.Group.Nat.Defs
import Mathlib.Data.List.Basic

/-!
# Loading and verifying the nucleus

`zxfl_load_elf64` (`arch/s390x/init/zxfl/common/elfload.c`), `zxvl_verify_nucleus_checksums`
(`zxvl_verify.c`) and the part of `tools/zxsign.c` that fills the checksum table.

Storage and file are functions from addresses and offsets to bytes. The digest function and the code
of the image are parameters: nothing below depends on what they compute. A dataset is its bytes in
the order in which `offset_to_cchhr` numbers them, with the blocks that can be read.
-/

namespace ZXFoundation.Boot.Zxvl

open List

abbrev Mem := UInt64 → UInt8

def virtOffset : UInt64 := 0xFFFF800000000000

def blockSize : Nat := 4096

def Mem.bytesAt (m : Mem) (a : UInt64) (k : Nat) : UInt8 := m (a + UInt64.ofNat k)

def Mem.put (m : Mem) (dest : UInt64) (n : Nat) (bytes : Nat → UInt8) : Mem :=
  fun a => if (a - dest).toNat < n then bytes (a - dest).toNat else m a

/-- The number in the `n` bytes from `off` on, highest byte first. -/
def be (bytes : Nat → UInt8) (off n : Nat) : Nat :=
  (List.range n).foldl (fun v i => v * 256 + (bytes (off + i)).toNat) 0

/-- Byte `i` of a number that is stored in `n` bytes. -/
def beByte (n v i : Nat) : UInt8 := UInt8.ofNat (v / 256 ^ (n - 1 - i))

/-! ## Headers -/

/-- The fields of `elf64_phdr_t` that are used. -/
structure Phdr where
  type : Nat
  flags : Nat
  offset : UInt64
  paddr : UInt64
  filesz : Nat
  memsz : Nat
  deriving DecidableEq, Repr

def Phdr.read (bytes : Nat → UInt8) (off : Nat) : Phdr where
  type := be bytes off 4
  flags := be bytes (off + 4) 4
  offset := UInt64.ofNat (be bytes (off + 8) 8)
  paddr := UInt64.ofNat (be bytes (off + 24) 8)
  filesz := be bytes (off + 32) 8
  memsz := be bytes (off + 40) 8

def Phdr.phys (ph : Phdr) : UInt64 := ph.paddr - virtOffset

/-- `PT_LOAD`. -/
def Phdr.isLoad (ph : Phdr) : Bool := ph.type == 1

def pflagsHs : Nat := 0x00400005
def pflagsEntry : Nat := 0x00800005
def pflagsLock : Nat := 0x00100006
def pflagsCksum : Nat := 0x00200004

/-! ## `zxfl_load_elf64` -/

structure Dataset where
  content : Nat → UInt8
  /-- `dasd_read_record` succeeds for the block. -/
  readable : Nat → Bool
  /-- What lies behind `io_block` in the loader. -/
  stray : Nat → UInt8

namespace Dataset

variable (D : Dataset)

/-- `io_block` with the block in it. -/
def ioBlock (block k : Nat) : UInt8 :=
  let k := k % 2 ^ 64
  if k < blockSize then D.content (block * blockSize + k) else D.stray k

/-- The program headers: the table is read out of one block, also where it goes beyond it. -/
def readPhdrs (phoff phnum : Nat) : Option (List Phdr) :=
  if (phoff + phnum * 56) % 2 ^ 64 ≤ blockSize then
    some ((List.range phnum).map fun i => Phdr.read (D.ioBlock 0) (phoff + 56 * i))
  else if D.readable (phoff / blockSize) then
    some ((List.range phnum).map fun i =>
      Phdr.read (D.ioBlock (phoff / blockSize)) (phoff % blockSize + 56 * i))
  else none

/-- The loop of `load_segment`. -/
def copy (off dest : UInt64) (remaining : Nat) (m : Mem) : Option Mem :=
  if remaining = 0 then some m
  else if D.readable (off.toNat / blockSize) then
    let n := min remaining (blockSize - off.toNat % blockSize)
    copy (off + UInt64.ofNat n) (dest + UInt64.ofNat n) (remaining - n)
      (m.put dest n fun k => D.content (off.toNat + k))
  else none
termination_by remaining
decreasing_by
  have hlt : off.toNat % blockSize < blockSize := Nat.mod_lt _ (by decide)
  omega

/-- `load_segment`. The length operand of `mvcl` has 24 bits. -/
def loadSegment (m : Mem) (ph : Phdr) : Option Mem :=
  if ph.memsz = 0 then some m
  else D.copy ph.offset ph.phys ph.filesz (m.put ph.phys (ph.memsz % 2 ^ 24) fun _ => 0)

end Dataset

def loads (phdrs : List Phdr) : List Phdr := phdrs.filter fun ph => ph.isLoad && ph.memsz != 0

/-- The physical address of the last segment with these flags, or 0. -/
def special (phdrs : List Phdr) (flags : Nat) : UInt64 :=
  (phdrs.filter fun ph => ph.isLoad && ph.flags == flags).foldl (fun _ ph => ph.phys) 0

structure Loaded where
  phdrs : List Phdr
  mem : Mem
  entry : UInt64
  lockPhys : UInt64
  cksumTable : UInt64
  loadBase : UInt64
  loadSize : UInt64
  /-- The addresses in the image that were called. -/
  called : List UInt64

/-- The code of the image: entered at an address with an argument, it returns a value and may
write. -/
abbrev Image := UInt64 → UInt64 → Mem → Option (UInt64 × Mem)

def lockHolds (m : Mem) (lock : UInt64) : Bool :=
  be (m.bytesAt lock) 4 4 == 0x5A58464C &&
    UInt64.ofNat (be (m.bytesAt lock) 0 4 * 2 ^ 32 + be (m.bytesAt lock) 0x1000 4) ^^^
      0x3C1E0F8704B2D596 == 0xF0A5C3B2E1D49687

/-- `elf64_check_magic` and the other checks of the header. -/
def headerOk (hdr : Nat → UInt8) : Bool :=
  be hdr 0 5 == 0x7F454C4602 && be hdr 18 2 == 22 && be hdr 56 2 != 0 && be hdr 16 2 == 2 &&
    virtOffset.toNat ≤ be hdr 24 8 && be hdr 56 2 ≤ 16

/-- `zxfl_load_elf64`. -/
def load (D : Dataset) (stub : Image) (nonce : UInt64) (m : Mem) : Option Loaded :=
  let hdr := D.ioBlock 0
  if D.readable 0 && headerOk hdr then
    (D.readPhdrs (be hdr 32 8) (be hdr 56 2)).bind fun phdrs =>
    ((loads phdrs).foldlM D.loadSegment m).bind fun m =>
    let hs := special phdrs pflagsHs
    let entry := special phdrs pflagsEntry
    let lock := special phdrs pflagsLock
    let cksum := special phdrs pflagsCksum
    if hs = 0 ∨ entry = 0 ∨ lock = 0 ∨ cksum = 0 then none
    else if lockHolds m lock then
      (stub hs (0xA5F0C3E1B2D49687 ^^^ nonce) m).bind fun (answer, m) =>
      if answer = ((nonce <<< 17) ||| (nonce >>> 47)) + 0xDEADBEEF0BADF00D then
        let base := (loads phdrs).foldl (fun a ph => min a ph.phys) 0xFFFFFFFFFFFFFFFF
        let top := (loads phdrs).foldl (fun a ph => max a (ph.phys + UInt64.ofNat ph.memsz)) 0
        some { phdrs := phdrs, mem := m, entry := entry + virtOffset, lockPhys := lock,
               cksumTable := cksum, loadBase := base, loadSize := top - base, called := [hs] }
      else none
    else none
  else none

/-! ## `zxvl_verify_nucleus_checksums` -/

structure Entry where
  start : UInt64
  size : Nat
  digest : Nat → UInt8

def cksumMagic : Nat := 0x5A58564C

def maxEntries : Nat := 16

/-- Entry `i` of the table in these bytes. -/
def Entry.read (table : Nat → UInt8) (i : Nat) : Entry where
  start := UInt64.ofNat (be table (16 + 48 * i) 8)
  size := be table (24 + 48 * i) 8
  digest := fun k => table (32 + 48 * i + k)

section Verify

variable (sha : List UInt8 → Nat → UInt8)

/-- The digest of the range is the one in the table. -/
def Entry.agrees (m : Mem) (e : Entry) : Bool :=
  let actual := sha ((List.range e.size).map (m.bytesAt e.start))
  (List.range 32).all fun i => actual i == e.digest i

/-- `zxvl_verify_nucleus_checksums`: the entries that were compared, or nothing after a panic. -/
def verify (m : Mem) (cksumTable : UInt64) : Option (List Entry) :=
  let table := m.bytesAt cksumTable
  let count := be table 12 4
  if be table 0 4 ≠ cksumMagic then none
  else if be table 4 4 = 0 then none
  else if be table 4 4 > 1 then none
  else if count = 0 ∨ count > maxEntries then none
  else if be table 8 4 ≠ 1 then none
  else
    let checked := ((List.range count).map (Entry.read table)).filter fun e => e.size != 0
    if checked.all (Entry.agrees sha m) then some checked else none

/-! ## `zxsign` -/

/-- The program headers as the signer reads them. -/
def signerPhdrs (content : Nat → UInt8) : List Phdr :=
  (List.range (be content 56 2)).map fun i =>
    Phdr.read content (be content 32 8 + be content 54 2 * i)

/-- The segments that are hashed. -/
def collect (phdrs : List Phdr) : List Phdr :=
  (phdrs.filter fun ph => ph.isLoad && ph.filesz != 0 && ph.flags != pflagsCksum).take maxEntries

/-- The entries of the table. `fseek` to an offset beyond `LONG_MAX` leaves the position where it
was. -/
def hashSegs (content : Nat → UInt8) (size : Nat) : Nat → List Phdr → Option (List Entry)
  | _, [] => some []
  | pos, ph :: rest =>
    let start := if ph.offset.toNat < 2 ^ 63 then ph.offset.toNat else pos
    if start + ph.filesz ≤ size then
      (hashSegs content size (start + ph.filesz) rest).map fun entries =>
        { start := if virtOffset ≤ ph.paddr then ph.paddr - virtOffset else ph.paddr
          size := ph.filesz
          digest := sha ((List.range ph.filesz).map fun k => content (start + k)) } :: entries
    else none

def tableSize : Nat := 784

/-- The table as `zxsign` writes it. -/
def tableByte (entries : List Entry) (k : Nat) : UInt8 :=
  if k < 4 then beByte 4 cksumMagic k
  else if k < 8 then beByte 4 1 (k - 4)
  else if k < 12 then beByte 4 1 (k - 8)
  else if k < 16 then beByte 4 entries.length (k - 12)
  else
    match entries[(k - 16) / 48]? with
    | none => 0
    | some e =>
      let r := (k - 16) % 48
      if r < 8 then beByte 8 e.start.toNat r
      else if r < 16 then beByte 8 e.size (r - 8)
      else e.digest (r - 16)

/-- `main` of `zxsign`, for a file with the section `.zxvl_checksums` at this offset. -/
def zxsign (content : Nat → UInt8) (size cksumOff : Nat) : Option (Nat → UInt8) :=
  let phdrs := signerPhdrs content
  let pos := be content 32 8 + be content 54 2 * be content 56 2
  if collect phdrs = [] then none
  else
    (hashSegs sha content size pos (collect phdrs)).map fun entries k =>
      if cksumOff ≤ k ∧ k < cksumOff + tableSize then tableByte entries (k - cksumOff)
        else content k

end Verify

/-!
## What verification covers

The loader calls the handshake stub of the image before it verifies anything, and what is verified
is what the table lists. For a file from `zxsign` the table lists every loaded segment, and
verification succeeds, if signer and loader read the same headers and no segment is loaded over the
bytes of an earlier one.
-/

variable {sha : List UInt8 → Nat → UInt8} {D : Dataset} {m m' : Mem}

/-! ## Bytes -/

variable {bytes : Nat → UInt8}

theorem be_succ {off n : Nat} :
    be bytes off (n + 1) = be bytes off n * 256 + (bytes (off + n)).toNat := by
  simp only [be, range_succ, foldl_append, foldl_cons, foldl_nil]

variable {off n size : Nat} {L : Loaded} {content : Nat → UInt8} {off' : Nat}

theorem be_congr {b b' : Nat → UInt8} (h : ∀ i < n, b (off + i) = b' (off' + i)) :
    be b off n = be b' off' n := by
  induction n with
  | zero => rfl
  | succ n ih =>
    rw [be_succ, be_succ, ih fun i hi => h i (Nat.lt_succ_of_lt hi), h n (Nat.lt_succ_self n)]

theorem be_lt : be bytes off n < 256 ^ n := by
  induction n with
  | zero => exact Nat.one_pos
  | succ n ih =>
    rw [be_succ, Nat.pow_succ]
    have hlt := (bytes (off + n)).toNat_lt
    omega

theorem be_beByte {v : Nat} (h : ∀ i < n, bytes (off + i) = beByte n v i) (hv : v < 256 ^ n) :
    be bytes off n = v := by
  -- the first `k` bytes hold the number without its last `n - k` bytes
  have hprefix : ∀ k ≤ n, be bytes off k = v / 256 ^ (n - k) := by
    intro k
    induction k with
    | zero =>
      intro _
      exact (Nat.div_eq_of_lt hv).symm
    | succ k ih =>
      intro hk
      rw [be_succ, ih (by omega), h k (by omega), beByte]
      have hexp : n - k = (n - 1 - k) + 1 := by omega
      have hdiv : v / 256 ^ (n - k) = v / 256 ^ (n - 1 - k) / 256 := by
        rw [hexp, Nat.pow_succ, Nat.div_div_eq_div_mul]
      rw [hdiv, UInt8.toNat_ofNat', show n - (k + 1) = n - 1 - k by omega]
      omega
  have hall := hprefix n (Nat.le_refl n)
  rwa [Nat.sub_self, Nat.pow_zero, Nat.div_one] at hall

theorem Phdr.read_congr {b b' : Nat → UInt8} (h : ∀ i < 56, b (off + i) = b' (off' + i)) :
    Phdr.read b off = Phdr.read b' off' := by
  have hfield : ∀ k n, k + n ≤ 56 → be b (off + k) n = be b' (off' + k) n := fun k n hk =>
    be_congr fun i hi => by
      rw [Nat.add_assoc, Nat.add_assoc]
      exact h (k + i) (by omega)
  have htype : be b off 4 = be b' off' 4 := hfield 0 4 (by decide)
  simp only [Phdr.read, htype,
    hfield 4 4 (by decide), hfield 8 8 (by decide), hfield 24 8 (by decide),
    hfield 32 8 (by decide), hfield 40 8 (by decide)]

/-! ## The loop of `load_segment` -/

theorem toNat_sub_add (a dest : UInt64) (hn : n ≤ 2 ^ 64) :
    (a - (dest + UInt64.ofNat n)).toNat = ((a - dest).toNat + (2 ^ 64 - n)) % 2 ^ 64 := by
  rw [UInt64.toNat_sub, UInt64.toNat_sub, UInt64.toNat_add, UInt64.toNat_ofNat']
  have hdest := dest.toNat_lt
  omega

theorem Mem.put_put (m : Mem) (dest : UInt64) {k : Nat} {f : Nat → UInt8} (hn : n + k ≤ 2 ^ 64) :
    (m.put dest n f).put (dest + UInt64.ofNat n) k (fun i => f (n + i)) = m.put dest (n + k) f := by
  funext a
  have hlt := (a - dest).toNat_lt
  have hshift := toNat_sub_add a dest (n := n) (by omega)
  unfold Mem.put
  by_cases hin : (a - dest).toNat < n
  · have hout : ¬ (a - (dest + UInt64.ofNat n)).toNat < k := by omega
    rw [if_neg hout, if_pos hin, if_pos (by omega)]
  have heq : (a - (dest + UInt64.ofNat n)).toNat = (a - dest).toNat - n := by omega
  rw [heq, if_neg hin]
  by_cases hk : (a - dest).toNat - n < k
  · rw [if_pos hk, if_pos (by omega)]
    exact congrArg f (Nat.add_sub_cancel' (by omega))
  · rw [if_neg hk, if_neg (by omega)]

theorem Mem.put_congr {dest : UInt64} {f g : Nat → UInt8} (h : ∀ k < n, f k = g k) :
    m.put dest n f = m.put dest n g := by
  funext a
  unfold Mem.put
  split_ifs with ha
  · exact h _ ha
  · rfl

theorem Dataset.copy_eq {off dest : UInt64} (hn : n ≤ 2 ^ 64)
    (hoff : off.toNat + n ≤ 2 ^ 64) (h : D.copy off dest n m = some m') :
    m' = m.put dest n fun k => D.content (off.toNat + k) := by
  induction n using Nat.strongRecOn generalizing off dest m with
  | _ n ih =>
    rw [Dataset.copy] at h
    split_ifs at h with hzero hread
    · cases h
      subst hzero
      funext a
      simp [Mem.put]
    · dsimp only at h
      generalize hlen : min n (blockSize - off.toNat % blockSize) = len at h
      have hpos : 0 < blockSize - off.toNat % blockSize :=
        Nat.sub_pos_of_lt (Nat.mod_lt _ (by decide))
      have hle : len ≤ n ∧ 0 < len := by omega
      by_cases hlast : n - len = 0
      · rw [hlast, Dataset.copy, if_pos rfl] at h
        cases h
        rw [show len = n by omega]
      have hnext : (off + UInt64.ofNat len).toNat = off.toNat + len := by
        rw [UInt64.toNat_add, UInt64.toNat_ofNat']
        omega
      rw [ih (n - len) (by omega) (by omega) (by omega) h, hnext]
      have hjoin := m.put_put dest (n := len) (k := n - len)
        (f := fun k => D.content (off.toNat + k)) (by omega)
      rw [Nat.add_sub_cancel' hle.1] at hjoin
      rw [← hjoin]
      exact Mem.put_congr fun k _ => by rw [Nat.add_assoc]

/-! ## Segments in storage -/

/-- The addresses that loading the segment may write. -/
def Phdr.extent (ph : Phdr) : Nat := max ph.filesz (ph.memsz % 2 ^ 24)

/-- Loading the second segment does not touch what was copied for the first. -/
def Apart (p q : Phdr) : Prop := ∀ k < p.filesz, q.extent ≤ (p.phys + UInt64.ofNat k - q.phys).toNat

instance (p q : Phdr) : Decidable (Apart p q) := by unfold Apart; infer_instance

theorem toNat_add_sub_self {a : UInt64} {k : Nat} (hk : k < 2 ^ 64) :
    (a + UInt64.ofNat k - a).toNat = k := by
  rw [UInt64.toNat_sub, UInt64.toNat_add, UInt64.toNat_ofNat']
  have ha := a.toNat_lt
  omega

theorem loadSegment_spec {ph : Phdr} (hmem : ph.memsz ≠ 0) (hfile : ph.filesz < 2 ^ 64)
    (hoff : ph.offset.toNat + ph.filesz ≤ 2 ^ 64) (h : D.loadSegment m ph = some m') :
    (∀ k < ph.filesz, m'.bytesAt ph.phys k = D.content (ph.offset.toNat + k)) ∧
      ∀ a, ph.extent ≤ (a - ph.phys).toNat → m' a = m a := by
  unfold Dataset.loadSegment at h
  rw [if_neg hmem] at h
  rw [Dataset.copy_eq (Nat.le_of_lt hfile) hoff h]
  constructor
  · intro k hk
    unfold Mem.bytesAt Mem.put
    rw [toNat_add_sub_self (by omega), if_pos hk]
  intro a ha
  unfold Phdr.extent at ha
  unfold Mem.put
  rw [if_neg (by omega), if_neg (by omega)]

variable {phdrs : List Phdr}

theorem loadSegments_spec (hmem : ∀ ph ∈ phdrs, ph.memsz ≠ 0 ∧ ph.filesz < 2 ^ 64 ∧
    ph.offset.toNat + ph.filesz ≤ 2 ^ 64) (hapart : phdrs.Pairwise Apart)
    (h : phdrs.foldlM D.loadSegment m = some m') :
    (∀ ph ∈ phdrs, ∀ k < ph.filesz, m'.bytesAt ph.phys k = D.content (ph.offset.toNat + k)) ∧
      ∀ a, (∀ ph ∈ phdrs, ph.extent ≤ (a - ph.phys).toNat) → m' a = m a := by
  induction phdrs generalizing m with
  | nil =>
    cases h
    exact ⟨fun ph hph => (nomatch hph), fun _ _ => rfl⟩
  | cons p rest ih =>
    rw [foldlM_cons] at h
    obtain ⟨m₁, hfirst, hrest⟩ := Option.bind_eq_some_iff.mp h
    obtain ⟨hp, hlater⟩ := pairwise_cons.mp hapart
    obtain ⟨hm, hfile, hoff⟩ := hmem p mem_cons_self
    obtain ⟨hcopied, houtside⟩ := loadSegment_spec hm hfile hoff hfirst
    obtain ⟨hall, hkeep⟩ := ih (fun ph hph => hmem ph (mem_cons_of_mem _ hph)) hlater hrest
    refine ⟨fun ph hph k hk => ?_, fun a ha => ?_⟩
    · rcases mem_cons.mp hph with rfl | hph
      · rw [← hcopied k hk]
        exact hkeep _ fun q hq => hp q hq k hk
      · exact hall ph hph k hk
    · rw [hkeep a fun ph hph => ha ph (mem_cons_of_mem _ hph)]
      exact houtside a (ha p mem_cons_self)

theorem special_mem {flags : Nat} (h : special phdrs flags ≠ 0) :
    ∃ ph ∈ phdrs, ph.isLoad = true ∧ ph.flags = flags ∧ ph.phys = special phdrs flags := by
  have hlast : ∀ (l : List Phdr) (a : UInt64), l.foldl (fun _ ph => ph.phys) a = a ∨
      ∃ ph ∈ l, ph.phys = l.foldl (fun _ ph => ph.phys) a := by
    intro l
    induction l with
    | nil => exact fun _ => .inl rfl
    | cons p rest ih =>
      intro a
      refine .inr ?_
      rcases ih p.phys with heq | ⟨ph, hph, heq⟩
      · exact ⟨p, mem_cons_self, heq.symm⟩
      · exact ⟨ph, mem_cons_of_mem _ hph, heq⟩
  rcases hlast (phdrs.filter fun ph => ph.isLoad && ph.flags == flags) 0 with heq | ⟨ph, hph, heq⟩
  · exact absurd heq h
  · rw [mem_filter, Bool.and_eq_true, beq_iff_eq] at hph
    exact ⟨ph, hph.1, hph.2.1, hph.2.2, heq⟩

variable {nonce : UInt64} {stub : Image}

theorem load_some (h : load D stub nonce m = some L) :
    ∃ m₁ answer, D.readPhdrs (be (D.ioBlock 0) 32 8) (be (D.ioBlock 0) 56 2) = some L.phdrs ∧
      (loads L.phdrs).foldlM D.loadSegment m = some m₁ ∧
      stub (special L.phdrs pflagsHs) (0xA5F0C3E1B2D49687 ^^^ nonce) m₁ = some (answer, L.mem) ∧
      L.cksumTable = special L.phdrs pflagsCksum ∧ L.cksumTable ≠ 0 ∧
      L.called = [special L.phdrs pflagsHs] := by
  unfold load at h
  dsimp only at h
  split_ifs at h
  obtain ⟨phdrs, hphdrs, h⟩ := Option.bind_eq_some_iff.mp h
  obtain ⟨m₁, hloaded, h⟩ := Option.bind_eq_some_iff.mp h
  split_ifs at h with hmissing hlock
  obtain ⟨⟨answer, m₂⟩, hstub, h⟩ := Option.bind_eq_some_iff.mp h
  dsimp only at h
  split_ifs at h
  cases h
  exact ⟨m₁, answer, hphdrs, hloaded, hstub, rfl, fun hzero => hmissing (.inr (.inr (.inr hzero))),
    rfl⟩

/-! ## Coverage -/

/-- The byte was copied from the file for a segment other than the checksum segment. -/
def Loaded.Copied (L : Loaded) (a : UInt64) : Prop :=
  ∃ ph ∈ loads L.phdrs, ph.flags ≠ pflagsCksum ∧ (a - ph.phys).toNat < ph.filesz

def Entry.Contains (e : Entry) (a : UInt64) : Prop := (a - e.start).toNat < e.size

/-- Every copied byte is in a range whose digest was compared, and was found equal. -/
def Covered (sha : List UInt8 → Nat → UInt8) (L : Loaded) (compared : List Entry) : Prop :=
  ∀ a, L.Copied a → ∃ e ∈ compared, e.Contains a ∧ e.agrees sha L.mem = true

/-- Every copied byte is in a range of the table. -/
def Loaded.Listed (L : Loaded) : Prop :=
  let table := L.mem.bytesAt L.cksumTable
  ∀ a, L.Copied a → ∃ i < be table 12 4, (Entry.read table i).Contains a

variable {compared : List Entry}

open Entry

theorem verify_some {cksumTable : UInt64} (h : verify sha m cksumTable = some compared) :
    compared = ((range (be (m.bytesAt cksumTable) 12 4)).map
      (read (m.bytesAt cksumTable))).filter (fun e => e.size != 0) ∧
    ∀ e ∈ compared, e.agrees sha m = true := by
  unfold verify at h
  dsimp only at h
  split_ifs at h with _ _ _ _ _ hall
  cases h
  exact ⟨rfl, all_eq_true.mp hall⟩

/-- Verification looks at what the table lists, and at nothing else. -/
theorem covered_iff_listed (h : verify sha L.mem L.cksumTable = some compared) :
    Covered sha L compared ↔ L.Listed := by
  obtain ⟨hcompared, hagree⟩ := verify_some h
  constructor
  · intro hcovered a ha
    obtain ⟨e, he, hin, -⟩ := hcovered a ha
    rw [hcompared, mem_filter, mem_map] at he
    obtain ⟨⟨i, hi, rfl⟩, -⟩ := he
    exact ⟨i, mem_range.mp hi, hin⟩
  · intro hlisted a ha
    obtain ⟨i, hi, hin⟩ := hlisted a ha
    have hmem : read (L.mem.bytesAt L.cksumTable) i ∈ compared := by
      rw [hcompared, mem_filter, mem_map]
      refine ⟨⟨i, mem_range.mpr hi, rfl⟩, ?_⟩
      exact bne_iff_ne.mpr (Nat.ne_of_gt (Nat.lt_of_le_of_lt (Nat.zero_le _) hin))
    exact ⟨_, hmem, hin, hagree _ hmem⟩

/-! ## Signed files -/

/-- A file for which signer and loader agree: its headers are in the first block and the table is
behind it, every segment with bytes in the file is loaded to the higher half, the checksum segment
is where the signer writes, and no segment is loaded over another. -/
structure Fits (content : Nat → UInt8) (size cksumOff : Nat) : Prop where
  small : size < 2 ^ 63
  entsize : be content 54 2 = 56
  headers : be content 32 8 + be content 56 2 * 56 ≤ blockSize
  table : blockSize ≤ cksumOff
  loads : ∀ ph ∈ signerPhdrs content, ph.isLoad = true → ph.filesz ≠ 0 →
    ph.memsz ≠ 0 ∧ virtOffset ≤ ph.paddr ∧ ph.offset.toNat + ph.filesz ≤ size
  hashed : ∀ ph ∈ signerPhdrs content, ph.isLoad = true → ph.flags ≠ pflagsCksum →
    ph.offset.toNat + ph.filesz ≤ cksumOff ∨ cksumOff + tableSize ≤ ph.offset.toNat
  cksum : ∀ ph ∈ signerPhdrs content, ph.isLoad = true → ph.flags = pflagsCksum →
    ph.offset.toNat = cksumOff ∧ tableSize ≤ ph.filesz
  apart : (Zxvl.loads (signerPhdrs content)).Pairwise Apart

def Phdr.entry (sha : List UInt8 → Nat → UInt8) (content : Nat → UInt8) (ph : Phdr) : Entry where
  start := ph.phys
  size := ph.filesz
  digest := sha ((List.range ph.filesz).map fun k => content (ph.offset.toNat + k))

theorem hashSegs_eq (hsize : size < 2 ^ 63) {segs : List Phdr}
    (hsegs : ∀ ph ∈ segs, virtOffset ≤ ph.paddr ∧ ph.offset.toNat + ph.filesz ≤ size) (pos : Nat) :
    hashSegs sha content size pos segs = some (segs.map (Phdr.entry sha content)) := by
  induction segs generalizing pos with
  | nil => rfl
  | cons ph rest ih =>
    obtain ⟨hpaddr, hoff⟩ := hsegs ph mem_cons_self
    have hseek : ph.offset.toNat < 2 ^ 63 := by omega
    rw [hashSegs]
    simp only [if_pos hseek, if_pos hoff, if_pos hpaddr]
    rw [ih fun q hq => hsegs q (mem_cons_of_mem _ hq)]
    rfl

variable {cksumOff : Nat}

theorem Fits.readPhdrs (h : Fits content size cksumOff)
    (hD : ∀ k < blockSize, D.content k = content k) :
    D.readPhdrs (be (D.ioBlock 0) 32 8) (be (D.ioBlock 0) 56 2) = some (signerPhdrs content) := by
  have hblock : ∀ k < blockSize, D.ioBlock 0 k = content k := by
    intro k hk
    have hmod : k % 2 ^ 64 = k := Nat.mod_eq_of_lt (Nat.lt_trans hk (by decide))
    unfold Dataset.ioBlock
    rw [hmod, if_pos hk, Nat.zero_mul, Nat.zero_add]
    exact hD k hk
  have hfield : ∀ off n, off + n ≤ 64 → be (D.ioBlock 0) off n = be content off n :=
    fun off n hle =>
    be_congr fun i hi => hblock _ (by unfold blockSize; omega)
  have hheaders := h.headers
  rw [hfield 32 8 (by decide), hfield 56 2 (by decide), Dataset.readPhdrs,
    if_pos (by rw [Nat.mod_eq_of_lt (Nat.lt_of_le_of_lt hheaders (by decide))]; exact hheaders)]
  unfold signerPhdrs
  rw [h.entsize]
  refine congrArg some (map_congr_left fun i hi => Phdr.read_congr fun j hj => hblock _ ?_)
  have hi' := mem_range.mp hi
  omega

theorem verify_table {table : Nat → UInt8} {entries : List Entry}
    (hlen : entries.length ≤ maxEntries)
    (hsize : ∀ e ∈ entries, e.size < 2 ^ 64) (h : ∀ k < tableSize, table k = tableByte entries k) :
    be table 0 4 = cksumMagic ∧ be table 4 4 = 1 ∧ be table 8 4 = 1 ∧
      be table 12 4 = entries.length ∧
      ∀ i (hi : i < entries.length), (read table i).start = entries[i].start ∧
        (read table i).size = entries[i].size ∧
        ∀ k < 32, (read table i).digest k = entries[i].digest k := by
  unfold maxEntries at hlen
  unfold tableSize at h
  refine ⟨be_beByte (fun i hi => ?_) (by decide), be_beByte (fun i hi => ?_) (by decide),
    be_beByte (fun i hi => ?_) (by decide), be_beByte (fun i hi => ?_) (by omega), fun i hi => ?_⟩
  · rw [h _ (by omega), tableByte, if_pos (by omega), Nat.zero_add]
  · rw [h _ (by omega), tableByte, if_neg (by omega), if_pos (by omega), Nat.add_sub_cancel_left]
  · rw [h _ (by omega), tableByte, if_neg (by omega), if_neg (by omega), if_pos (by omega),
      Nat.add_sub_cancel_left]
  · rw [h _ (by omega), tableByte, if_neg (by omega), if_neg (by omega), if_neg (by omega),
      if_pos (by omega), Nat.add_sub_cancel_left]
  -- byte `r` of entry `i`
  have hbyte : ∀ r < 48, table (16 + 48 * i + r) = if r < 8 then beByte 8 entries[i].start.toNat r
      else if r < 16 then beByte 8 entries[i].size (r - 8) else entries[i].digest (r - 16) := by
    intro r hr
    rw [h _ (by omega), tableByte, if_neg (by omega), if_neg (by omega), if_neg (by omega),
      if_neg (by omega), show (16 + 48 * i + r - 16) / 48 = i by omega,
      show (16 + 48 * i + r - 16) % 48 = r by omega, getElem?_eq_getElem hi]
  refine ⟨?_, ?_, fun k hk => ?_⟩
  · have hstart : be table (16 + 48 * i) 8 = entries[i].start.toNat :=
      be_beByte (fun r hr => by rw [hbyte r (by omega), if_pos hr]) entries[i].start.toNat_lt
    show UInt64.ofNat (be table (16 + 48 * i) 8) = _
    rw [hstart, UInt64.ofNat_toNat]
  · refine be_beByte (fun r hr => ?_) (hsize _ (getElem_mem hi))
    rw [show 24 + 48 * i + r = 16 + 48 * i + (8 + r) by omega, hbyte _ (by omega),
      if_neg (by omega),
      if_pos (by omega), Nat.add_sub_cancel_left]
  · show table (32 + 48 * i + k) = _
    rw [show 32 + 48 * i + k = 16 + 48 * i + (16 + k) by omega, hbyte _ (by omega),
      if_neg (by omega),
      if_neg (by omega), Nat.add_sub_cancel_left]

/-- The code of the image does not write. -/
def Image.Keeps (stub : Image) : Prop := ∀ a x m answer m', stub a x m = some (answer, m') → m' = m

theorem verify_signed (h : Fits content size cksumOff)
    (hsign : zxsign sha content size cksumOff = some D.content) (hkeeps : stub.Keeps)
    (hload : load D stub nonce m = some L) : (verify sha L.mem L.cksumTable).isSome = true := by
  obtain ⟨m₁, answer, hphdrs, hsegs, hstub, hcksum, hne, -⟩ := load_some hload
  -- the signed file and its table
  unfold zxsign at hsign
  dsimp only at hsign
  split_ifs at hsign with hempty
  have hcollect : ∀ ph ∈ collect (signerPhdrs content), ph ∈ signerPhdrs content ∧
    ph.isLoad = true ∧
      ph.filesz ≠ 0 ∧ ph.flags ≠ pflagsCksum := by
    intro ph hph
    have hfilter := mem_filter.mp (mem_of_mem_take hph)
    rw [Bool.and_eq_true, Bool.and_eq_true, bne_iff_ne, bne_iff_ne] at hfilter
    exact ⟨hfilter.1, hfilter.2.1.1, hfilter.2.1.2, hfilter.2.2⟩
  rw [hashSegs_eq h.small fun ph hph => by
    obtain ⟨hmem, hload', hfile, -⟩ := hcollect ph hph
    exact (h.loads ph hmem hload' hfile).2] at hsign
  have hsigned := Option.some.inj hsign
  generalize hentries : (collect (signerPhdrs content)).map (Phdr.entry sha content) =
    entries at hsigned
  have hlen : entries.length ≤ maxEntries ∧ entries.length ≠ 0 := by
    rw [← hentries, length_map]
    exact ⟨length_take_le _ _, fun hzero => hempty (length_eq_zero_iff.mp hzero)⟩
  have htable := h.table
  -- the loader reads the same headers
  have hsame : ∀ k, k < cksumOff ∨ cksumOff + tableSize ≤ k → D.content k = content k := by
    intro k hk
    rw [← hsigned]
    exact if_neg (by omega)
  rw [h.readPhdrs fun k hk => hsame k (.inl (Nat.lt_of_lt_of_le hk htable))] at hphdrs
  have hphdrs' : L.phdrs = signerPhdrs content := (Option.some.inj hphdrs).symm
  rw [hphdrs'] at hsegs hcksum
  rw [hkeeps _ _ _ _ _ hstub]
  have hfilesz : ∀ ph ∈ signerPhdrs content, ph.filesz < 2 ^ 64 := by
    intro ph hph
    obtain ⟨i, -, rfl⟩ := mem_map.mp hph
    exact be_lt
  have hinLoads : ∀ ph ∈ signerPhdrs content, ph.isLoad = true → ph.memsz ≠ 0 →
      ph ∈ loads (signerPhdrs content) := fun ph hph hl hm =>
    mem_filter.mpr ⟨hph, by rw [hl, bne_iff_ne.mpr hm]; rfl⟩
  obtain ⟨hbytes, -⟩ := loadSegments_spec (fun ph hph => by
    obtain ⟨hmem, hcond⟩ := mem_filter.mp hph
    rw [Bool.and_eq_true, bne_iff_ne] at hcond
    refine ⟨hcond.2, hfilesz ph hmem, ?_⟩
    by_cases hzero : ph.filesz = 0
    · have hlt := ph.offset.toNat_lt
      omega
    · have hoff := (h.loads ph hmem hcond.1 hzero).2.2
      have hsmall := h.small
      omega) h.apart hsegs
  -- the table is in storage as it was written
  obtain ⟨pt, hpt, hptLoad, hptFlags, hptPhys⟩ := special_mem (hcksum ▸ hne)
  obtain ⟨hptOff, hptSize⟩ := h.cksum pt hpt hptLoad hptFlags
  have hptFile : pt.filesz ≠ 0 := by
    unfold tableSize at hptSize
    omega
  have hread : ∀ k < tableSize, m₁.bytesAt L.cksumTable k = tableByte entries k := by
    intro k hk
    rw [hcksum, ← hptPhys, hbytes pt (hinLoads pt hpt hptLoad (h.loads pt hpt hptLoad hptFile).1) k
      (Nat.lt_of_lt_of_le hk hptSize), hptOff, ← hsigned]
    dsimp only
    rw [if_pos ⟨Nat.le_add_right _ _, Nat.add_lt_add_left hk _⟩, Nat.add_sub_cancel_left]
  obtain ⟨hmagic, hversion, halgo, hcount, hentry⟩ := verify_table hlen.1 (fun e he => by
    rw [← hentries] at he
    obtain ⟨ph, hph, rfl⟩ := mem_map.mp he
    exact hfilesz ph (hcollect ph hph).1) hread
  -- each range has the bytes that were hashed
  have hagree : ∀ i < entries.length, (read (m₁.bytesAt L.cksumTable) i).agrees sha m₁ = true := by
    intro i hi
    obtain ⟨hstart, hsize, hdigest⟩ := hentry i hi
    have hmapped : entries[i] ∈ (collect (signerPhdrs content)).map (Phdr.entry sha content) := by
      rw [hentries]
      exact getElem_mem hi
    obtain ⟨ph, hph, heq⟩ := mem_map.mp hmapped
    obtain ⟨hmem, hl, hfile, hflags⟩ := hcollect ph hph
    unfold agrees
    rw [all_eq_true]
    intro k hk
    rw [beq_iff_eq, hstart, hsize, hdigest k (mem_range.mp hk), ← heq]
    refine congrArg (fun bytes => sha bytes k) (map_congr_left fun j hj => ?_)
    have hj' : j < ph.filesz := mem_range.mp hj
    rw [show (Phdr.entry sha content ph).start = ph.phys from rfl,
      hbytes ph (hinLoads ph hmem hl (h.loads ph hmem hl hfile).1) j hj']
    refine hsame _ ?_
    rcases h.hashed ph hmem hl hflags with hle | hge
    · exact .inl (by omega)
    · exact .inr (by omega)
  have hall : (((range entries.length).map (read (m₁.bytesAt L.cksumTable))).filter
      fun e => e.size != 0).all (agrees sha m₁) = true := by
    rw [all_eq_true]
    intro e he
    obtain ⟨i, hi, rfl⟩ := mem_map.mp (mem_filter.mp he).1
    exact hagree i (mem_range.mp hi)
  have hcountOk : ¬ (entries.length = 0 ∨ entries.length > maxEntries) := by
    have hnz := hlen.2
    omega
  unfold verify
  dsimp only
  rw [hmagic, hversion, hcount, halgo, if_neg (fun hn => hn rfl), if_neg Nat.one_ne_zero,
    if_neg (Nat.lt_irrefl 1), if_neg hcountOk, if_neg (fun hn => hn rfl), if_pos hall]
  rfl

/-! ## Verified load -/

/-- Whenever the loader goes on after verification it has run code of the image before, and it has
compared what the table lists: every copied byte is covered exactly if the table lists it. A signed
file that fits passes. -/
theorem verified_load {stub : Image} {nonce : UInt64} {L : Loaded}
    (hload : load D stub nonce m = some L) :
    (∀ compared, verify sha L.mem L.cksumTable = some compared →
      L.called = [special L.phdrs pflagsHs] ∧ (Covered sha L compared ↔ L.Listed)) ∧
    ∀ content size cksumOff, Fits content size cksumOff →
      zxsign sha content size cksumOff = some D.content → stub.Keeps →
      (verify sha L.mem L.cksumTable).isSome = true := by
  obtain ⟨-, -, -, -, -, -, -, hcalled⟩ := load_some hload
  exact ⟨fun _ hverify => ⟨hcalled, covered_iff_listed hverify⟩,
    fun _ _ _ hfits hsign hkeeps => verify_signed hfits hsign hkeeps hload⟩

/-- A file with these fields, each an offset, a length and a value, and zeros. -/
def fileOf (fields : List (Nat × Nat × Nat)) (k : Nat) : UInt8 :=
  match fields.find? fun f => f.1 ≤ k && k < f.1 + f.2.1 with
  | some (off, n, v) => beByte n v (k - off)
  | none => 0

def phdrFields (i flags offset phys filesz : Nat) : List (Nat × Nat × Nat) :=
  [(64 + 56 * i, 4, 1), (68 + 56 * i, 4, flags), (72 + 56 * i, 8, offset),
    (88 + 56 * i, 8, virtOffset.toNat + phys), (96 + 56 * i, 8, filesz), (104 + 56 * i, 8, filesz)]

/-- The header of a nucleus with five segments: stub, entry, the two halves of the lock, and the
table. -/
def nucleusFields : List (Nat × Nat × Nat) :=
  [(0, 5, 0x7F454C4602), (16, 2, 2), (18, 2, 22), (24, 8, virtOffset.toNat), (32, 8, 64),
    (54, 2, 56),
    (56, 2, 5)] ++ phdrFields 0 pflagsHs 0x2000 0x10000 8 ++ phdrFields 1 pflagsEntry 0x2008
    0x11000 8 ++
    phdrFields 2 pflagsLock 0x2010 0x12000 8 ++ phdrFields 3 6 0x2018 0x13000 4 ++
    phdrFields 4 pflagsCksum 0x1000 0x14000 tableSize ++
    [(0x2000, 8, 0x07FE), (0x2010, 8, 0xCCBBCC355A58464C), (0x2018, 4, 0xE5664311)]

/-- A stub that answers the challenge for the token 0. -/
def honestStub : Image := fun _ _ m => some (0xDEADBEEF0BADF00D, m)

def nucleus (content : Nat → UInt8) : Dataset where
  content := content
  readable := fun _ => true
  stray := fun _ => 0

def firstBytes (bytes : List UInt8) (i : Nat) : UInt8 := bytes.getD i 0

theorem fits_nucleus : Fits (fileOf nucleusFields) 0x3000 0x1000 where
  small := by decide
  entsize := by decide +kernel
  headers := by decide +kernel
  table := by decide
  loads := by decide +kernel
  hashed := by decide +kernel
  cksum := by decide +kernel
  apart := by decide +kernel

theorem verified_load_nucleus : ∃ content L compared,
    zxsign firstBytes (fileOf nucleusFields) 0x3000 0x1000 = some content ∧
    load (nucleus content) honestStub 0 (fun _ => 0) = some L ∧
    verify firstBytes L.mem L.cksumTable = some compared ∧
    L.called = [special L.phdrs pflagsHs] ∧ (Covered firstBytes L compared ↔ L.Listed) := by
  have hrun : (zxsign firstBytes (fileOf nucleusFields) 0x3000 0x1000).any (fun content =>
      (load (nucleus content) honestStub 0 (fun _ => 0)).isSome) = true := by
    decide +kernel
  obtain ⟨content, hsign, hsome⟩ := (Option.any_eq_true _ _).mp hrun
  obtain ⟨L, hload⟩ := Option.isSome_iff_exists.mp hsome
  obtain ⟨hgoes, hsigned⟩ := @verified_load firstBytes _ _ _ _ _ hload
  obtain ⟨compared, hverify⟩ := Option.isSome_iff_exists.mp
    (hsigned _ _ _ fits_nucleus hsign fun _ _ _ _ _ h => by cases h; rfl)
  exact ⟨content, L, compared, hsign, hload, hverify, hgoes compared hverify⟩

/-- The table of the nucleus has one entry, of size 0. -/
def emptyEntry : List (Nat × Nat × Nat) :=
  [(0x1000, 4, cksumMagic), (0x1004, 4, 1), (0x1008, 4, 1), (0x100C, 4, 1)]

/-- The nucleus is loaded, its stub is run, and verification succeeds, whatever the digest function,
without comparing anything. -/
theorem unverified_load : ∃ L,
    load (nucleus (fileOf (nucleusFields ++ emptyEntry))) honestStub 0 (fun _ => 0) = some L ∧
    L.called = [0x10000] ∧ L.Copied 0x10000 ∧
    ∀ sha, verify sha L.mem L.cksumTable = some [] ∧ ¬ Covered sha L [] := by
  have hrun : (load (nucleus (fileOf (nucleusFields ++ emptyEntry))) honestStub 0 (fun _ => 0)).any
      (fun L => decide (L.called = [0x10000] ∧ (loads L.phdrs).any (fun ph =>
        decide (ph.flags ≠ pflagsCksum ∧ (0x10000 - ph.phys).toNat < ph.filesz)) = true ∧
        be (L.mem.bytesAt L.cksumTable) 0 4 = cksumMagic ∧ be (L.mem.bytesAt L.cksumTable) 4 4 = 1 ∧
        be (L.mem.bytesAt L.cksumTable) 8 4 = 1 ∧ be (L.mem.bytesAt L.cksumTable) 12 4 = 1 ∧
        (Entry.read (L.mem.bytesAt L.cksumTable) 0).size = 0)) = true := by
    decide +kernel
  obtain ⟨L, hload, hL⟩ := (Option.any_eq_true _ _).mp hrun
  obtain ⟨hcalled, hcopied, hmagic, hversion, halgo, hcount, hzero⟩ := of_decide_eq_true hL
  obtain ⟨ph, hph, hin⟩ := List.any_eq_true.mp hcopied
  have hbyte : L.Copied 0x10000 := ⟨ph, hph, of_decide_eq_true hin⟩
  refine ⟨L, hload, hcalled, hbyte, fun sha => ⟨?_, fun hcovered => ?_⟩⟩
  · unfold verify
    simp [hmagic, hversion, halgo, hcount, hzero, maxEntries]
  · obtain ⟨e, he, -⟩ := hcovered 0x10000 hbyte
    cases he

end ZXFoundation.Boot.Zxvl
