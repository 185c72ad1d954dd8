import Mathlib.Data.Fin.Basic
import ZXFoundation.Arch.Dat
import ZXFoundation.Arch.Fixup
import ZXFoundation.Scoms.Kobject

/-!
# Copies between the kernel and user space

`arch/s390x/cpu/uaccess.zcomponent`: `copy_from_user` and `copy_to_user`. Without the MVCOS facility
the kernel walks the domain's tables page by page; with it, one instruction moves up to 4096 bytes
between two address spaces and a loop repeats it, an access exception being caught by the exception
table.

Every access is recorded in `touched`, as the pair of a kernel address and a user address, so that
one can say which bytes a copy reached for. A loop is a function of a fuel that bounds its turns;
`none` means that the fuel did not suffice.
-/

namespace ZXFoundation.Arch.Uaccess

open Dat Fixup Function List
open Scoms (Trap)

/-- Which way the bytes go. -/
inductive Direction where
  | fromUser | toUser
  deriving DecidableEq, Repr

/-- Kernel storage by virtual address, user frames by physical address, and the accesses made so
far. -/
structure Storage where
  kernel : Nat → UInt8
  frames : Nat → UInt8
  touched : List (Nat × Nat) := []

def wrap (a : Nat) : Nat := a % 2 ^ 64

/-- A kernel object: it does not wrap around the end of the address space, and no object of the
kernel lies in its first page. -/
structure Buffer where
  start : Nat
  len : Nat
  low : 4096 ≤ start
  fits : start + len ≤ 2 ^ 64

/-- One byte moved between the kernel address `k` and the user address `u`, which is at `phys`. -/
def Storage.moveByte (M : Storage) (dir : Direction) (k u phys : Nat) : Storage :=
  match dir with
  | .fromUser =>
    { M with kernel := update M.kernel k (M.frames phys), touched := M.touched ++ [(k, u)] }
  | .toUser =>
    { M with frames := update M.frames phys (M.kernel k), touched := M.touched ++ [(k, u)] }

/-- `std::copy_n` of `n` bytes, first to last, between the kernel at `k` and the user page at
`phys`. -/
def Storage.copyN (M : Storage) (dir : Direction) (k u phys : Nat) : Nat → Storage
  | 0 => M
  | n + 1 => (M.copyN dir k u phys n).moveByte dir (wrap (k + n)) (wrap (u + n)) (phys + n)

/-- What a copy is made in: the domain's tables and their root. -/
structure Space where
  tables : Tables
  root : Nat

/-- The translation of a user address, zero where there is none. -/
def Space.translate (D : Space) (u : Nat) : Nat := (walk D.tables D.root u).toOption.getD 0

/-- The domain's tables permit the access that a copy makes to the user address. -/
def Space.permits (D : Space) (dir : Direction) (u : Nat) : Bool :=
  match dir with
  | .fromUser => mapped D.tables D.root u
  | .toUser => storable D.tables D.root u

/-- `n` bytes moved, each through the translation of its own address. -/
def Space.moveBytes (D : Space) (dir : Direction) (k u : Nat) (M : Storage) : Nat → Storage
  | 0 => M
  | n + 1 =>
    (D.moveBytes dir k u M n).moveByte dir (wrap (k + n)) (wrap (u + n))
    (D.translate (wrap (u + n)))

/-! ## The table walk -/

/-- The loop of `dat_copy_from_user` and `dat_copy_to_user`. -/
def Space.datCopy (D : Space) (dir : Direction) (buf : Buffer) (user : Nat) :
    Nat → Nat → Storage → Option (Except Trap (Int × Storage))
  | 0, _, _ => none
  | fuel + 1, copied, M =>
    if copied < buf.len then
      let userVa := wrap (user + copied)
      let chunk := min (buf.len - copied) (4096 - userVa % 4096)
      match walk D.tables D.root userVa with
      | .error _ => some (.ok (-1, M))
      | .ok phys =>
        D.datCopy dir buf user fuel (copied + chunk)
          (M.copyN dir (buf.start + copied) userVa phys chunk)
    else some (.ok (0, M))

/-! ## MVCOS -/

/-- The part of the kernel image a copy depends on: the exception table, the address of the MVCOS of
each direction, and the register the compiler keeps the length in. Register 0 is named in the
clobber list; the entries are those that `EX_TABLE(0b, 1b, EX_TYPE_UA_MVCOS_*, 3)` puts down. -/
structure Image where
  table : ExTable
  site : Direction → Nat
  lenReg : Nat
  lenReg_ne : lenReg ≠ 0
  entry : Direction → FixupEntry × Nat
  registered : ∀ dir, table.lookup (site dir) = some (entry dir)
  type_eq : ∀ dir, (entry dir).1.type = match dir with
    | .fromUser => .uaMvcosFrom
    | .toUser => .uaMvcosTo
  data_eq : ∀ dir, (entry dir).1.data = 3

/-- What an access exception leaves open: the condition code that was current, and how many bytes
went over before the one that cannot be accessed. -/
structure Interruption where
  cc : Fin 4
  moved : Nat

/-- The first of `n` bytes at `user` that may not be accessed. -/
def Space.firstDenied (D : Space) (dir : Direction) (user n : Nat) : Option Nat :=
  (List.range n).find? fun j => !D.permits dir (wrap (user + j))

/-- The storage at an access exception on byte `j`: some bytes before it have gone over, and it has
been reached for. -/
def Space.interrupted (D : Space) (dir : Direction) (k user : Nat) (M : Storage) (moved j : Nat) :
    Storage :=
  let M := D.moveBytes dir k user M (min moved j)
  { M with touched := M.touched ++ [(wrap (k + j), wrap (user + j))] }

/-- `GR0_FROM_USER` and `GR0_TO_USER`. -/
def oac : Direction → Nat
  | .fromUser => 0x00000001
  | .toUser => 0x00010000

/-- `mvcos`: the condition code, the length register and the storage. On an access exception the
program check handler looks for an entry of the exception table, and the instruction after this one
goes on with the condition code that was there before. -/
def Image.mvcos (I : Image) (D : Space) (dir : Direction) (k user len : Nat) (a : Interruption)
    (M : Storage) : Except Trap (Fin 4 × Nat × Storage) :=
  let n := min len 4096
  match D.firstDenied dir user n with
  | none => .ok (if 4096 < len then 3 else 0, len, D.moveBytes dir k user M n)
  | some j =>
    let gprs := update (update (fun _ => 0) 0 (oac dir)) I.lenReg len
    match tryApplyingFixup I.table (I.site dir) (wrap (user + j)) { gprs } with
    | none => .error .syschkFatal
    | some (_, frame) => .ok (a.cc, frame.gprs I.lenReg, D.interrupted dir k user M a.moved j)

/-- `mvcos_copy`: `a i` is what an exception in turn `i` finds. -/
def Image.mvcosCopy (I : Image) (D : Space) (dir : Direction) (a : Nat → Interruption) :
    Nat → Nat → Nat → Nat → Nat → Storage → Option (Except Trap (Int × Storage))
  | 0, _, _, _, _, _ => none
  | fuel + 1, i, k, user, len, M =>
    if 0 < len then
      match I.mvcos D dir k user len (a i) M with
      | .error t => some (.error t)
      | .ok (cc, chunk, M) =>
        if cc = 0 then some (.ok (0, M))
        else if cc = 3 then
          I.mvcosCopy D dir a fuel (i + 1) (wrap (k + 4096)) (wrap (user + 4096)) chunk M
        else some (.ok (-1, M))
    else some (.ok (0, M))

def Image.copyUser (I : Image) (D : Space) (hasMvcos : Bool) (dir : Direction) (buf : Buffer)
    (user : Nat)
    (a : Nat → Interruption) (M : Storage) (fuel : Nat) : Option (Except Trap (Int × Storage)) :=
  if buf.len = 0 then some (.ok (0, M))
  else if hasMvcos then I.mvcosCopy D dir a fuel 0 buf.start user buf.len M
  else D.datCopy dir buf user fuel 0 M

/-! ## What a copy should do -/

def Space.Permitted (D : Space) (dir : Direction) (user len : Nat) : Prop :=
  ∀ i < len, D.permits dir (wrap (user + i))

/-- Every access paired a byte of the buffer with the byte of the user range at the same offset. -/
def Storage.Confined (M : Storage) (buf : Buffer) (user : Nat) : Prop :=
  ∀ p ∈ M.touched, ∃ i < buf.len, p = (buf.start + i, wrap (user + i))

/-- **An exact and confined copy**: it returns, with 0 exactly if the whole user range may be
accessed, then all bytes have been copied; otherwise with -1; and nothing else was accessed. -/
def Space.Copies (D : Space) (dir : Direction) (buf : Buffer) (user : Nat) (M : Storage)
    (run : Nat → Option (Except Trap (Int × Storage))) : Prop :=
  ∃ fuel ret M', run fuel = some (.ok (ret, M')) ∧ (ret = 0 ∨ ret = -1) ∧
    (ret = 0 ↔ D.Permitted dir user buf.len) ∧
    (ret = 0 → M' = D.moveBytes dir buf.start user M buf.len) ∧ M'.Confined buf user

/-! ## Bytes moved -/

theorem wrap_add {a b : Nat} : wrap (wrap a + b) = wrap (a + b) := by
  unfold wrap
  omega

theorem wrap_lt (a : Nat) : wrap a < 2 ^ 64 := Nat.mod_lt _ (by decide)

theorem wrap_of_lt {a : Nat} (h : a < 2 ^ 64) : wrap a = a := Nat.mod_eq_of_lt h

variable {I : Image} {D : Space} {dir : Direction} {a : Nat → Interruption} {buf : Buffer}
    {M M' : Storage}
  {fuel i j k u user start len off phys moved n : Nat}

@[simp] theorem touched_moveByte : (M.moveByte dir k u phys).touched = M.touched ++ [(k, u)] := by
  cases dir <;> rfl

theorem moveBytes_add {m : Nat} :
    D.moveBytes dir k u M (m + n) = D.moveBytes dir (k + m) (u + m)
      (D.moveBytes dir k u M m) n := by
  induction n with
  | zero => rfl
  | succ n ih =>
    rw [← Nat.add_assoc, Space.moveBytes, Space.moveBytes, ih, Nat.add_assoc, Nat.add_assoc]

theorem touched_moveBytes :
    (D.moveBytes dir k u M n).touched =
      M.touched ++ (range n).map fun i => (wrap (k + i), wrap (u + i)) := by
  induction n with
  | zero => simp [Space.moveBytes]
  | succ n ih => simp [Space.moveBytes, ih, range_succ]

theorem translate_add (hwalk : walk D.tables D.root u = .ok phys)
    (hj : u % 4096 + j < 4096) : D.translate (u + j) = phys + j := by
  simp only [Space.translate, walk_add hj, hwalk, Except.map, Except.toOption, Option.getD_some]

theorem wrap_add_of_page (hu : u < 2 ^ 64) (hj : u % 4096 + j < 4096) : wrap (u + j) = u + j := by
  apply wrap_of_lt
  omega

theorem copyN_eq (hwalk : walk D.tables D.root u = .ok phys) (hu : u < 2 ^ 64)
    (hn : u % 4096 + n ≤ 4096) :
    M.copyN dir k u phys n = D.moveBytes dir k u M n := by
  induction n with
  | zero => rfl
  | succ n ih =>
    have hpage : u % 4096 + n < 4096 := by omega
    rw [Storage.copyN, Space.moveBytes,
      ih (by omega), wrap_add_of_page hu hpage, translate_add hwalk hpage]

theorem moveBytes_wrap (k u : Nat) :
    D.moveBytes dir (wrap k) (wrap u) M n = D.moveBytes dir k u M n := by
  induction n with
  | zero => rfl
  | succ n ih => simp only [Space.moveBytes, ih, wrap_add]

/-! ## The table walk copies what is mapped -/

theorem datCopy_isSome {copied : Nat} (hle : copied ≤ buf.len) (hlt : buf.len < copied + fuel) :
    (D.datCopy dir buf user fuel copied M).isSome := by
  induction fuel generalizing copied M with
  | zero => omega
  | succ fuel ih =>
    simp only [Space.datCopy]
    split
    · split
      · rfl
      · apply ih
        · omega
        · omega
    · rfl

/-- The walk stops at the first byte without a translation, after the bytes before it. -/
theorem datCopy_spec {copied : Nat} {r : Except Trap (Int × Storage)} (hle : copied ≤ buf.len)
    (hmapped : ∀ i < copied, mapped D.tables D.root (wrap (user + i)))
    (hrun : D.datCopy dir buf user fuel copied (D.moveBytes dir buf.start user M copied) = some r) :
    ∃ c ≤ buf.len, (∀ i < c, mapped D.tables D.root (wrap (user + i))) ∧
      (c < buf.len → ¬ mapped D.tables D.root (wrap (user + c))) ∧
      r = .ok (if c = buf.len then 0 else -1, D.moveBytes dir buf.start user M c) := by
  induction fuel generalizing copied with
  | zero => cases hrun
  | succ fuel ih =>
    simp only [Space.datCopy] at hrun
    by_cases hmore : copied < buf.len
    swap
    · rw [if_neg hmore] at hrun
      cases hrun
      refine ⟨copied, hle, hmapped, fun h => absurd h hmore, ?_⟩
      rw [if_pos (by omega)]
    rw [if_pos hmore] at hrun
    have hva := wrap_lt (user + copied)
    generalize hgen : wrap (user + copied) = userVa at *
    cases hwalk : walk D.tables D.root userVa with
    | error e =>
      rw [hwalk] at hrun
      cases hrun
      refine ⟨copied, hle, hmapped, fun _ => ?_, ?_⟩
      · rw [hgen, mapped, hwalk]
        exact Bool.false_ne_true
      · rw [if_neg (by omega)]
    | ok phys =>
      rw [hwalk] at hrun
      simp only at hrun
      generalize hchunk : min (buf.len - copied) (4096 - userVa % 4096) = chunk at hrun
      have hpage : userVa % 4096 + chunk ≤ 4096 := by omega
      have hwrap : ∀ j, wrap (user + copied + j) = wrap (userVa + j) := by
        intro j
        rw [← hgen, wrap_add]
      have hmove : (D.moveBytes dir buf.start user M copied).copyN dir
        (buf.start + copied) userVa phys
          chunk = D.moveBytes dir buf.start user M (copied + chunk) := by
        rw [copyN_eq hwalk hva hpage, moveBytes_add, ← hgen, ← moveBytes_wrap _ (user + copied),
          ← moveBytes_wrap _ (wrap (user + copied))]
        congr 1
        exact wrap_of_lt (wrap_lt _)
      rw [hmove] at hrun
      refine ih (by omega) (fun i hi => ?_) hrun
      -- the bytes of this chunk lie in the page that was walked
      by_cases hold : i < copied
      · exact hmapped i hold
      obtain ⟨j, rfl⟩ := Nat.exists_eq_add_of_le (Nat.le_of_not_lt hold)
      have hj : userVa % 4096 + j < 4096 := by omega
      rw [← Nat.add_assoc, hwrap, wrap_add_of_page hva hj, mapped_add hj, mapped, hwalk]
      rfl

theorem mapped_of_permits (h : D.permits dir u) : mapped D.tables D.root u := by
  cases dir with
  | fromUser => exact h
  | toUser => exact (Bool.and_eq_true _ _ ▸ h : _ ∧ _).1

theorem Storage.Confined.append (h : M.Confined buf user)
    (htouched : ∀ p ∈ M'.touched, p ∈ M.touched ∨
      ∃ off < buf.len, p = (wrap (buf.start + off), wrap (user + off))) : M'.Confined buf user := by
  intro p hp
  rcases htouched p hp with hold | ⟨off, hoff, rfl⟩
  · exact h p hold
  · have hfits := buf.fits
    exact ⟨off, hoff, by rw [wrap_of_lt (a := buf.start + off) (by omega)]⟩

theorem Storage.Confined.moveBytes (h : M.Confined buf user) (hn : off + n ≤ buf.len) :
    (D.moveBytes dir (buf.start + off) (user + off) M n).Confined buf user := by
  apply h.append
  intro p hp
  rw [touched_moveBytes] at hp
  rcases mem_append.mp hp with hold | hnew
  · exact .inl hold
  · obtain ⟨j, hj, rfl⟩ := mem_map.mp hnew
    have hlt := mem_range.mp hj
    exact .inr ⟨off + j, by omega, by rw [Nat.add_assoc, Nat.add_assoc]⟩

theorem confined_nil {kernel frames : Nat → UInt8} :
    Storage.Confined ⟨kernel, frames, []⟩ buf user :=
  fun _ hp => absurd hp not_mem_nil

theorem confined_moveBytes {kernel frames : Nat → UInt8} (hn : n ≤ buf.len) :
    (D.moveBytes dir buf.start user ⟨kernel, frames, []⟩ n).Confined buf user := by
  show (D.moveBytes dir (buf.start + 0) (user + 0) _ n).Confined buf user
  exact confined_nil.moveBytes (by omega)

/-- Without MVCOS a copy is as it should be, except that a store to a mapped page which the tables
protect is made and reported as done. -/
theorem datCopy_copies_iff {kernel frames : Nat → UInt8} :
    D.Copies dir buf user ⟨kernel, frames, []⟩
      (fun fuel => D.datCopy dir buf user fuel 0 ⟨kernel, frames, []⟩)
      ↔ ((∀ i < buf.len, mapped D.tables D.root (wrap (user + i))) →
        D.Permitted dir user buf.len) := by
  have hnone : ∀ i < 0, mapped D.tables D.root (wrap (user + i)) :=
    fun i hi => absurd hi (Nat.not_lt_zero i)
  constructor
  · rintro ⟨fuel, ret, M', hrun, -, hret, -, -⟩ hmapped
    obtain ⟨c, hle, -, hstop, heq⟩ := datCopy_spec (Nat.zero_le _) hnone hrun
    have hc : c = buf.len := by
      rcases Nat.lt_or_ge c buf.len with hlt | hge
      · exact absurd (hmapped c hlt) (hstop hlt)
      · omega
    cases heq
    exact hret.mp (if_pos hc)
  · intro hsound
    obtain ⟨r, hrun⟩ := Option.isSome_iff_exists.mp (datCopy_isSome (Nat.zero_le _)
      (by omega : buf.len < 0 + (buf.len + 1)))
    obtain ⟨c, hle, hmapped, hstop, rfl⟩ := datCopy_spec (Nat.zero_le _) hnone hrun
    refine ⟨_, _, _, hrun, ?_, ?_, ?_, confined_moveBytes hle⟩
    · split
      · exact .inl rfl
      · exact .inr rfl
    · constructor
      · intro hzero
        have hc : c = buf.len := by
          by_contra hne
          rw [if_neg hne] at hzero
          cases hzero
        exact hsound (hc ▸ hmapped)
      · intro hperm
        apply if_pos
        rcases Nat.lt_or_ge c buf.len with hlt | hge
        · exact absurd (mapped_of_permits (hperm c hlt)) (hstop hlt)
        · omega
    · intro hzero
      by_cases hc : c = buf.len
      · rw [hc]
      · rw [if_neg hc] at hzero
        cases hzero

/-! ## The MVCOS loop -/

/-- The fixup of MVCOS clears register 0, which the length is not in. -/
theorem tryApplyingFixup_mvcos (I : Image) (dir : Direction) (fsa : Nat) (frame : IrqFrame) :
    ∃ addr frame', tryApplyingFixup I.table (I.site dir) fsa frame = some (addr, frame') ∧
      frame'.gprs I.lenReg = frame.gprs I.lenReg := by
  refine ⟨_, _, by rw [tryApplyingFixup, I.registered]; rfl, ?_⟩
  have hreg : extractReg (I.entry dir).1.data = 0 := by rw [I.data_eq]; rfl
  have htype := I.type_eq dir
  cases dir <;> simp only [recover, htype, hreg, update_of_ne I.lenReg_ne]

theorem mvcos_eq {a : Interruption} :
    I.mvcos D dir k user len a M = .ok (match D.firstDenied dir user (min len 4096) with
      | none => (if 4096 < len then 3 else 0, len, D.moveBytes dir k user M (min len 4096))
      | some j => (a.cc, len, D.interrupted dir k user M a.moved j)) := by
  simp only [Image.mvcos]
  cases D.firstDenied dir user (min len 4096) with
  | none => rfl
  | some j =>
    obtain ⟨addr, frame', hfix, hlen⟩ := tryApplyingFixup_mvcos I dir (wrap (user + j))
      { gprs := update (update (fun _ => 0) 0 (oac dir)) I.lenReg len }
    simp only [hfix, hlen, update_self]

theorem firstDenied_wrap (user : Nat) :
    D.firstDenied dir (wrap user) n = D.firstDenied dir user n := by
  simp only [Space.firstDenied, wrap_add]

theorem interrupted_wrap (k user : Nat) :
    D.interrupted dir (wrap k) (wrap user) M moved j = D.interrupted dir k user M moved j := by
  simp only [Space.interrupted, moveBytes_wrap, wrap_add]

theorem firstDenied_eq_none : D.firstDenied dir user n = none ↔ D.Permitted dir user n := by
  simp [Space.firstDenied, Space.Permitted]

theorem firstDenied_eq_some
    (h : D.firstDenied dir user n = some j) : j < n ∧ ¬ D.permits dir (wrap (user + j)) :=
  ⟨mem_range.mp (mem_of_find?_eq_some h), by simpa using find?_some h⟩

theorem Space.Permitted.not_denied (h : D.Permitted dir user len)
    (hdenied : D.firstDenied dir (user + off) n = some j) : ¬ off + j < len := fun hin =>
  (firstDenied_eq_some hdenied).2 (Nat.add_assoc user off j ▸ h _ hin)

/-- Turn `i` of the loop stays inside the range and another turn follows: a whole chunk went over,
or an exception found condition code 3. -/
def Space.Skips (D : Space) (dir : Direction) (user len : Nat) (a : Nat → Interruption) (i : Nat) :
    Prop :=
  match D.firstDenied dir (user + 4096 * i) (min len 4096) with
  | none => 4096 * (i + 1) ≤ len ∧ 4096 < len
  | some j => 4096 * i + j < len ∧ (a i).cc = 3

/-- Turn `i` of the loop meets an exception inside the range, with a condition code that ends the
loop as a failure. -/
def Space.Stops (D : Space) (dir : Direction) (user len : Nat) (a : Nat → Interruption) (i : Nat) :
    Prop :=
  ∃ j, D.firstDenied dir (user + 4096 * i) (min len 4096) = some j ∧ 4096 * i + j < len ∧
    ((a i).cc = 1 ∨ (a i).cc = 2)

/-- The inputs on which the MVCOS loop does what it should. -/
def Space.MvcosSound (D : Space) (dir : Direction) (user len : Nat) (a : Nat → Interruption) :
    Prop :=
  (len ≤ 4096 ∧ D.Permitted dir user len) ∨
    ∃ i, (∀ j < i, D.Skips dir user len a j) ∧ D.Stops dir user len a i

theorem touched_interrupted :
    (D.interrupted dir k user M moved j).touched =
      M.touched ++ (range (min moved j)).map (fun i => (wrap (k + i), wrap (user + i))) ++
        [(wrap (k + j), wrap (user + j))] := by
  simp only [Space.interrupted, touched_moveBytes]

theorem Storage.Confined.off_lt (h : M.Confined buf user)
    (hmem : (wrap (buf.start + off), wrap (user + off)) ∈ M.touched) (hoff : off < 2 ^ 64) :
    off < buf.len := by
  obtain ⟨i, hi, heq⟩ := h _ hmem
  have hfirst : wrap (buf.start + off) = buf.start + i := congrArg Prod.fst heq
  have hfits := buf.fits
  unfold wrap at hfirst
  omega

/-- One turn of the loop, for addresses that have advanced by whole chunks. -/
theorem mvcosCopy_succ (hlen : 0 < len) (hk : wrap k = wrap (start + 4096 * i))
    (hu : wrap u = wrap (user + 4096 * i)) :
    I.mvcosCopy D dir a (fuel + 1) i k u len M =
      match D.firstDenied dir (user + 4096 * i) (min len 4096) with
      | none =>
        let M := D.moveBytes dir (start + 4096 * i) (user + 4096 * i) M (min len 4096)
        if 4096 < len then I.mvcosCopy D dir a fuel (i + 1) (wrap (k + 4096))
          (wrap (u + 4096)) len M
        else some (.ok (0, M))
      | some j =>
        let M := D.interrupted dir (start + 4096 * i) (user + 4096 * i) M (a i).moved j
        if (a i).cc = 0 then some (.ok (0, M))
        else if (a i).cc = 3 then
          I.mvcosCopy D dir a fuel (i + 1) (wrap (k + 4096)) (wrap (u + 4096)) len M
        else some (.ok (-1, M)) := by
  rw [Image.mvcosCopy, if_pos hlen, mvcos_eq, ← firstDenied_wrap u, hu, firstDenied_wrap]
  cases D.firstDenied dir (user + 4096 * i) (min len 4096) with
  | none =>
    simp only [← moveBytes_wrap k u, hk, hu, moveBytes_wrap]
    by_cases hbig : 4096 < len
    · rw [if_pos hbig, if_pos hbig]
      rfl
    · rw [if_neg hbig, if_neg hbig]
      rfl
  | some j => simp only [← interrupted_wrap k u, hk, hu, interrupted_wrap]

theorem wrap_next (hk : wrap k = wrap (start + 4096 * i)) :
    wrap (wrap (k + 4096)) = wrap (start + 4096 * (i + 1)) := by
  unfold wrap at hk ⊢
  omega

theorem touched_mvcos {chunk : Nat} {x : Interruption} {cc : Fin 4}
    (h : I.mvcos D dir k u len x M = .ok (cc, chunk, M')) : M.touched ⊆ M'.touched := by
  rw [mvcos_eq] at h
  split at h <;> cases h
  · rw [touched_moveBytes]
    exact subset_append_left _ _
  · rw [touched_interrupted, append_assoc]
    exact subset_append_left _ _

theorem touched_mvcosCopy {ret : Int}
    (hrun : I.mvcosCopy D dir a fuel i k u len M = some (.ok (ret, M'))) :
    M.touched ⊆ M'.touched := by
  induction fuel generalizing i k u len M with
  | zero => cases hrun
  | succ fuel ih =>
    rw [Image.mvcosCopy] at hrun
    split at hrun
    swap
    · cases hrun
      exact List.Subset.refl _
    cases hmvcos : I.mvcos D dir k u len (a i) M with
    | error t => simp [hmvcos] at hrun
    | ok out =>
    have hsub := touched_mvcos hmvcos
    simp only [hmvcos] at hrun
    split at hrun
    · cases hrun
      exact hsub
    split at hrun
    · exact List.Subset.trans hsub (ih hrun)
    · cases hrun
      exact hsub

/-- **Only a sound input gives a copy that is as it should be.** The induction is on the turns; a
turn that leaves the range would have to reach for a byte beyond it, and its first byte is not far
enough beyond to wrap around into the range again. -/
theorem mvcosSound_of_run (hlen : 0 < buf.len) {ret : Int} (hconf : M'.Confined buf user)
    (hret : ret = 0 → D.Permitted dir user buf.len) (hk : wrap k = wrap (buf.start + 4096 * i))
    (hu : wrap u = wrap (user + 4096 * i)) (hskips : ∀ j < i, D.Skips dir user buf.len a j)
    (hi : 4096 * i < buf.len + 4096)
    (hrun : I.mvcosCopy D dir a fuel i k u buf.len M = some (.ok (ret, M'))) :
    D.MvcosSound dir user buf.len a := by
  have hfits := buf.fits
  have hlow := buf.low
  induction fuel generalizing i k u M with
  | zero => cases hrun
  | succ fuel ih =>
    have hrun' := hrun
    rw [mvcosCopy_succ hlen hk hu] at hrun'
    cases hdenied : D.firstDenied dir (user + 4096 * i) (min buf.len 4096) with
    | none =>
      rw [hdenied] at hrun'
      dsimp only at hrun'
      -- the bytes of this chunk have been reached for
      have hreached : (D.moveBytes dir (buf.start + 4096 * i) (user + 4096 * i) M
          (min buf.len 4096)).touched ⊆ M'.touched →
          ∀ j < min buf.len 4096, 4096 * i + j < buf.len := by
        intro hsub j hj
        apply hconf.off_lt
        · apply hsub
          rw [touched_moveBytes]
          refine mem_append_right _ (mem_map.mpr ⟨j, mem_range.mpr hj, ?_⟩)
          rw [Nat.add_assoc, Nat.add_assoc]
        · omega
      by_cases hbig : 4096 < buf.len
      · rw [if_pos hbig] at hrun'
        have hlast := hreached (touched_mvcosCopy hrun') 4095 (by omega)
        refine ih (wrap_next hk) (wrap_next hu) (Nat.forall_lt_succ_right.mpr ⟨hskips, ?_⟩)
          (by omega) hrun'
        rw [Space.Skips, hdenied]
        exact ⟨by omega, hbig⟩
      · rw [if_neg hbig] at hrun'
        cases hrun'
        have hfirst := hreached (List.Subset.refl _) 0 (by omega)
        refine .inl ⟨by omega, ?_⟩
        have hi0 : i = 0 := by omega
        subst hi0
        have hperm := firstDenied_eq_none.mp hdenied
        rwa [Nat.min_eq_left (by omega), Nat.mul_zero, Nat.add_zero] at hperm
    | some j =>
      rw [hdenied] at hrun'
      dsimp only at hrun'
      have hj := (firstDenied_eq_some hdenied).1
      have hreached : (D.interrupted dir (buf.start + 4096 * i) (user + 4096 * i) M
          (a i).moved j).touched ⊆ M'.touched → 4096 * i + j < buf.len := by
        intro hsub
        apply hconf.off_lt
        · apply hsub
          rw [touched_interrupted, ← Nat.add_assoc, ← Nat.add_assoc]
          exact mem_append_right _ (mem_singleton_self _)
        · omega
      split at hrun'
      · -- condition code 0: success is reported although this byte was not copied
        cases hrun'
        exact absurd (hreached (List.Subset.refl _)) ((hret rfl).not_denied hdenied)
      split at hrun'
      · next hcc =>
        have hin := hreached (touched_mvcosCopy hrun')
        refine ih (wrap_next hk) (wrap_next hu) (Nat.forall_lt_succ_right.mpr ⟨hskips, ?_⟩)
          (by omega) hrun'
        rw [Space.Skips, hdenied]
        exact ⟨hin, hcc⟩
      · next hne0 hne3 =>
        cases hrun'
        have hin := hreached (List.Subset.refl _)
        refine .inr ⟨i, hskips, j, hdenied, hin, ?_⟩
        generalize (a i).cc = cc at hne0 hne3
        revert cc
        decide

theorem Storage.Confined.interrupted (h : M.Confined buf user) (hj : off + j < buf.len) :
    (D.interrupted dir (buf.start + off) (user + off) M moved j).Confined buf user := by
  have hmoved : (D.moveBytes dir (buf.start + off) (user + off) M (min moved j)).Confined
    buf user :=
    h.moveBytes (by omega)
  apply hmoved.append
  intro p hp
  rw [Space.interrupted] at hp
  rcases mem_append.mp hp with hold | hnew
  · exact .inl hold
  · rw [mem_singleton.mp hnew]
    exact .inr ⟨off + j, hj, by rw [Nat.add_assoc, Nat.add_assoc]⟩

/-- The turns before the one that stops the loop, then that one. -/
theorem mvcosCopy_of_stops (hlen : 0 < buf.len) {last : Nat}
    (hskips : ∀ j < last, D.Skips dir user buf.len a j)
    (hstops : D.Stops dir user buf.len a last) (hi : i + n = last)
    (hk : wrap k = wrap (buf.start + 4096 * i))
    (hu : wrap u = wrap (user + 4096 * i)) (hM : M.Confined buf user) :
    ∃ M', I.mvcosCopy D dir a (n + 1) i k u buf.len M = some (.ok (-1, M')) ∧
      M'.Confined buf user := by
  induction n generalizing i k u M with
  | zero =>
    obtain rfl : i = last := hi
    obtain ⟨j, hdenied, hin, hcc⟩ := hstops
    rw [mvcosCopy_succ hlen hk hu, hdenied]
    dsimp only
    rcases hcc with hcc | hcc <;> rw [hcc] <;> exact ⟨_, rfl, hM.interrupted hin⟩
  | succ n ih =>
    have hskip := hskips i (by omega)
    unfold Space.Skips at hskip
    rw [mvcosCopy_succ hlen hk hu]
    cases hdenied : D.firstDenied dir (user + 4096 * i) (min buf.len 4096) with
    | none =>
      rw [hdenied] at hskip
      dsimp only
      rw [if_pos hskip.2]
      refine ih (by omega) (wrap_next hk) (wrap_next hu) (hM.moveBytes ?_)
      omega
    | some j =>
      rw [hdenied] at hskip
      dsimp only
      rw [hskip.2, if_neg (by decide), if_pos rfl]
      exact ih (by omega) (wrap_next hk) (wrap_next hu) (hM.interrupted hskip.1)

theorem mvcosCopy_copies_iff (hlen : 0 < buf.len) {kernel frames : Nat → UInt8} :
    D.Copies dir buf user ⟨kernel, frames, []⟩
        (fun fuel => I.mvcosCopy D dir a fuel 0 buf.start user buf.len ⟨kernel, frames, []⟩) ↔
      D.MvcosSound dir user buf.len a := by
  constructor
  · rintro ⟨fuel, ret, M', hrun, -, hret, -, hconf⟩
    refine mvcosSound_of_run hlen hconf hret.mp (i := 0) rfl rfl ?_ (by omega) hrun
    intro j hj
    exact absurd hj (Nat.not_lt_zero j)
  · rintro (⟨hsmall, hperm⟩ | ⟨i, hskips, hstops⟩)
    · refine ⟨1, 0, D.moveBytes dir buf.start user ⟨kernel, frames, []⟩ buf.len, ?_, .inl rfl,
        ⟨fun _ => hperm, fun _ => rfl⟩, fun _ => rfl, confined_moveBytes (Nat.le_refl _)⟩
      have hnone : D.firstDenied dir (user + 4096 * 0) (min buf.len 4096) = none := by
        rw [firstDenied_eq_none, Nat.min_eq_left hsmall]
        exact hperm
      show I.mvcosCopy D dir a (0 + 1) 0 buf.start user buf.len ⟨kernel, frames, []⟩ = _
      have hstart : wrap buf.start = wrap (buf.start + 4096 * 0) := rfl
      have huser : wrap user = wrap (user + 4096 * 0) := rfl
      rw [mvcosCopy_succ hlen hstart huser, hnone]
      dsimp only
      rw [if_neg (by omega), Nat.min_eq_left hsmall]
      rfl
    · obtain ⟨M', hrun, hconf⟩ := mvcosCopy_of_stops (I := I) (k := buf.start) (u := user)
        (M := ⟨kernel, frames, []⟩) hlen hskips hstops (Nat.zero_add i) rfl rfl confined_nil
      obtain ⟨j, hdenied, hin, -⟩ := hstops
      -- the byte that stopped the loop is a byte of the range
      exact ⟨_, _, M', hrun, .inr rfl, ⟨fun h => absurd h (by decide),
        fun hperm => absurd hin (hperm.not_denied hdenied)⟩, fun h => absurd h (by decide), hconf⟩

/-- A range of more than 4096 bytes that may all be accessed is never copied as it should be: no
exception ends the loop inside the range. -/
theorem not_mvcosSound (hlen : 4096 < len) (hperm : D.Permitted dir user len) :
    ¬ D.MvcosSound dir user len a := by
  rintro (⟨hsmall, -⟩ | ⟨i, -, j, hdenied, hin, -⟩)
  · omega
  · exact hperm.not_denied hdenied hin

/-- The inputs on which a copy does what it should: nothing to copy; with MVCOS, at most 4096 bytes
that may all be accessed, or an exception inside the range that finds condition code 1 or 2 after
turns that stayed inside; without it, no store to a page that is mapped but protected. -/
def Space.Sound (D : Space) (hasMvcos : Bool) (dir : Direction) (user len : Nat)
    (a : Nat → Interruption) :
    Prop :=
  len = 0 ∨ if hasMvcos then D.MvcosSound dir user len a
    else (∀ i < len, mapped D.tables D.root (wrap (user + i))) → D.Permitted dir user len

/-- **When copies are exact and confined.** -/
theorem copyUser_copies_iff (I : Image) (D : Space) (hasMvcos : Bool) (dir : Direction)
    (buf : Buffer)
    (user : Nat) (a : Nat → Interruption) (kernel frames : Nat → UInt8) :
    D.Copies dir buf user ⟨kernel, frames, []⟩
        (I.copyUser D hasMvcos dir buf user a ⟨kernel, frames, []⟩) ↔
      D.Sound hasMvcos dir user buf.len a := by
  unfold Image.copyUser
  by_cases hlen : buf.len = 0
  · simp only [if_pos hlen]
    refine ⟨fun _ => .inl hlen, fun _ => ⟨0, 0, _, rfl, .inl rfl, ⟨fun _ i hi => ?_, fun _ => rfl⟩,
      fun _ => ?_, confined_nil⟩⟩
    · omega
    · rw [hlen]
      rfl
  · simp only [if_neg hlen]
    cases hasMvcos with
    | true =>
      simp only [if_true, Space.Sound, hlen, false_or]
      exact mvcosCopy_copies_iff (Nat.pos_of_ne_zero hlen)
    | false =>
      simp only [Bool.false_eq_true, if_false, Space.Sound, hlen, false_or]
      exact datCopy_copies_iff

/-- Tables that map addresses from 0 on through the chain of tables at 8192, 16384, 24576, 40960 and
32768: `ste` is the first segment entry and `pte` the first page entry. -/
def sample (ste pte : Nat) : Space where
  tables := fun addr =>
    if addr = 8192 then 16384 else if addr = 16384 then 24576 else if addr = 24576 then 40960
    else if addr = 40960 then ste else if addr = 32768 then pte else 0x420
  root := 8192

theorem permits_sample_large (h : u < 2 ^ 20) : (sample 0x400 0).permits .fromUser u := by
  have h1 : u / 2 ^ 53 % 2 ^ 11 = 0 := by omega
  have h2 : u / 2 ^ 42 % 2 ^ 11 = 0 := by omega
  have h3 : u / 2 ^ 31 % 2 ^ 11 = 0 := by omega
  have h4 : u / 2 ^ 20 % 2 ^ 11 = 0 := by omega
  show (walkLevels _ u upperLevels _).isOk = true
  simp only [upperLevels, walkLevels, Tables.entry, virtIndex, h1, h2, h3, h4, Nat.mul_zero,
    Nat.add_zero]
  rfl

/-- The exception table with the two entries of MVCOS, at 0x100. -/
def mvcosImage : Image where
  table :=
    { base := 0x100
      entries := [⟨0x1000, 0x1002, .uaMvcosFrom, 3⟩, ⟨0x2000, 0x2002, .uaMvcosTo, 3⟩] }
  site := fun
    | .fromUser => 0x1100
    | .toUser => 0x210c
  lenReg := 2
  lenReg_ne := by decide
  entry := fun
    | .fromUser => (⟨0x1000, 0x1002, .uaMvcosFrom, 3⟩, 0)
    | .toUser => (⟨0x2000, 0x2002, .uaMvcosTo, 3⟩, 1)
  registered := fun dir => by cases dir <;> rfl
  type_eq := fun dir => by cases dir <;> rfl
  data_eq := fun dir => by cases dir <;> rfl

/-- A kernel buffer at 8192. -/
def sampleBuffer (len : Nat) (h : len ≤ 8192) : Buffer := ⟨8192, len, by decide, by omega⟩

/-- **A protected page is stored to, an unmapped one is reported as read, and a long copy goes too
far.** The table walk does not look at the protection bit; an exception in the first MVCOS with
condition code 0 ends the loop as a success; and with more than 4096 accessible bytes the length
never shrinks. -/
theorem copyUser_not_exact :
    (¬ (sample 32768 0x200).Copies .toUser (sampleBuffer 1 (by decide)) 0
      ⟨fun _ => 0, fun _ => 0, []⟩
        (mvcosImage.copyUser (sample 32768 0x200) false .toUser (sampleBuffer 1 (by decide)) 0
          (fun _ => ⟨0, 0⟩) ⟨fun _ => 0, fun _ => 0, []⟩)) ∧
    (¬ (sample 32768 0x400).Copies .fromUser (sampleBuffer 1 (by decide)) 0
      ⟨fun _ => 0, fun _ => 0, []⟩
        (mvcosImage.copyUser (sample 32768 0x400) true .fromUser (sampleBuffer 1 (by decide)) 0
          (fun _ => ⟨0, 0⟩) ⟨fun _ => 0, fun _ => 0, []⟩)) ∧
    ¬ (sample 0x400 0).Copies .fromUser (sampleBuffer 4097 (by decide)) 0
      ⟨fun _ => 0, fun _ => 0, []⟩
        (mvcosImage.copyUser (sample 0x400 0) true .fromUser (sampleBuffer 4097 (by decide)) 0
          (fun _ => ⟨0, 0⟩) ⟨fun _ => 0, fun _ => 0, []⟩) := by
  refine ⟨fun h => ?_, fun h => ?_, fun h => ?_⟩
  · have hsound := datCopy_copies_iff.mp h
    have hstored := hsound (fun i hi => by obtain rfl : i = 0 := Nat.lt_one_iff.mp hi; decide) 0
      (by decide)
    exact absurd hstored (by decide)
  · rcases (mvcosCopy_copies_iff (I := mvcosImage) (by decide)).mp h with
      ⟨-, hperm⟩ | ⟨i, hskips, j, -, -, hcc⟩
    · exact absurd (hperm 0 (by decide)) (by decide)
    · exact absurd (show (0 : Fin 4) = 1 ∨ (0 : Fin 4) = 2 from hcc) (by decide)
  · refine not_mvcosSound (show 4096 < 4097 by decide) ?_
      ((mvcosCopy_copies_iff (I := mvcosImage) (by decide)).mp h)
    intro i hi
    apply permits_sample_large
    rw [wrap_of_lt (by omega)]
    omega

end ZXFoundation.Arch.Uaccess
