import Mathlib.Data.List.Forall2
import ZXFoundation.Base
import ZXFoundation.Lib.Outcome

/-!
# Verified channel programs

`verify_and_stage_ccws` of `sys/zxio.zcomponent/core.cxx`: a driver builds a chain of channel
command words in its own DMA pages, and the kernel checks them one by one and writes its copies
where the driver cannot reach them. The model has the checks, with every read of the driver's pages
as an input of its own, and the execution of a chain by the channel.

The checks look at one word at a time and the channel does not: a word reached by data chaining runs
under an earlier command, a read-backward command stores downwards, and the last word may ask for
one more. `chainSafe` looks at the chain as the channel does.
-/

namespace ZXFoundation.Sys.Zxio

open List

/-! ## Channel command words -/

structure Ccw where
  cmdCode : UInt8 := 0
  flags : UInt8 := 0
  count : UInt16 := 0
  dataAddr : UInt32 := 0
  deriving DecidableEq, Repr

def ccwFlagCd : UInt8 := 0x80
def ccwFlagCc : UInt8 := 0x40
def ccwFlagSli : UInt8 := 0x20
def ccwFlagSkip : UInt8 := 0x10
def ccwFlagPci : UInt8 := 0x08
def ccwFlagIda : UInt8 := 0x04
def ccwFlagSuspend : UInt8 := 0x02
def ccwFlagMida : UInt8 := 0x01

def ccwUserFlags : UInt8 :=
  ccwFlagCd ||| ccwFlagCc ||| ccwFlagSli ||| ccwFlagSkip ||| ccwFlagPci ||| ccwFlagSuspend

def hasFlag (flags flag : UInt8) : Bool := flags &&& flag != 0

def ccwTic : UInt8 := 0x08

/-- `ccw_cmd_valid`: some of the low four bits is set. -/
def ccwCmdValid (cmd : UInt8) : Bool := cmd &&& 0x0F != 0

/-! ## Bindings and requests -/

def pageSize : Nat := 4096

def dmaBytes : Nat := pageSize <<< 2

def driverDmaOffset : Nat := pageSize

def driverDmaBytes : Nat := dmaBytes - driverDmaOffset

def ioMaxCcws : Nat := 64

/-- The DMA area of an `io_binding`. `bind` allocates it with order `DMA_ORDER` in zone `dma31`. -/
structure DmaArea where
  base : Nat
  size : Nat := dmaBytes
  size_eq : size = dmaBytes
  below : base + size ≤ 2 ^ 31

structure IoRequest where
  requestId : UInt64
  ccwOffset : UInt32
  ccwCount : UInt16
  flags : UInt8 := 0
  deriving DecidableEq, Repr

/-- What the reads of one word of the driver's chain return, in the order in which the kernel makes
them. The driver may write in between, so the two reads of the flags are two values. -/
structure CcwReads where
  flags : UInt8
  cmdCode : UInt8
  count : UInt16
  dataAddr : UInt32
  flagsAgain : UInt8
  deriving DecidableEq, Repr

namespace CcwReads

def transfersData (r : CcwReads) : Bool :=
  r.count != 0 && !hasFlag r.flags ccwFlagSkip && ccwCmdValid r.cmdCode

/-- The check and the copy of one word. -/
def stage (area : DmaArea) (r : CcwReads) : Except KernelError Ccw :=
  if r.flags &&& ~~~ccwUserFlags ≠ 0 ∨ hasFlag r.flags (ccwFlagIda ||| ccwFlagMida) ∨
    r.cmdCode = ccwTic then
    .error (.memory .capabilityInvalid)
  else if r.transfersData then
    if r.dataAddr + r.count.toUInt32 < r.dataAddr ∨
      r.dataAddr.toNat + r.count.toNat > driverDmaBytes then
      .error (.memory .invalidAddress)
    else .ok
      { cmdCode := r.cmdCode, flags := r.flagsAgain, count := r.count
        dataAddr := UInt32.ofNat (area.base + driverDmaOffset + r.dataAddr.toNat) }
  else if r.dataAddr ≠ 0 then .error (.generic .invalidArg)
  else .ok { cmdCode := r.cmdCode, flags := r.flagsAgain, count := r.count, dataAddr := 0 }

end CcwReads

/-- `verify_and_stage_ccws`, with what the reads of each word return. The sum of the offset and the
length is one of 64 bits and does not wrap. -/
def verifyAndStageCcws (area : DmaArea) (request : IoRequest) (reads : Nat → CcwReads) :
    Except KernelError (List Ccw) :=
  if request.requestId = 0 ∨ request.ccwCount = 0 ∨ request.ccwCount.toNat > ioMaxCcws ∨
    request.flags ≠ 0 ∨
      request.ccwOffset &&& 7 ≠ 0 then .error (.generic .invalidArg)
  else if request.ccwOffset.toNat + request.ccwCount.toNat * 8 > driverDmaBytes then
    .error (.memory .invalidAddress)
  else (List.range request.ccwCount.toNat).mapM fun i => (reads i).stage area

/-! ## What the channel does -/

/-- What a command moves, and in which direction. -/
inductive Motion where
  /-- An invalid command and the transfer in channel, which the kernel does not stage. -/
  | none
  /-- Write and control: from storage to the device. -/
  | output
  /-- Read and sense: to storage, upwards. -/
  | input
  /-- Read backward: to storage, downwards. -/
  | backward
  deriving DecidableEq, Repr

/-- The motion of a format-1 command, from its low bits. -/
def motion (cmd : UInt8) : Motion :=
  if cmd &&& 0x01 = 1 then .output
  else if cmd &&& 0x03 = 2 then .input
  else if cmd &&& 0x0F = 0x04 then .input
  else if cmd &&& 0x0F = 0x0C then .backward
  else .none

/-- The word moves data under the command. The skip flag is for input only. -/
def Ccw.moves (w : Ccw) (cmd : UInt8) : Bool :=
  w.count != 0 && (match motion cmd with
    | .none => false
    | .output => true
    | .input | .backward => !hasFlag w.flags ccwFlagSkip)

/-- The first and the last address of the data area of the word under the command. -/
def Ccw.dataArea (w : Ccw) (cmd : UInt8) : Int × Int :=
  match motion cmd with
  | .backward => (w.dataAddr.toNat - w.count.toNat + 1, w.dataAddr.toNat)
  | _ => (w.dataAddr.toNat, w.dataAddr.toNat + w.count.toNat - 1)

/-- The data address of the word is that of the data, not of a list of addresses. -/
def Ccw.direct (w : Ccw) : Bool := !hasFlag w.flags (ccwFlagIda ||| ccwFlagMida)

/-- The channel gets to the word at the index with the command in force. Data chaining goes before
command chaining, and an invalid command ends the program. -/
inductive Executes (program : Nat → Ccw) : Nat → UInt8 → Prop where
  | first : Executes program 0 (program 0).cmdCode
  | chainData {i : Nat} {cmd : UInt8} (h : Executes program i cmd) (hcmd : motion cmd ≠ .none)
      (hflag : hasFlag (program i).flags ccwFlagCd = true) : Executes program (i + 1) cmd
  | chainCommand {i : Nat} {cmd : UInt8} (h : Executes program i cmd) (hcmd : motion cmd ≠ .none)
      (hdata : hasFlag (program i).flags ccwFlagCd = false)
      (hflag : hasFlag (program i).flags ccwFlagCc = true) :
      Executes program (i + 1) (program (i + 1)).cmdCode

/-- The staging page: the words of the request, and then what was there before. -/
def stagingPage (staged : List Ccw) (stale : Nat → Ccw) (i : Nat) : Ccw := staged.getD i (stale i)

/-- The data area is in the driver's part of the DMA area. -/
def Ccw.InWindow (w : Ccw) (area : DmaArea) (cmd : UInt8) : Prop :=
  (area.base + driverDmaOffset : Nat) ≤ (w.dataArea cmd).1 ∧
    (w.dataArea cmd).2 < (area.base + area.size : Nat)

/-- The word touches nothing outside the driver's part of the area. -/
def Ccw.Inside (w : Ccw) (area : DmaArea) (cmd : UInt8) : Prop :=
  w.moves cmd = true → w.direct = true ∧ w.InWindow area cmd

/-- Only staged words run, and all the data they move is in the driver's part of the area. -/
def Confined (area : DmaArea) (staged : List Ccw) (stale : Nat → Ccw) : Prop :=
  ∀ i cmd, Executes (stagingPage staged stale) i cmd →
    i < staged.length ∧ (stagingPage staged stale i).Inside area cmd

/-! ## The check that the channel's view asks for -/

namespace CcwReads

/-- The copy of the word, less its address. -/
def copied (r : CcwReads) : Ccw := { cmdCode := r.cmdCode, flags := r.flagsAgain, count := r.count }

/-- One word under the command in force: if the copy moves data, its address was checked, it is
direct, and downwards there is room for all of it. -/
def safeUnder (r : CcwReads) (cmd : UInt8) : Bool :=
  !r.copied.moves cmd || (r.copied.direct && r.transfersData &&
    (motion cmd != .backward || decide (r.count.toNat ≤ r.dataAddr.toNat + 1)))

end CcwReads

def firstCommand : List CcwReads → UInt8
  | [] => 0
  | r :: _ => r.cmdCode

/-- The words from here on, the first of them under the command: none moves data outside the window,
and the chain ends. -/
def chainSafe (cmd : UInt8) : List CcwReads → Bool
  | [] => false
  | r :: rest =>
    r.safeUnder cmd &&
      if motion cmd = .none then true
      else if hasFlag r.flagsAgain ccwFlagCd then chainSafe cmd rest
      else if hasFlag r.flagsAgain ccwFlagCc then chainSafe (firstCommand rest) rest
      else true

/-! ## One word -/

namespace CcwReads

variable {area : DmaArea} {r : CcwReads} {w : Ccw}

theorem stage_ok (h : r.stage area = .ok w) :
    w.cmdCode = r.cmdCode ∧ w.flags = r.flagsAgain ∧ w.count = r.count ∧
      (if r.transfersData then r.dataAddr.toNat + r.count.toNat ≤ driverDmaBytes ∧
          w.dataAddr.toNat = area.base + driverDmaOffset + r.dataAddr.toNat
        else w.dataAddr.toNat = 0) := by
  unfold stage at h
  split_ifs at h with hflags hmoves hrange haddr
  · cases h
    refine ⟨rfl, rfl, rfl, ?_⟩
    rw [if_pos hmoves]
    rw [not_or, Nat.not_lt] at hrange
    refine ⟨hrange.2, ?_⟩
    -- the area ends below two gigabytes, so the address is not cut
    have hbelow := area.below
    rw [area.size_eq] at hbelow
    have hroom : r.dataAddr.toNat ≤ driverDmaBytes := by omega
    have hsmall : area.base + driverDmaOffset + r.dataAddr.toNat < 2 ^ 32 := by
      have : driverDmaOffset + driverDmaBytes = dmaBytes := by decide
      omega
    exact UInt32.toNat_ofNat_of_lt hsmall
  · cases h
    refine ⟨rfl, rfl, rfl, ?_⟩
    rw [if_neg hmoves]
    rfl

/-- The address that was checked is in the window, unless the data goes down from it too far; the
address zero never is. -/
theorem inWindow_iff (h : r.stage area = .ok w) (hcount : r.count ≠ 0) (cmd : UInt8) :
    w.InWindow area cmd ↔ r.transfersData = true ∧
      (motion cmd = .backward → r.count.toNat ≤ r.dataAddr.toNat + 1) := by
  obtain ⟨-, -, hsame, haddr⟩ := stage_ok h
  have hpos : r.count.toNat ≠ 0 := fun hc => hcount (UInt16.toNat_inj.mp hc)
  have hoffset : driverDmaOffset = 4096 := rfl
  have hbytes : driverDmaBytes = 12288 := rfl
  have hsize : area.size = 16384 := area.size_eq
  unfold Ccw.InWindow Ccw.dataArea
  rw [hsame]
  cases htransfers : r.transfersData with
  | false =>
    rw [htransfers, if_neg Bool.false_ne_true] at haddr
    constructor
    · intro hin
      -- below the window whichever way the data goes
      exfalso
      split at hin <;> omega
    · rintro ⟨hfalse, -⟩
      cases hfalse
  | true =>
    rw [htransfers, if_pos rfl] at haddr
    obtain ⟨hroom, haddr⟩ := haddr
    by_cases hback : motion cmd = .backward
    · simp only [hback, true_and, forall_const]
      omega
    constructor
    · exact fun _ => ⟨rfl, fun hb => absurd hb hback⟩
    intro _
    split
    · next hb => exact absurd hb hback
    · omega

/-- A staged word stays in the window under a command exactly when it is safe under it. -/
theorem inside_iff_safeUnder (h : r.stage area = .ok w) {cmd : UInt8} :
    w.Inside area cmd ↔ r.safeUnder cmd = true := by
  obtain ⟨-, hflags, hcount, -⟩ := stage_ok h
  have hmoves : w.moves cmd = r.copied.moves cmd := by
    unfold Ccw.moves copied
    rw [hflags, hcount]
  have hdirect : w.direct = r.copied.direct := by
    unfold Ccw.direct copied
    rw [hflags]
  unfold Ccw.Inside safeUnder
  rw [hmoves, hdirect]
  cases hm : r.copied.moves cmd with
  | false => simp
  | true =>
  have hne : r.count ≠ 0 := by
    unfold Ccw.moves copied at hm
    rw [Bool.and_eq_true] at hm
    exact bne_iff_ne.mp hm.1
  rw [inWindow_iff h hne]
  simp [imp_iff_not_or, and_assoc]

end CcwReads

/-! ## The chain -/

section Chain

variable {area : DmaArea} {request : IoRequest} {reads : Nat → CcwReads} {staged : List Ccw}
    {stale : Nat → Ccw}

theorem staged_spec (h : verifyAndStageCcws area request reads = .ok staged) :
    staged.length = request.ccwCount.toNat ∧
      ∀ i < staged.length, (reads i).stage area = .ok (stagingPage staged stale i) := by
  unfold verifyAndStageCcws at h
  split_ifs at h
  have hall : List.Forall₂ (fun i w => (reads i).stage area = .ok w)
    (range request.ccwCount.toNat) staged := by
    revert h
    generalize range request.ccwCount.toNat = is
    intro h
    induction is generalizing staged with
    | nil =>
      cases h
      exact .nil
    | cons i is ih =>
      rw [mapM_cons] at h
      obtain ⟨w, hw, hrest⟩ := Outcome.bind_eq_ok h
      obtain ⟨ws, hws, heq⟩ := Outcome.bind_eq_ok hrest
      cases heq
      exact .cons hw (ih hws)
  have hlength := hall.length_eq
  rw [length_range] at hlength
  refine ⟨hlength.symm, fun i hi => ?_⟩
  have hget := hall.get (by rw [length_range]; omega) hi
  rw [get_eq_getElem, getElem_range] at hget
  unfold stagingPage
  rw [getD_eq_getElem?_getD, getElem?_eq_getElem hi, Option.getD_some]
  exact hget

/-- The words as they were read, from an index on. -/
def readsFrom (reads : Nat → CcwReads) (n i : Nat) :
    List CcwReads := ((List.range n).map reads).drop i

theorem readsFrom_cons {n i : Nat} (hi : i < n) :
    readsFrom reads n i = reads i :: readsFrom reads n (i + 1) := by
  unfold readsFrom
  rw [drop_eq_getElem_cons (by simpa using hi)]
  simp

theorem lt_of_chainSafe {n i : Nat} {cmd : UInt8} (h : chainSafe cmd (readsFrom reads n i) = true) :
    i < n := by
  by_contra hge
  have hnil : readsFrom reads n i = [] := by
    unfold readsFrom
    rw [drop_eq_nil_iff]
    simpa using hge
  rw [hnil] at h
  cases h

/-- The chain from a word that the channel gets to is safe: every word under its command, and it
ends. -/
theorem chainSafe_of_executes {n i : Nat} {cmd : UInt8} {program : Nat → Ccw}
    (hcopy : ∀ i < n, (program i).cmdCode = (reads i).cmdCode ∧
      (program i).flags = (reads i).flagsAgain)
    (hn : 0 < n) (hsafe : chainSafe (reads 0).cmdCode (readsFrom reads n 0) = true)
    (h : Executes program i cmd) :
    i < n ∧ chainSafe cmd (readsFrom reads n i) = true := by
  induction h with
  | first =>
    rw [(hcopy 0 hn).1]
    exact ⟨hn, hsafe⟩
  | @chainData i cmd _ hcmd hflag ih =>
    obtain ⟨hi, hchain⟩ := ih
    rw [readsFrom_cons hi, chainSafe, Bool.and_eq_true, if_neg hcmd] at hchain
    rw [(hcopy i hi).2] at hflag
    rw [if_pos hflag] at hchain
    exact ⟨lt_of_chainSafe hchain.2, hchain.2⟩
  | @chainCommand i cmd _ hcmd hdata hflag ih =>
    obtain ⟨hi, hchain⟩ := ih
    rw [readsFrom_cons hi, chainSafe, Bool.and_eq_true, if_neg hcmd] at hchain
    rw [(hcopy i hi).2] at hflag hdata
    rw [hdata, if_neg Bool.false_ne_true, if_pos hflag] at hchain
    have hlt := lt_of_chainSafe hchain.2
    rw [readsFrom_cons hlt] at hchain
    rw [(hcopy (i + 1) hlt).1, readsFrom_cons hlt]
    exact ⟨hlt, hchain.2⟩

/-- If no run of the channel leaves the staged words or the window, the chain from any word it gets
to is safe. By induction on the number of words that are left. -/
theorem Confined.chainSafe (h : Confined area staged stale)
    (hstaged : ∀ i < staged.length, (reads i).stage area = .ok (stagingPage staged stale i))
    (left : Nat) :
    ∀ {i : Nat} {cmd : UInt8}, Executes (stagingPage staged stale) i cmd →
      i + left = staged.length →
      chainSafe cmd (readsFrom reads staged.length i) = true := by
  induction left with
  | zero =>
    intro i cmd hexec hleft
    have hlt := (h i cmd hexec).1
    omega
  | succ left ih =>
    intro i cmd hexec hleft
    obtain ⟨hi, hinside⟩ := h i cmd hexec
    obtain ⟨-, hflags, -, -⟩ := CcwReads.stage_ok (hstaged i hi)
    rw [readsFrom_cons hi, Zxio.chainSafe, Bool.and_eq_true]
    refine ⟨(CcwReads.inside_iff_safeUnder (hstaged i hi)).mp hinside, ?_⟩
    by_cases hcmd : motion cmd = .none
    · rw [if_pos hcmd]
    rw [if_neg hcmd]
    by_cases hcd : hasFlag (reads i).flagsAgain ccwFlagCd = true
    · rw [if_pos hcd]
      rw [← hflags] at hcd
      exact ih (.chainData hexec hcmd hcd) (by omega)
    rw [if_neg hcd]
    by_cases hcc : hasFlag (reads i).flagsAgain ccwFlagCc = true
    · rw [if_pos hcc]
      rw [← hflags] at hcc hcd
      have hnext := Executes.chainCommand hexec hcmd (by simpa using hcd) hcc
      have hlt := (h _ _ hnext).1
      obtain ⟨hcmd', -, -, -⟩ := CcwReads.stage_ok (hstaged (i + 1) hlt)
      have htail := ih hnext (by omega)
      rw [hcmd'] at htail
      rw [readsFrom_cons hlt] at htail ⊢
      exact htail
    · rw [if_neg hcc]

/-- The program that was staged for a request stays among its own words and in the driver's window,
whatever the driver writes while it is checked and whatever was staged before, exactly when the
words that were read pass the check along the chain. -/
theorem staged_program_confined_iff (area : DmaArea) (request : IoRequest) (reads : Nat → CcwReads)
    (staged : List Ccw) (stale : Nat → Ccw)
    (h : verifyAndStageCcws area request reads = .ok staged) :
    Confined area staged stale ↔
      chainSafe (reads 0).cmdCode ((List.range request.ccwCount.toNat).map reads) = true := by
  obtain ⟨hlength, hstaged⟩ := staged_spec h
  have hpos : 0 < staged.length := by
    unfold verifyAndStageCcws at h
    split_ifs at h with hrequest
    have hcount : request.ccwCount ≠ 0 := fun hc => hrequest (.inr (.inl hc))
    have hne : request.ccwCount.toNat ≠ 0 := fun hc => hcount (UInt16.toNat_inj.mp hc)
    omega
  rw [← hlength]
  constructor
  · intro hconfined
    have hfirst : Executes (stagingPage staged stale) _ _ := .first
    rw [(CcwReads.stage_ok (hstaged 0 hpos)).1] at hfirst
    exact hconfined.chainSafe hstaged staged.length hfirst (by omega)
  · intro hsafe i cmd hexec
    have hcopy : ∀ i < staged.length, (stagingPage staged stale i).cmdCode = (reads i).cmdCode ∧
        (stagingPage staged stale i).flags = (reads i).flagsAgain := by
      intro i hi
      obtain ⟨hcmd, hflags, -, -⟩ := CcwReads.stage_ok (hstaged i hi)
      exact ⟨hcmd, hflags⟩
    obtain ⟨hi, hchain⟩ := chainSafe_of_executes hcopy hpos hsafe hexec
    refine ⟨hi, (CcwReads.inside_iff_safeUnder (hstaged i hi)).mpr ?_⟩
    rw [readsFrom_cons hi, Zxio.chainSafe, Bool.and_eq_true] at hchain
    exact hchain.1

def exampleArea : DmaArea where
  base := 0x10000
  size_eq := rfl
  below := by decide

/-- A request for a chain of the length at the start of the driver's pages. -/
def requestOf (n : UInt16) : IoRequest := { requestId := 1, ccwOffset := 0, ccwCount := n }

/-- A write of 16 bytes that data-chains to 8 bytes further up. -/
def gatherWrite : Nat → CcwReads
  | 0 => ⟨ccwFlagCd, 0x01, 16, 0x100, ccwFlagCd⟩
  | _ => ⟨0, 0x01, 8, 0x200, 0⟩

theorem staged_program_confined_iff_gather :
    verifyAndStageCcws exampleArea (requestOf 2) gatherWrite =
        .ok [⟨0x01, ccwFlagCd, 16, 0x11100⟩, ⟨0x01, 0, 8, 0x11200⟩] ∧
      Confined exampleArea [⟨0x01, ccwFlagCd, 16, 0x11100⟩, ⟨0x01, 0, 8, 0x11200⟩] fun _ => {} :=
  ⟨rfl, (staged_program_confined_iff exampleArea (requestOf 2) gatherWrite _ _ rfl).mpr (by decide)⟩

/-- Two bytes, read backward from the first byte of the window: the second one goes to the staging
page. -/
def backwardReads (_ : Nat) : CcwReads := ⟨0, 0x0C, 2, 0, 0⟩

/-- A read that data-chains to a word with an invalid command, whose address is not checked and
becomes zero. The channel goes on reading to address zero. -/
def chainedReads : Nat → CcwReads
  | 0 => ⟨ccwFlagCd, 0x02, 8, 0, ccwFlagCd⟩
  | _ => ⟨0, 0x00, 8, 0, 0⟩

/-- A write that asks for one more word. -/
def unendedReads (_ : Nat) : CcwReads := ⟨ccwFlagCc, 0x01, 8, 0, ccwFlagCc⟩

/-- A read whose flags the driver changes to indirect addressing after they were checked. -/
def rewrittenReads (_ : Nat) : CcwReads := ⟨0, 0x02, 8, 0, ccwFlagIda⟩

/-- Four requests that are accepted and leave the window or the staged words. -/
theorem staged_program_escapes_counterexample :
    (∃ staged, verifyAndStageCcws exampleArea (requestOf 1) backwardReads = .ok staged ∧
      ¬ Confined exampleArea staged fun _ => {}) ∧
    (∃ staged, verifyAndStageCcws exampleArea (requestOf 2) chainedReads = .ok staged ∧
      ¬ Confined exampleArea staged fun _ => {}) ∧
    (∃ staged, verifyAndStageCcws exampleArea (requestOf 1) unendedReads = .ok staged ∧
      ¬ Confined exampleArea staged fun _ => {}) ∧
    ∃ staged, verifyAndStageCcws exampleArea (requestOf 1) rewrittenReads = .ok staged ∧
      ¬ Confined exampleArea staged fun _ => {} := by
  refine ⟨⟨_, rfl, fun h => ?_⟩, ⟨_, rfl, fun h => ?_⟩, ⟨_, rfl, fun h => ?_⟩,
    ⟨_, rfl, fun h => ?_⟩⟩
  · have hinside := (h _ _ .first).2 (by decide)
    exact absurd hinside.2.1 (by decide)
  · have hinside := (h _ _ (.chainData .first (by decide) (by decide))).2 (by decide)
    exact absurd hinside.2.1 (by decide)
  · have hstaged := (h _ _ (.chainCommand .first (by decide) (by decide) (by decide))).1
    exact absurd hstaged (by decide)
  · have hinside := (h _ _ .first).2 (by decide)
    exact absurd hinside.1 (by decide)

end Chain

end ZXFoundation.Sys.Zxio
