import Mathlib.Algebra.Group.Nat.Defs

/-!
# Formatting into a buffer

`format_to` of `lib/format.cxxm`. A message that does not fit loses its last character to the
terminator, which the returned count still includes. The 32-bit minimum is negated before it is
widened, and its sign is extended into another number.
-/

namespace ZXFoundation.Format

open List

inductive IntType where
  | i8 | i16 | i32 | i64

def IntType.bits : IntType → Nat
  | .i8 => 8 | .i16 => 16 | .i32 => 32 | .i64 => 64

inductive Arg where
  | int (t : IntType) (val : BitVec t.bits)
  | uint (val : UInt64)
  | char (c : Char)
  | pointer (addr : UInt64)
  /-- A `string_view` or an array up to its NUL. -/
  | str (s : List Char)
  /-- A `const char*` and the text that it points to. -/
  | cstr (addr : UInt64) (s : List Char)

/-- What `dispatch` reads from a field. -/
structure FieldSpec where
  alt : Bool
  padZero : Bool
  width : Nat
  typeCh : Char

def FieldSpec.parse (spec : List Char) : FieldSpec :=
  let alt := spec.head? == some '#'
  let spec := if alt then spec.tail else spec
  let padZero := spec.head? == some '0'
  let spec := if padZero then spec.tail else spec
  { alt, padZero
    width := (spec.takeWhile Char.isDigit).foldl (fun w c => (w * 10 + (c.toNat - 48)) % 2 ^ 64) 0
    typeCh := (spec.dropWhile Char.isDigit).headD 'd' }

def writeNum (o : FieldSpec) (base val : Nat) : List Char :=
  let tmp := Nat.toDigits base val
  List.replicate (o.width - tmp.length) (if o.padZero then '0' else ' ') ++ tmp

/-- `write_dec`, and for `s` the formatter of integers, which does not pad. -/
def writeDec (o : FieldSpec) (val : Nat) : List Char :=
  if o.typeCh = 's' then Nat.toDigits 10 val else writeNum o 10 val

/-- `static_cast<u64>(-val)`; the types below `int` are promoted, and negation wraps. -/
def castNeg (t : IntType) (val : BitVec t.bits) : Nat :=
  ((-val.signExtend (max t.bits 32)).signExtend 64).toNat

def absolute (t : IntType) (val : BitVec t.bits) : Nat := val.toInt.natAbs

/-- The characters that `do_arg` writes, given what follows the sign of a decimal. -/
def Arg.render (magnitude : (t : IntType) → BitVec t.bits → Nat) (o : FieldSpec) (a : Arg) :
    List Char :=
  if o.typeCh = 'x' ∨ o.typeCh = 'X' then
    (if o.alt then ['0', 'x'] else []) ++ writeNum o 16 (match a with
      | .int _ val => (val.signExtend 64).toNat
      | .uint val | .pointer val | .cstr val _ => val.toNat
      | .char c => c.toNat
      | .str _ => 0)
  else match a with
    | .int t val =>
      if 0 ≤ val.toInt then writeDec o val.toNat
      else '-' :: writeDec o (if o.typeCh = 's' then absolute t val else magnitude t val)
    | .uint val => writeDec o val.toNat
    | .char c => [c]
    | .pointer addr => ['0', 'x'] ++ Nat.toDigits 16 addr.toNat
    | .str s => s
    | .cstr addr s => if addr = 0 then "(null)".toList else s

/-- What a turn of the loop over the format writes. -/
inductive Item where
  | lit (c : Char)
  | field (o : FieldSpec) (a : Arg)

def Item.render (magnitude : (t : IntType) → BitVec t.bits → Nat) : Item → List Char
  | .lit c => [c]
  | .field o a => a.render magnitude o

/-- The loop over `fmt`; after a field it skips what `i = j` passes over. -/
def items (args : List Arg) : Nat → List Char → List Item
  | _, [] => []
  | skip + 1, _ :: fmt => items args skip fmt
  | 0, c :: fmt =>
    if c ≠ '\x7b' ∨ '\x7d' ∉ fmt then .lit c :: items args 0 fmt
    else
      let inner := fmt.takeWhile (· ≠ '\x7d')
      let spec := if inner.head? = some ':' then inner.tail else []
      (args.head?.map (.field (.parse spec))).toList ++ items args.tail (inner.length + 1) fmt

structure FormatContext where
  buffer : List Char
  offset : Nat

def FormatContext.write (ctx : FormatContext) (c : Char) : FormatContext :=
  if ctx.offset < ctx.buffer.length then ⟨ctx.buffer.set ctx.offset c, ctx.offset + 1⟩ else ctx

/-- `format_to`: the count and the buffer. -/
def formatTo (buf fmt : List Char) (args : List Arg) : Nat × List Char :=
  let ctx := (items args 0 fmt).foldl
    (fun ctx item => (item.render castNeg).foldl FormatContext.write ctx) ⟨buf, 0⟩
  (ctx.offset,
    if ctx.offset < buf.length then ctx.buffer.set ctx.offset '\x00'
    else if 0 < buf.length then ctx.buffer.set (buf.length - 1) '\x00'
    else ctx.buffer)

/-- The untruncated rendering. -/
def rendering (fmt : List Char) (args : List Arg) :
    List Char := (items args 0 fmt).flatMap (Item.render absolute)

structure Truncates (buf full : List Char) (result : Nat × List Char) : Prop where
  size : result.2.length = buf.length
  count : result.1 ≤ buf.length
  text : result.2.take result.1 = full.take result.1
  whole : full.length < buf.length → result.1 = full.length
  terminated : buf ≠ [] → result.2[result.1]? = some '\x00'

/-- A decimal of the 32-bit minimum. -/
def Item.Overflows : Item → Prop
  | .field o (.int t val) => o.typeCh ∉ ['x', 'X', 's'] ∧ t = .i32 ∧ val.toInt = -2147483648
  | _ => False

/-! ## The writer -/

open FormatContext

theorem foldl_write (l done rest : List Char) :
    l.foldl write ⟨done ++ rest, done.length⟩ =
      ⟨done ++ l.take rest.length ++ rest.drop l.length,
        done.length + min l.length rest.length⟩ := by
  induction l generalizing done rest with
  | nil => simp
  | cons c l ih =>
    cases rest with
    | nil => simpa [write] using ih done []
    | cons r rest =>
      have hstep : write ⟨done ++ r :: rest, done.length⟩ c =
          ⟨(done ++ [c]) ++ rest, (done ++ [c]).length⟩ := by
        simp [write]
      rw [foldl_cons, hstep, ih]
      simp
      omega

section

variable (buf fmt : List Char) (args : List Arg)

/-- The characters that the formatters write. -/
def written : List Char := (items args 0 fmt).flatMap (Item.render castNeg)

theorem context_eq :
    (items args 0 fmt).foldl (fun ctx item => (item.render castNeg).foldl write ctx)
    ⟨buf, 0⟩ = ⟨(written fmt args).take buf.length ++ buf.drop (written fmt args).length,
      min (written fmt args).length buf.length⟩ := by
  have hctx := foldl_write (written fmt args) [] buf
  rw [length_nil, Nat.zero_add] at hctx
  rw [← foldl_flatMap]
  exact hctx

theorem formatTo_of_fits (h : (written fmt args).length < buf.length) : (formatTo buf fmt args).2 =
    written fmt args ++ '\x00' :: buf.drop ((written fmt args).length + 1) := by
  have hle := Nat.le_of_lt h
  simp only [formatTo, context_eq, Nat.min_eq_left hle, if_pos h, take_of_length_le hle]
  rw [set_append_right _ _ (Nat.le_refl _), Nat.sub_self, drop_eq_getElem_cons h, set_cons_zero]

end

/-! ## The minimum -/

theorem castNeg_cases {t : IntType} {val : BitVec t.bits} (hneg : val.toInt < 0) :
    castNeg t val = absolute t val ∧ ¬ (t = .i32 ∧ val.toInt = -2147483648) ∨
      t = .i32 ∧ val.toInt = -2147483648 ∧ castNeg t val = 18446744071562067968 := by
  have hmin := BitVec.le_toInt val
  have hlt : castNeg t val < 2 ^ 64 := BitVec.isLt _
  have hint : ((-val.signExtend (max t.bits 32)).signExtend 64).toInt = (-val.toInt).bmod
    (2 ^ max t.bits 32) := by
    rw [BitVec.toInt_signExtend_of_le (by cases t <;> decide), BitVec.toInt_neg,
      BitVec.toInt_signExtend_of_le (by cases t <;> decide)]
  rw [BitVec.toInt_eq_toNat_cond, ← castNeg] at hint
  unfold absolute
  generalize val.toInt = v at *
  cases t <;> simp [IntType.bits, Int.bmod] at hint hmin ⊢ <;> omega

/-- The two renderings of an item differ only by a number that is too long. -/
theorem render_le (item : Item) : (item.render absolute).length ≤ (item.render castNeg).length ∧
    (item.render castNeg = item.render absolute ↔ ¬ item.Overflows) := by
  suffices h : item.render castNeg = item.render absolute ∧ ¬ item.Overflows ∨ item.Overflows ∧
      ∃ o, item.render castNeg = '-' :: writeNum o 10 18446744071562067968 ∧
        item.render absolute = '-' :: writeNum o 10 2147483648 by
    rcases h with ⟨heq, hno⟩ | ⟨hover, o, hcast, habs⟩
    · exact ⟨Nat.le_of_eq (congrArg length heq.symm), iff_of_true heq hno⟩
    have hdigits : Nat.toDigits 10 18446744071562067968 = "18446744071562067968".toList ∧
        Nat.toDigits 10 2147483648 = "2147483648".toList := by decide
    simp only [hcast, habs, writeNum, hdigits]
    refine ⟨by simp; omega, iff_of_false (fun heq => ?_) (not_not_intro hover)⟩
    have hlast := congrArg (fun l => l.reverse.take 2) heq
    simp at hlast
  cases item with
  | lit c => exact .inl ⟨rfl, id⟩
  | field o a =>
    cases a with
    | int t val =>
      by_cases hdec : o.typeCh ∈ ['x', 'X', 's']
      · refine .inl ⟨?_, fun h => h.1 hdec⟩
        rcases (by simpa using hdec : o.typeCh = 'x' ∨ o.typeCh = 'X' ∨ o.typeCh = 's') with
          h | h | h <;>
          simp [Item.render, Arg.render, h]
      by_cases hneg : 0 ≤ val.toInt
      · refine .inl ⟨by simp [Item.render, Arg.render, hneg], fun h => ?_⟩
        rw [h.2.2] at hneg
        exact absurd hneg (by decide)
      have hrender : ∀ m, Item.render m (.field o (.int t val)) = '-' :: writeNum o 10 (m t val) :=
        fun m => by
        simp only [mem_cons, not_mem_nil, or_false, not_or] at hdec
        simp [Item.render, Arg.render, writeDec, hdec, hneg]
      rw [hrender, hrender]
      rcases castNeg_cases (Int.not_le.mp hneg) with ⟨heq, hno⟩ | ⟨ht, hmin, heq⟩
      · exact .inl ⟨by rw [heq], fun h => hno h.2⟩
      · exact .inr ⟨⟨hdec, ht, hmin⟩, o, by rw [heq], by rw [absolute, hmin]; rfl⟩
    | uint | char | pointer | str | cstr => exact .inl ⟨rfl, id⟩

theorem flatMap_render (l : List Item) :
    (l.flatMap (Item.render absolute)).length ≤ (l.flatMap (Item.render castNeg)).length ∧
      (l.flatMap (Item.render castNeg) = l.flatMap (Item.render absolute) ↔
        ∀ item ∈ l, ¬ item.Overflows) := by
  induction l with
  | nil => simp
  | cons item l ih =>
    have hitem := render_le item
    simp only [flatMap_cons, length_append, forall_mem_cons, ← ih.2, ← hitem.2]
    refine ⟨by omega, fun heq => ?_, fun h => by rw [h.1, h.2]⟩
    have hlen := congrArg length heq
    rw [length_append, length_append] at hlen
    exact append_inj heq (by omega)

/-- The text is cut correctly just when the buffer is empty, or the rendering is shorter and no
32-bit minimum is printed. -/
theorem formatTo_truncates_iff (buf fmt : List Char) (args : List Arg) :
    Truncates buf (rendering fmt args) (formatTo buf fmt args) ↔
      buf = [] ∨ (rendering fmt args).length < buf.length ∧
        ∀ item ∈ items args 0 fmt, ¬ item.Overflows := by
  obtain ⟨hle, heq⟩ := flatMap_render (items args 0 fmt)
  rw [← written, ← rendering] at hle heq
  have hcount : (formatTo buf fmt args).1 = min (written fmt args).length buf.length := by
    simp only [formatTo, context_eq]
  constructor
  · intro h
    by_cases hbuf : buf = []
    · exact .inl hbuf
    -- the terminator stands inside the buffer, so the writer has not reached its end
    have hin : (formatTo buf fmt args).1 < buf.length := by
      rw [← h.size]
      exact (List.getElem?_eq_some_iff.mp (h.terminated hbuf)).1
    have hfits : (written fmt args).length < buf.length := by omega
    have htext := h.text
    rw [formatTo_of_fits buf fmt args hfits, hcount, Nat.min_eq_left (Nat.le_of_lt hfits),
      List.take_left] at htext
    have hsame : written fmt args = rendering fmt args :=
      htext.trans (List.take_of_length_le (by omega))
    exact .inr ⟨hsame ▸ hfits, heq.mp hsame⟩
  · rintro (rfl | ⟨hfits, hno⟩)
    · constructor <;> simp [formatTo, context_eq]
    rw [← heq.mpr hno] at hfits ⊢
    have hn : (formatTo buf fmt args).1 = (written fmt args).length := by omega
    have hout := formatTo_of_fits buf fmt args hfits
    constructor <;> simp [hn, hout] <;> omega

/-- Two characters for a buffer of two bytes: the second is lost and counted. And the 32-bit
minimum. -/
theorem formatTo_full_counterexample :
    ¬ Truncates ['?', '?'] (rendering ['z', 'x'] []) (formatTo ['?', '?'] ['z', 'x'] []) ∧
    formatTo ['?', '?'] ['z', 'x'] [] = (2, ['z', '\x00']) ∧
    formatTo (List.replicate 22 '?') ['\x7b', '\x7d'] [.int .i32 (BitVec.ofInt 32 (-2147483648))] =
      (21, "-18446744071562067968\x00".toList) := by
  refine ⟨fun h => ?_, by decide +kernel, by decide +kernel⟩
  exact absurd (h.terminated (by simp)) (by decide +kernel)

end ZXFoundation.Format
