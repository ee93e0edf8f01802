import DotMatrix.Proofs.Cpu.Decimal
import DotMatrix.Proofs.Machine.Run
import Mathlib.Tactic.Linarith

/-!
# Binary arithmetic

The processor adds in four places: bytes with and without a carry, words, an offset to the stack
pointer, and backwards in a comparison. Each has carries of its own, and they agree
(`adders_agree`). A chain of byte additions or subtractions is the addition or subtraction of the
numbers modulo the power of 256 that they have room for, and the carry that is left tells whether
the sum or difference was out of range (`littleEndian_chain_adc`, `littleEndian_chain_sbc`). The
other adders are as good as such a chain: what they leave is what two additions of bytes leave.
-/

namespace DotMatrix

namespace Alu

/-! ## Bytes with a carry -/

/-- One byte of a chain: the accumulator is loaded, and the other byte added or subtracted. -/
def binaryStep (op : Op) (r : Registers) (x y : UInt8) : Registers := apply { r with a := x } op y

/-- The number that bytes stand for, the least significant first. -/
def littleEndian (bytes : List UInt8) : Nat := number 256 UInt8.toNat bytes

theorem littleEndian_lt (bytes : List UInt8) : littleEndian bytes < 256 ^ bytes.length := by
  have hdigits : ∀ d ∈ bytes.map UInt8.toNat, d < 256 := by
    intro d hd
    obtain ⟨b, -, rfl⟩ := List.mem_map.1 hd
    exact b.toNat_lt
  have hlt := Nat.ofDigits_lt_base_pow_length (by decide) hdigits
  rwa [List.length_map] at hlt

/-- A sum of bytes, put together again from the byte and the carry that it left. -/
theorem sum_of_outcome {r : Registers} {x y : UInt8} {carry : Bool}
    (hvalue : r.a = (add x y carry).value) (hcarry : r.flag Flag.carry = (add x y carry).carry) :
    r.a.toNat + 256 * carryBit r = x.toNat + y.toNat + carry.toNat := by
  have hx := x.toNat_lt
  have hy := y.toNat_lt
  have hc := carry.toNat_le
  have hout : carryBit r = (decide (255 < x.toNat + y.toNat + carry.toNat)).toNat :=
    congrArg Bool.toNat hcarry
  rw [hvalue, toNat_addValue, hout]
  by_cases hover : 255 < x.toNat + y.toNat + carry.toNat <;>
    simp only [hover, decide_true, decide_false, Bool.toNat_true, Bool.toNat_false] <;> omega

theorem binaryStep_adc (r : Registers) (x y : UInt8) :
    (binaryStep .adc r x y).a.toNat + 256 * carryBit (binaryStep .adc r x y) =
      x.toNat + y.toNat + carryBit r := by
  obtain ⟨hvalue, -, -, hcarry⟩ := apply_adc { r with a := x } y
  exact sum_of_outcome hvalue hcarry

theorem binaryStep_sbc (r : Registers) (x y : UInt8) :
    (binaryStep .sbc r x y).a.toNat + y.toNat + carryBit r =
      x.toNat + 256 * carryBit (binaryStep .sbc r x y) := by
  obtain ⟨hvalue, -, -, hcarry⟩ := apply_sbc { r with a := x } y
  have hx := x.toNat_lt
  have hy := y.toNat_lt
  have hc := carryBit_le r
  have hdifference : (binaryStep .sbc r x y).a.toNat =
      (512 + x.toNat - y.toNat - carryBit r) % 256 :=
    (congrArg UInt8.toNat hvalue).trans (toNat_subValue _ _ _)
  have hout : carryBit (binaryStep .sbc r x y) =
      (decide (x.toNat < y.toNat + carryBit r)).toNat := congrArg Bool.toNat hcarry
  rw [hdifference, hout]
  by_cases hunder : x.toNat < y.toNat + carryBit r <;>
    simp only [hunder, decide_true, decide_false, Bool.toNat_true, Bool.toNat_false] <;> omega

theorem digitwise_binaryAdc :
    Digitwise 256 UInt8.toNat (fun _ => True) 1 (binaryStep .adc) where
  result _ _ _ _ _ := trivial
  value r x y _ _ := by
    have := binaryStep_adc r x y
    omega

theorem digitwise_binarySbc :
    Digitwise 256 UInt8.toNat (fun _ => True) (-1) (binaryStep .sbc) where
  result _ _ _ _ _ := trivial
  value r x y _ _ := by
    have := binaryStep_sbc r x y
    omega

/-! ## Numbers of any length -/

section Chain

variable (r : Registers) {xs ys : List UInt8} (hlength : xs.length = ys.length)
include hlength

theorem length_chain_zip (step : Registers → UInt8 → UInt8 → Registers) :
    (chain step r (xs.zip ys)).1.length = xs.length := by
  rw [length_chain, List.length_zip, ← hlength, Nat.min_self]

/-- What a chain of steps makes of two numbers of one length, before any reduction. -/
theorem Digitwise.littleEndian_chain {sign : Int}
    {step : Registers → UInt8 → UInt8 → Registers}
    (h : Digitwise 256 UInt8.toNat (fun _ => True) sign step) :
    (littleEndian (chain step r (xs.zip ys)).1 : Int) =
      littleEndian xs + sign * (littleEndian ys + carryBit r) -
        sign * (256 ^ xs.length * carryBit (chain step r (xs.zip ys)).2) := by
  have hvalid : ∀ pair ∈ xs.zip ys, True ∧ True := fun _ _ => ⟨trivial, trivial⟩
  have hchain := h.number_chain r hvalid
  rwa [List.map_fst_zip (Nat.le_of_eq hlength), List.map_snd_zip (Nat.le_of_eq hlength.symm),
    List.length_zip, ← hlength, Nat.min_self] at hchain

/-- The sum of two numbers and a carry, as far as there is room for it. The carry that is left
tells that there was no room. -/
theorem littleEndian_chain_adc :
    let added := chain (binaryStep .adc) r (xs.zip ys)
    littleEndian added.1 = (littleEndian xs + littleEndian ys + carryBit r) % 256 ^ xs.length ∧
      (added.2.flag Flag.carry = true ↔
        256 ^ xs.length ≤ littleEndian xs + littleEndian ys + carryBit r) := by
  intro added
  have hlt := littleEndian_lt added.1
  rw [show added.1.length = xs.length from length_chain_zip r hlength _] at hlt
  have hsum := digitwise_binaryAdc.littleEndian_chain r hlength
  rw [one_mul, one_mul, show chain (binaryStep .adc) r (xs.zip ys) = added from rfl] at hsum
  unfold carryBit at hsum ⊢
  cases hcarry : added.2.flag Flag.carry with
  | false =>
    have heq : littleEndian added.1 =
        littleEndian xs + littleEndian ys + (r.flag Flag.carry).toNat := by
      simp only [hcarry, Bool.toNat_false] at hsum
      omega
    rw [← heq, Nat.mod_eq_of_lt hlt]
    exact ⟨rfl, by simpa using hlt⟩
  | true =>
    have heq : littleEndian xs + littleEndian ys + (r.flag Flag.carry).toNat =
        littleEndian added.1 + 256 ^ xs.length := by
      simp only [hcarry, Bool.toNat_true, Nat.cast_one, mul_one] at hsum
      zify
      linarith
    rw [heq, Nat.add_mod_right, Nat.mod_eq_of_lt hlt]
    exact ⟨rfl, by simp⟩

/-- The difference of two numbers and a borrow, as far as there is room for it. The carry that is
left tells that it is negative. -/
theorem littleEndian_chain_sbc :
    let subtracted := chain (binaryStep .sbc) r (xs.zip ys)
    (littleEndian subtracted.1 : Int) =
        (littleEndian xs - littleEndian ys - carryBit r) % 256 ^ xs.length ∧
      (subtracted.2.flag Flag.carry = true ↔
        (littleEndian xs - littleEndian ys - carryBit r : Int) < 0) := by
  intro subtracted
  have hlt := littleEndian_lt subtracted.1
  rw [show subtracted.1.length = xs.length from length_chain_zip r hlength _] at hlt
  have hlt' : (littleEndian subtracted.1 : Int) < 256 ^ xs.length := by exact_mod_cast hlt
  have hnonneg : (0 : Int) ≤ littleEndian subtracted.1 := Int.natCast_nonneg _
  have hdifference := digitwise_binarySbc.littleEndian_chain r hlength
  rw [show chain (binaryStep .sbc) r (xs.zip ys) = subtracted from rfl] at hdifference
  -- the difference is the result, one lap of the room lower if there was a borrow
  have heq : (littleEndian xs - littleEndian ys - carryBit r : Int) =
      littleEndian subtracted.1 - 256 ^ xs.length * carryBit subtracted.2 := by
    linarith
  rw [heq, Int.sub_mul_emod_self_left, Int.emod_eq_of_lt hnonneg hlt']
  refine ⟨rfl, ?_⟩
  unfold carryBit
  cases hcarry : subtracted.2.flag Flag.carry with
  | false => simp
  | true => simpa using hlt'

end Chain

/-! ## Words -/

theorem toNat_high (w : UInt16) : (Word.high w).toNat = w.toNat / 256 := by
  have hlt := w.toNat_lt
  show (w >>> 8).toUInt8.toNat = _
  rw [UInt16.toNat_toUInt8, UInt16.toNat_shiftRight]
  show w.toNat >>> 8 % 256 = _
  rw [Nat.shiftRight_eq_div_pow]
  omega

theorem toNat_low (w : UInt16) : (Word.low w).toNat = w.toNat % 256 := UInt16.toNat_toUInt8 w

/-- What an addition without a carry sets. -/
theorem binaryStep_add (r : Registers) (x y : UInt8) :
    let o := add x y false
    (binaryStep .add r x y).a = o.value ∧ (binaryStep .add r x y).flag Flag.subtract = false ∧
      (binaryStep .add r x y).flag Flag.halfCarry = o.halfCarry ∧
      (binaryStep .add r x y).flag Flag.carry = o.carry :=
  ⟨rfl, flag_setFlags { r with a := x } _ _ _ _⟩

theorem binaryStep_add_sum (r : Registers) (x y : UInt8) :
    (binaryStep .add r x y).a.toNat + 256 * carryBit (binaryStep .add r x y) =
      x.toNat + y.toNat := by
  obtain ⟨hvalue, -, -, hcarry⟩ := binaryStep_add r x y
  exact sum_of_outcome hvalue hcarry

/-- The flags of an addition to HL are set one by one, and the zero flag is not among them. -/
theorem flags_addHl (r : Registers) (val : UInt16) :
    (addHl r val).flag Flag.zero = r.flag Flag.zero ∧
      (addHl r val).flag Flag.subtract = false ∧
      (addHl r val).flag Flag.halfCarry =
        decide (0x0FFF < r.hl.toNat % 0x1000 + val.toNat % 0x1000) ∧
      (addHl r val).flag Flag.carry = decide (0xFFFF < r.hl.toNat + val.toNat) := by
  have hall : ∀ (f : UInt8) (halfCarry carry : Bool),
      let f₁ := f &&& ~~~Flag.subtract
      let f₂ := if halfCarry then f₁ ||| Flag.halfCarry else f₁ &&& ~~~Flag.halfCarry
      let f₃ := if carry then f₂ ||| Flag.carry else f₂ &&& ~~~Flag.carry
      anySet f₃ Flag.zero = anySet f Flag.zero ∧ anySet f₃ Flag.subtract = false ∧
        anySet f₃ Flag.halfCarry = halfCarry ∧ anySet f₃ Flag.carry = carry :=
    forall_byte (by decide +kernel)
  exact hall r.f _ _

/-- What is left of the addition of a word to HL is what is left of two additions of bytes, the
low ones without a carry and the high ones with what they carry over. -/
structure SumsWords (r : Registers) (val : UInt16) (after : Registers) : Prop where
  value : after.hl = r.hl + val
  low : after.l = (binaryStep .add r (Word.low r.hl) (Word.low val)).a
  high : after.h = (binaryStep .adc (binaryStep .add r (Word.low r.hl) (Word.low val))
    (Word.high r.hl) (Word.high val)).a
  halfCarry : after.flag Flag.halfCarry =
    (binaryStep .adc (binaryStep .add r (Word.low r.hl) (Word.low val))
      (Word.high r.hl) (Word.high val)).flag Flag.halfCarry
  carry : after.flag Flag.carry =
    (binaryStep .adc (binaryStep .add r (Word.low r.hl) (Word.low val))
      (Word.high r.hl) (Word.high val)).flag Flag.carry
  zero : after.flag Flag.zero = r.flag Flag.zero
  subtract : after.flag Flag.subtract = false
  others : after = { r with h := after.h, l := after.l, f := after.f }

theorem sumsWords_addHl (r : Registers) (val : UInt16) : SumsWords r val (addHl r val) := by
  obtain ⟨hzero, hsubtract, hhalf, hcarry⟩ := flags_addHl r val
  let low := binaryStep .add r (Word.low r.hl) (Word.low val)
  let high := binaryStep .adc low (Word.high r.hl) (Word.high val)
  obtain ⟨-, -, hhalf', hcarry'⟩ := apply_adc { low with a := Word.high r.hl } (Word.high val)
  have hlow : low.a.toNat + 256 * carryBit low = r.hl.toNat % 256 + val.toNat % 256 := by
    rw [← toNat_low, ← toNat_low]
    exact binaryStep_add_sum r (Word.low r.hl) (Word.low val)
  have hhigh : high.a.toNat + 256 * carryBit high =
      r.hl.toNat / 256 + val.toNat / 256 + carryBit low := by
    rw [← toNat_high, ← toNat_high]
    exact binaryStep_adc low (Word.high r.hl) (Word.high val)
  have hsum : (r.hl + val).toNat = (r.hl.toNat + val.toNat) % 65536 := UInt16.toNat_add _ _
  have hx := r.hl.toNat_lt
  have hy := val.toNat_lt
  have hlt := low.a.toNat_lt
  have hlt' := high.a.toNat_lt
  refine ⟨Word.ofBytes_high_low _, UInt8.toNat_inj.1 ?_, UInt8.toNat_inj.1 ?_,
    hhalf.trans (Eq.trans (decide_eq_decide.2 ?_) hhalf'.symm),
    hcarry.trans (Eq.trans (decide_eq_decide.2 ?_) hcarry'.symm), hzero, hsubtract, rfl⟩
  · show (Word.low (r.hl + val)).toNat = low.a.toNat
    rw [toNat_low, hsum]
    omega
  · show (Word.high (r.hl + val)).toNat = high.a.toNat
    rw [toNat_high, hsum]
    omega
  -- what the low bytes carry over counts in the half of the high bytes and in the whole of them
  · show _ ↔ 15 < (Word.high r.hl).toNat % 16 + (Word.high val).toNat % 16 + carryBit low
    rw [toNat_high, toNat_high]
    omega
  · show _ ↔ 255 < (Word.high r.hl).toNat + (Word.high val).toNat + carryBit low
    rw [toNat_high, toNat_high]
    omega

/-! ## Offsets to the stack pointer -/

theorem flag_zero_setFlags (r : Registers) (zero subtract halfCarry carry : Bool) :
    (r.setFlags zero subtract halfCarry carry).flag Flag.zero = zero := by
  have hall : ∀ zero subtract halfCarry carry : Bool,
      anySet (bitsIf zero Flag.zero ||| bitsIf subtract Flag.subtract
        ||| bitsIf halfCarry Flag.halfCarry ||| bitsIf carry Flag.carry) Flag.zero = zero := by
    decide
  exact hall zero subtract halfCarry carry

theorem toNat_signExtend :
    ∀ offset : UInt8, ((Word.signExtend offset).toNat : Int) = offset.toInt8.toInt % 65536 :=
  forall_byte (by decide +kernel)

/-- A signed offset is added to the stack pointer as a whole. The carries are those of adding it
as a byte to the low byte, and the other flags are clear. -/
structure SumsOffset (r : Registers) (offset : UInt8) (sum : UInt16) (after : Registers) : Prop
    where
  value : (sum.toNat : Int) = (r.sp.toNat + offset.toInt8.toInt) % 65536
  halfCarry : after.flag Flag.halfCarry =
    (binaryStep .add r (Word.low r.sp) offset).flag Flag.halfCarry
  carry : after.flag Flag.carry = (binaryStep .add r (Word.low r.sp) offset).flag Flag.carry
  zero : after.flag Flag.zero = false
  subtract : after.flag Flag.subtract = false

/-- Of the registers, only the stack pointer before and the flags after count. -/
theorem SumsOffset.congr {r r' after after' : Registers} {offset : UInt8} {sum : UInt16}
    (h : SumsOffset r offset sum after) (hsp : r'.sp = r.sp) (hf : after'.f = after.f) :
    SumsOffset r' offset sum after' := by
  have hflag : ∀ mask, after'.flag mask = after.flag mask := fun mask =>
    congrArg (anySet · mask) hf
  obtain ⟨-, -, hhalf, hcarry⟩ := binaryStep_add r (Word.low r.sp) offset
  obtain ⟨-, -, hhalf', hcarry'⟩ := binaryStep_add r' (Word.low r'.sp) offset
  rw [hsp] at hhalf' hcarry'
  refine ⟨hsp ▸ h.value, ?_, ?_, (hflag _).trans h.zero, (hflag _).trans h.subtract⟩
  · rw [hflag, h.halfCarry, hsp, hhalf, hhalf']
  · rw [hflag, h.carry, hsp, hcarry, hcarry']

/-- Sums of words that are cut down to a nibble or a byte carry as sums of bytes do. -/
theorem carries_low (sp : UInt16) (offset : UInt8) :
    decide (0x0F < (sp &&& 0x0F) + (offset.toUInt16 &&& 0x0F)) =
        (add (Word.low sp) offset false).halfCarry ∧
      decide (0xFF < (sp &&& 0xFF) + offset.toUInt16) =
        (add (Word.low sp) offset false).carry := by
  have hoffset := offset.toNat_lt
  have hnibble : ∀ w : UInt16, (w &&& 0x0F).toNat = w.toNat % 16 := fun w =>
    (UInt16.toNat_and w 0x0F).trans (Nat.and_two_pow_sub_one_eq_mod w.toNat 4)
  have hbyte : ∀ w : UInt16, (w &&& 0xFF).toNat = w.toNat % 256 := fun w =>
    (UInt16.toNat_and w 0xFF).trans (Nat.and_two_pow_sub_one_eq_mod w.toNat 8)
  constructor
  · refine decide_eq_decide.2 ?_
    rw [UInt16.lt_iff_toNat_lt, UInt16.toNat_add, hnibble, hnibble, UInt8.toNat_toUInt16, toNat_low]
    show 15 < _ ↔ _
    rw [Bool.toNat_false]
    omega
  · refine decide_eq_decide.2 ?_
    rw [UInt16.lt_iff_toNat_lt, UInt16.toNat_add, hbyte, UInt8.toNat_toUInt16, toNat_low]
    show 255 < _ ↔ _
    rw [Bool.toNat_false]
    omega

theorem sumsOffset_spPlus (r : Registers) (offset : UInt8) :
    SumsOffset r offset (spPlus r offset).1 (spPlus r offset).2 := by
  obtain ⟨hsubtract, hhalf, hcarry⟩ := flag_setFlags r false false
    (0x0F < (r.sp &&& 0x0F) + (offset.toUInt16 &&& 0x0F)) (0xFF < (r.sp &&& 0xFF) + offset.toUInt16)
  obtain ⟨hhalf', hcarry'⟩ := carries_low r.sp offset
  obtain ⟨-, -, hhalf'', hcarry''⟩ := binaryStep_add r (Word.low r.sp) offset
  refine ⟨?_, (hhalf.trans hhalf').trans hhalf''.symm, (hcarry.trans hcarry').trans hcarry''.symm,
    flag_zero_setFlags _ _ _ _ _, hsubtract⟩
  have hoffset := toNat_signExtend offset
  show ((r.sp + Word.signExtend offset).toNat : Int) = _
  rw [UInt16.toNat_add]
  omega

end Alu

namespace Core

variable {τ : Type} [Timeline τ]

/-! ## The instructions -/

theorem registers_execute_alu (s : Core τ) (enabling : Bool) (op : Alu.Op) (source : Operand) :
    (s.execute enabling (.alu op source)).registers =
      Alu.apply s.registers op (s.readOperand source).1 := by
  cases source <;> rfl

theorem sumsOffset_addSp (s : Core τ) (enabling : Bool) :
    let after := (s.execute enabling .addSp).registers
    Alu.SumsOffset s.registers s.fetchByte.1 after.sp after ∧
      after = { s.registers with sp := after.sp, f := after.f, pc := s.registers.pc + 1 } := by
  -- the offset has been fetched by the time that it is added
  have hsum := Alu.sumsOffset_spPlus s.fetchByte.2.registers s.fetchByte.1
  exact ⟨hsum.congr rfl rfl, rfl⟩

theorem sumsOffset_loadHlSp (s : Core τ) (enabling : Bool) :
    let after := (s.execute enabling .loadHlSp).registers
    Alu.SumsOffset s.registers s.fetchByte.1 after.hl after ∧
      after = { s.registers with
        h := after.h, l := after.l, f := after.f, pc := s.registers.pc + 1 } := by
  intro after
  have hsum := Alu.sumsOffset_spPlus s.fetchByte.2.registers s.fetchByte.1
  have hvalue : after.hl = (Alu.spPlus s.fetchByte.2.registers s.fetchByte.1).1 :=
    Word.ofBytes_high_low _
  rw [hvalue]
  exact ⟨hsum.congr rfl rfl, rfl⟩

/-- All adders of the processor agree. A chain of additions or subtractions with the carry that is
in the flags computes with numbers of any length, and leaves a carry if the result had no room or
was negative. Adding a pair to HL leaves what a chain of two bytes leaves, but for the zero flag,
which it keeps. Adding a signed offset to the stack pointer takes the carries from its low byte. A
comparison is a subtraction that leaves the accumulator as it was. -/
theorem adders_agree (s : Core τ) (enabling : Bool) {xs ys : List UInt8}
    (hlength : xs.length = ys.length) :
    let r := s.registers
    let added := Alu.chain (Alu.binaryStep .adc) r (xs.zip ys)
    let subtracted := Alu.chain (Alu.binaryStep .sbc) r (xs.zip ys)
    let x := Alu.littleEndian xs
    let y := Alu.littleEndian ys
    (added.1.length = xs.length ∧
        Alu.littleEndian added.1 = (x + y + Alu.carryBit r) % 256 ^ xs.length ∧
        (added.2.flag Flag.carry = true ↔ 256 ^ xs.length ≤ x + y + Alu.carryBit r)) ∧
      (subtracted.1.length = xs.length ∧
        (Alu.littleEndian subtracted.1 : Int) = (x - y - Alu.carryBit r) % 256 ^ xs.length ∧
        (subtracted.2.flag Flag.carry = true ↔ (x - y - Alu.carryBit r : Int) < 0)) ∧
      (∀ pair, Alu.SumsWords r (r.get pair) (s.execute enabling (.addHl pair)).registers) ∧
      (let after := (s.execute enabling .addSp).registers
       Alu.SumsOffset r s.fetchByte.1 after.sp after ∧
         after = { r with sp := after.sp, f := after.f, pc := r.pc + 1 }) ∧
      (let after := (s.execute enabling .loadHlSp).registers
       Alu.SumsOffset r s.fetchByte.1 after.hl after ∧
         after = { r with h := after.h, l := after.l, f := after.f, pc := r.pc + 1 }) ∧
      Instruction.decode? 0xE8 = some .addSp ∧ Instruction.decode? 0xF8 = some .loadHlSp ∧
      (∀ source, (s.execute enabling (.alu .cp source)).registers =
        { (s.execute enabling (.alu .sub source)).registers with a := r.a }) ∧
      (s.execute enabling (.aluImmediate .cp)).registers =
        { (s.execute enabling (.aluImmediate .sub)).registers with a := r.a } := by
  intro r added subtracted x y
  refine ⟨⟨Alu.length_chain_zip r hlength _, Alu.littleEndian_chain_adc r hlength⟩,
    ⟨Alu.length_chain_zip r hlength _, Alu.littleEndian_chain_sbc r hlength⟩,
    fun pair => Alu.sumsWords_addHl r (r.get pair), s.sumsOffset_addSp enabling,
    s.sumsOffset_loadHlSp enabling, rfl, rfl, fun source => ?_, rfl⟩
  rw [registers_execute_alu, registers_execute_alu]
  rfl

/-- Four bytes roll over, upwards and back again, and the carry is what is left. -/
theorem adders_agree_rollOver :
    let m := Machine.ofProgram []
    let s : Core Float := ⟨{ m.cpu with registers := .powerOn }, m.bus, 0⟩
    let added := Alu.chain (Alu.binaryStep .adc) s.registers
      [(0xFF, 0x01), (0xFF, 0x00), (0xFF, 0x00), (0xFF, 0x00)]
    let subtracted := Alu.chain (Alu.binaryStep .sbc) s.registers
      [(0x00, 0x01), (0x00, 0x00), (0x00, 0x00), (0x00, 0x00)]
    (Alu.littleEndian added.1 = 0 ∧ added.2.flag Flag.carry = true) ∧
      Alu.littleEndian subtracted.1 = 0xFFFFFFFF ∧ subtracted.2.flag Flag.carry = true := by
  intro m s added subtracted
  obtain ⟨⟨-, hsum, hover⟩, -⟩ := adders_agree s false
    (show [0xFF, 0xFF, 0xFF, 0xFF].length = [0x01, 0x00, 0x00, 0x00].length from rfl)
  obtain ⟨-, ⟨-, hdifference, hunder⟩, -⟩ := adders_agree s false
    (show [0x00, 0x00, 0x00, 0x00].length = [0x01, 0x00, 0x00, 0x00].length from rfl)
  refine ⟨⟨hsum.trans (by decide), hover.2 (by decide)⟩, ?_, hunder.2 (by decide)⟩
  exact Int.ofNat_inj.1 (hdifference.trans (by decide))

end Core

end DotMatrix
