/-!
# Bytes and words

Registers are bytes, addresses are words. A word is written as its high byte followed by its
low byte; `high_ofBytes`, `low_ofBytes` and `ofBytes_high_low` say that the two readings agree.
-/

namespace DotMatrix.Word

def high (w : UInt16) : UInt8 := (w >>> 8).toUInt8

def low (w : UInt16) : UInt8 := w.toUInt8

def ofBytes (hi lo : UInt8) : UInt16 := (hi.toUInt16 <<< 8) ||| lo.toUInt16

/-- A byte read as a two's complement offset and extended to a word. -/
def signExtend (b : UInt8) : UInt16 := b.toInt8.toInt16.toUInt16

theorem high_ofBytes (hi lo : UInt8) : high (ofBytes hi lo) = hi := by
  apply UInt8.toBitVec_inj.1
  ext i
  simp [high, ofBytes]
  grind

theorem low_ofBytes (hi lo : UInt8) : low (ofBytes hi lo) = lo := by
  apply UInt8.toBitVec_inj.1
  ext i
  simp [low, ofBytes]

theorem ofBytes_high_low (w : UInt16) : ofBytes (high w) (low w) = w := by
  apply UInt16.toBitVec_inj.1
  ext i
  simp only [high, low, ofBytes, UInt16.toBitVec_or, UInt16.toBitVec_shiftLeft,
    UInt8.toBitVec_toUInt16, UInt16.toBitVec_toUInt8, UInt16.toBitVec_shiftRight]
  simp
  grind

end DotMatrix.Word

namespace DotMatrix

/-- What holds of the bytes that numbers stand for holds of every byte. -/
theorem forall_byte {P : UInt8 → Prop} (h : ∀ n : Fin 256, P n.val.toUInt8) (b : UInt8) : P b := by
  have hb := h ⟨b.toNat, b.toNat_lt⟩
  rwa [show b.toNat.toUInt8 = b by simp] at hb

/-- Some bit selected by `mask` is set in `b`. -/
def anySet (b mask : UInt8) : Bool := b &&& mask != 0

/-- `mask` when the condition holds, no bits otherwise. -/
def bitsIf (on : Bool) (mask : UInt8) : UInt8 := if on then mask else 0

/-- A mask of one bit looks at that bit. -/
theorem anySet_bit (val mask : UInt8) (i : Nat) (hmask : mask.toNat = 1 <<< i) :
    anySet val mask = val.toNat.testBit i := by
  have hbits : ∀ k, (val &&& mask).toNat.testBit k = (val.toNat.testBit k && decide (i = k)) := by
    intro k
    rw [UInt8.toNat_and, hmask, Nat.one_shiftLeft, Nat.testBit_and, Nat.testBit_two_pow]
  unfold anySet
  cases hbit : val.toNat.testBit i with
  | false =>
    have hzero : (val &&& mask).toNat = 0 := by
      refine Nat.eq_of_testBit_eq fun k => ?_
      rw [hbits, Nat.zero_testBit]
      by_cases hk : i = k
      · rw [← hk, hbit, Bool.false_and]
      · simp [hk]
    simpa using UInt8.toNat_inj.1 hzero
  | true =>
    have hset := hbits i
    rw [hbit] at hset
    refine bne_iff_ne.2 fun hzero => ?_
    simp [hzero] at hset

theorem or_and (a b mask : UInt8) : (a ||| b) &&& mask = (a &&& mask) ||| (b &&& mask) :=
  UInt8.toBitVec_inj.1 BitVec.and_or_distrib_right

end DotMatrix
