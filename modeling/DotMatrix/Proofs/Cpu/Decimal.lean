import DotMatrix.Cpu.Alu
import Mathlib.Data.Nat.Digits.Defs
import Mathlib.Tactic.Ring

/-!
# Numbers of several bytes

A number longer than a byte is added byte by byte, the least significant first, and the carry goes
from one byte to the next in the flags. `Digitwise.number_chain` says that whatever is right for
one byte is right for all of them. Packed decimals have two digits in a byte. An addition or
subtraction of bytes is wrong for them until the accumulator is corrected, and `decimal_chain` says
that then the whole chain is right.
-/

namespace DotMatrix.Alu

/-! ## Chains -/

/-- Two numbers go through the accumulator byte by byte, with the flags of one byte handed to the
next. The answer has the results and the registers that are left. -/
def chain (step : Registers → UInt8 → UInt8 → Registers) (r : Registers) :
    List (UInt8 × UInt8) → List UInt8 × Registers
  | [] => ([], r)
  | (x, y) :: rest =>
    let r := step r x y
    let (bytes, last) := chain step r rest
    (r.a :: bytes, last)

/-- The number that bytes stand for, the least significant first, if each of them stands for a
digit. -/
def number (base : Nat) (digit : UInt8 → Nat) (bytes : List UInt8) : Nat :=
  Nat.ofDigits base (bytes.map digit)

def carryBit (r : Registers) : Nat := (r.flag Flag.carry).toNat

/-- A step adds digits, or subtracts them if the sign is negative, with a carry in and a carry
out. -/
structure Digitwise (base : Nat) (digit : UInt8 → Nat) (valid : UInt8 → Prop) (sign : Int)
    (step : Registers → UInt8 → UInt8 → Registers) : Prop where
  result : ∀ r x y, valid x → valid y → valid (step r x y).a
  value : ∀ r x y, valid x → valid y → (digit (step r x y).a : Int) =
    digit x + sign * (digit y + carryBit r) - sign * (base * carryBit (step r x y))

section Chain

variable {base : Nat} {digit : UInt8 → Nat} {valid : UInt8 → Prop} {sign : Int}
  {step : Registers → UInt8 → UInt8 → Registers}

theorem length_chain (r : Registers) (pairs : List (UInt8 × UInt8)) :
    (chain step r pairs).1.length = pairs.length := by
  induction pairs generalizing r with
  | nil => rfl
  | cons pair rest ih => exact congrArg (· + 1) (ih _)

theorem Digitwise.valid_chain (h : Digitwise base digit valid sign step) (r : Registers)
    {pairs : List (UInt8 × UInt8)} (hvalid : ∀ pair ∈ pairs, valid pair.1 ∧ valid pair.2) :
    ∀ z ∈ (chain step r pairs).1, valid z := by
  induction pairs generalizing r with
  | nil => exact fun z hz => absurd hz List.not_mem_nil
  | cons pair rest ih =>
    obtain ⟨hx, hy⟩ := hvalid pair List.mem_cons_self
    intro z hz
    rcases List.mem_cons.1 hz with rfl | hz
    · exact h.result r _ _ hx hy
    · exact ih _ (fun pair hmem => hvalid pair (List.mem_cons_of_mem _ hmem)) z hz

/-- What a step does to digits, the chain does to numbers of any length. -/
theorem Digitwise.number_chain (h : Digitwise base digit valid sign step) (r : Registers)
    {pairs : List (UInt8 × UInt8)} (hvalid : ∀ pair ∈ pairs, valid pair.1 ∧ valid pair.2) :
    (number base digit (chain step r pairs).1 : Int) =
      number base digit (pairs.map Prod.fst) +
        sign * (number base digit (pairs.map Prod.snd) + carryBit r) -
        sign * (base ^ pairs.length * carryBit (chain step r pairs).2) := by
  induction pairs generalizing r with
  | nil => simp [number, chain]
  | cons pair rest ih =>
    obtain ⟨x, y⟩ := pair
    obtain ⟨hx, hy⟩ := hvalid (x, y) List.mem_cons_self
    have hdigit := h.value r x y hx hy
    have hrest := ih (step r x y) fun pair hmem => hvalid pair (List.mem_cons_of_mem _ hmem)
    have hlast : (chain step r ((x, y) :: rest)).2 = (chain step (step r x y) rest).2 := rfl
    have hbytes : (chain step r ((x, y) :: rest)).1 =
        (step r x y).a :: (chain step (step r x y) rest).1 := rfl
    -- the carry out of the first byte is the carry into the rest
    rw [hlast, hbytes]
    simp only [number, List.map_cons, Nat.ofDigits_cons, List.length_cons] at hrest ⊢
    push_cast at hrest ⊢
    rw [hdigit, hrest]
    ring

end Chain

/-! ## Packed decimals -/

/-- Both halves of the byte are decimal digits. -/
def IsDecimal (b : UInt8) : Prop := b.toNat / 16 ≤ 9 ∧ b.toNat % 16 ≤ 9

instance (b : UInt8) : Decidable (IsDecimal b) := inferInstanceAs (Decidable (_ ∧ _))

/-- The two digits of a byte as a number below a hundred. -/
def decimal (b : UInt8) : Nat := b.toNat / 16 * 10 + b.toNat % 16

/-- One byte of a chain: the accumulator is loaded, the other byte added or subtracted, and the
result corrected. -/
def decimalStep (op : Op) (r : Registers) (x y : UInt8) : Registers :=
  decimalAdjust (apply { r with a := x } op y)

theorem flag_setFlags (r : Registers) (zero subtract halfCarry carry : Bool) :
    (r.setFlags zero subtract halfCarry carry).flag Flag.subtract = subtract ∧
      (r.setFlags zero subtract halfCarry carry).flag Flag.halfCarry = halfCarry ∧
      (r.setFlags zero subtract halfCarry carry).flag Flag.carry = carry := by
  have hall : ∀ zero subtract halfCarry carry : Bool,
      let f := bitsIf zero Flag.zero ||| bitsIf subtract Flag.subtract
        ||| bitsIf halfCarry Flag.halfCarry ||| bitsIf carry Flag.carry
      anySet f Flag.subtract = subtract ∧ anySet f Flag.halfCarry = halfCarry ∧
        anySet f Flag.carry = carry := by
    decide
  exact hall zero subtract halfCarry carry

theorem toNat_and_fifteen (b : UInt8) : (b &&& 0x0F).toNat = b.toNat % 16 := by
  rw [UInt8.toNat_and]
  exact Nat.and_two_pow_sub_one_eq_mod b.toNat 4

/-- What is added to or subtracted from the digits that are out of range. -/
theorem toNat_correction (low high : Bool) :
    (bitsIf low 0x06 ||| bitsIf high 0x60).toNat = 6 * low.toNat + 96 * high.toNat := by
  revert low high
  decide

/-- After an addition the correction looks at the digits as well as at the flags. -/
theorem decimalAdjust_of_add {r : Registers} (h : r.flag Flag.subtract = false) :
    let low := r.flag Flag.halfCarry || decide (9 < r.a.toNat % 16)
    let high := r.flag Flag.carry || decide (0x99 < r.a.toNat)
    (decimalAdjust r).a.toNat = (r.a.toNat + (6 * low.toNat + 96 * high.toNat)) % 256 ∧
      (decimalAdjust r).flag Flag.carry = high := by
  intro low high
  have hlow : decide (9 < r.a &&& 0x0F) = decide (9 < r.a.toNat % 16) := by
    rw [← toNat_and_fifteen]
    rfl
  unfold decimalAdjust
  simp only [h, hlow, Bool.not_false, Bool.true_and, Bool.false_eq_true, if_false]
  refine ⟨?_, (flag_setFlags r _ _ _ _).2.2⟩
  rw [UInt8.toNat_add, toNat_correction]
  rfl

/-- After a subtraction the flags alone say which digits were borrowed from. -/
theorem decimalAdjust_of_sub {r : Registers} (h : r.flag Flag.subtract = true) :
    (decimalAdjust r).a.toNat = (256 - (6 * (r.flag Flag.halfCarry).toNat +
        96 * (r.flag Flag.carry).toNat) + r.a.toNat) % 256 ∧
      (decimalAdjust r).flag Flag.carry = r.flag Flag.carry := by
  unfold decimalAdjust
  simp only [h, Bool.not_true, Bool.false_and, Bool.or_false, if_true]
  refine ⟨?_, (flag_setFlags r _ _ _ _).2.2⟩
  rw [UInt8.toNat_sub, toNat_correction]

theorem toNat_addValue (a b : UInt8) (carry : Bool) :
    (add a b carry).value.toNat = (a.toNat + b.toNat + carry.toNat) % 256 := UInt8.toNat_ofNat

theorem toNat_subValue (a b : UInt8) (borrow : Bool) :
    (sub a b borrow).value.toNat = (512 + a.toNat - b.toNat - borrow.toNat) % 256 := by
  have ha := a.toNat_lt
  have hb := b.toNat_lt
  show (a - b - borrow.toNat.toUInt8).toNat = _
  rw [UInt8.toNat_sub, UInt8.toNat_sub]
  cases borrow <;> simp <;> omega

/-- What an addition with carry leaves for the correction. -/
theorem apply_adc (r : Registers) (y : UInt8) :
    let o := add r.a y (r.flag Flag.carry)
    (apply r .adc y).a = o.value ∧ (apply r .adc y).flag Flag.subtract = false ∧
      (apply r .adc y).flag Flag.halfCarry = o.halfCarry ∧
      (apply r .adc y).flag Flag.carry = o.carry :=
  ⟨rfl, flag_setFlags r _ _ _ _⟩

theorem apply_sbc (r : Registers) (y : UInt8) :
    let o := sub r.a y (r.flag Flag.carry)
    (apply r .sbc y).a = o.value ∧ (apply r .sbc y).flag Flag.subtract = true ∧
      (apply r .sbc y).flag Flag.halfCarry = o.halfCarry ∧
      (apply r .sbc y).flag Flag.carry = o.carry :=
  ⟨rfl, flag_setFlags r _ _ _ _⟩

/-- The correction of a sum: six goes to each digit that is over nine or carried over. -/
theorem corrected_sum {x y c : Nat} (hx : x / 16 ≤ 9 ∧ x % 16 ≤ 9) (hy : y / 16 ≤ 9 ∧ y % 16 ≤ 9)
    (hc : c ≤ 1) :
    let sum := (x + y + c) % 256
    let low := decide (15 < x % 16 + y % 16 + c) || decide (9 < sum % 16)
    let high := decide (255 < x + y + c) || decide (0x99 < sum)
    let z := (sum + (6 * low.toNat + 96 * high.toNat)) % 256
    (z / 16 ≤ 9 ∧ z % 16 ≤ 9) ∧
      z / 16 * 10 + z % 16 + 100 * high.toNat =
        x / 16 * 10 + x % 16 + (y / 16 * 10 + y % 16) + c := by
  intro sum low high z
  have hlow : low = decide (9 < x % 16 + y % 16 + c) := by
    simp only [low, sum, ← Bool.decide_or]
    exact decide_eq_decide.2 (by omega)
  have hhigh : high = decide (0x99 < x + y + c) := by
    simp only [high, sum, ← Bool.decide_or]
    exact decide_eq_decide.2 (by omega)
  simp only [z, hlow, hhigh]
  by_cases hl : 9 < x % 16 + y % 16 + c <;> by_cases hh : 0x99 < x + y + c <;>
    simp only [hl, hh, decide_true, decide_false, Bool.toNat_true, Bool.toNat_false, sum] <;>
    omega

/-- The correction of a difference: six is taken from each digit that had to borrow. -/
theorem corrected_difference {x y c : Nat} (hx : x / 16 ≤ 9 ∧ x % 16 ≤ 9)
    (hy : y / 16 ≤ 9 ∧ y % 16 ≤ 9) (hc : c ≤ 1) :
    let difference := (512 + x - y - c) % 256
    let low := decide (x % 16 < y % 16 + c)
    let high := decide (x < y + c)
    let z := (256 - (6 * low.toNat + 96 * high.toNat) + difference) % 256
    (z / 16 ≤ 9 ∧ z % 16 ≤ 9) ∧
      z / 16 * 10 + z % 16 + (y / 16 * 10 + y % 16) + c =
        x / 16 * 10 + x % 16 + 100 * high.toNat := by
  intro difference low high z
  by_cases hl : x % 16 < y % 16 + c <;> by_cases hh : x < y + c <;>
    simp only [z, low, high, difference, hl, hh, decide_true, decide_false, Bool.toNat_true,
      Bool.toNat_false] <;>
    omega

theorem carryBit_le (r : Registers) : carryBit r ≤ 1 := Bool.toNat_le _

theorem decimalStep_adc (r : Registers) {x y : UInt8} (hx : IsDecimal x) (hy : IsDecimal y) :
    IsDecimal (decimalStep .adc r x y).a ∧
      decimal (decimalStep .adc r x y).a + 100 * carryBit (decimalStep .adc r x y) =
        decimal x + decimal y + carryBit r := by
  obtain ⟨hvalue, hsub, hhalf, hcarry⟩ := apply_adc { r with a := x } y
  obtain ⟨hres, hout⟩ := decimalAdjust_of_add hsub
  rw [hvalue, hhalf, hcarry, toNat_addValue] at hres
  rw [hvalue, hcarry, toNat_addValue] at hout
  have harith := corrected_sum hx hy (carryBit_le r)
  unfold IsDecimal decimal
  rw [show (decimalStep .adc r x y).a.toNat = _ from hres,
    show carryBit (decimalStep .adc r x y) = _ from congrArg Bool.toNat hout]
  exact harith

theorem decimalStep_sbc (r : Registers) {x y : UInt8} (hx : IsDecimal x) (hy : IsDecimal y) :
    IsDecimal (decimalStep .sbc r x y).a ∧
      decimal (decimalStep .sbc r x y).a + decimal y + carryBit r =
        decimal x + 100 * carryBit (decimalStep .sbc r x y) := by
  obtain ⟨hvalue, hsub, hhalf, hcarry⟩ := apply_sbc { r with a := x } y
  obtain ⟨hres, hout⟩ := decimalAdjust_of_sub hsub
  rw [hvalue, hhalf, hcarry, toNat_subValue] at hres
  rw [hcarry] at hout
  have harith := corrected_difference hx hy (carryBit_le r)
  unfold IsDecimal decimal
  rw [show (decimalStep .sbc r x y).a.toNat = _ from hres,
    show carryBit (decimalStep .sbc r x y) = _ from congrArg Bool.toNat hout]
  exact harith

theorem digitwise_adc : Digitwise 100 decimal IsDecimal 1 (decimalStep .adc) where
  result r _ _ hx hy := (decimalStep_adc r hx hy).1
  value r _ _ hx hy := by
    have := (decimalStep_adc r hx hy).2
    omega

theorem digitwise_sbc : Digitwise 100 decimal IsDecimal (-1) (decimalStep .sbc) where
  result r _ _ hx hy := (decimalStep_sbc r hx hy).1
  value r _ _ hx hy := by
    have := (decimalStep_sbc r hx hy).2
    omega

/-- Packed decimal numbers of any length are added and subtracted digit by digit, whatever carry
comes in and whatever else is in the registers. The results are packed decimals again, and the
carry that is left stands for the digit beyond them. -/
theorem decimal_chain (r : Registers) {xs ys : List UInt8} (hlength : xs.length = ys.length)
    (hxs : ∀ x ∈ xs, IsDecimal x) (hys : ∀ y ∈ ys, IsDecimal y) :
    let packed := number 100 decimal
    let added := chain (decimalStep .adc) r (xs.zip ys)
    let subtracted := chain (decimalStep .sbc) r (xs.zip ys)
    (added.1.length = xs.length ∧ (∀ z ∈ added.1, IsDecimal z) ∧
        (packed added.1 : Int) =
          packed xs + packed ys + carryBit r - carryBit added.2 * 100 ^ xs.length) ∧
      subtracted.1.length = xs.length ∧ (∀ z ∈ subtracted.1, IsDecimal z) ∧
        (packed subtracted.1 : Int) =
          packed xs - packed ys - carryBit r + carryBit subtracted.2 * 100 ^ xs.length := by
  intro packed added subtracted
  have hzip : (xs.zip ys).length = xs.length := by simp [hlength]
  have hvalid : ∀ pair ∈ xs.zip ys, IsDecimal pair.1 ∧ IsDecimal pair.2 :=
    fun pair hmem => ⟨hxs _ (List.of_mem_zip hmem).1, hys _ (List.of_mem_zip hmem).2⟩
  have hadd := digitwise_adc.number_chain r hvalid
  have hsub := digitwise_sbc.number_chain r hvalid
  rw [List.map_fst_zip (Nat.le_of_eq hlength), List.map_snd_zip (Nat.le_of_eq hlength.symm),
    hzip] at hadd hsub
  refine ⟨⟨(length_chain r _).trans hzip, digitwise_adc.valid_chain r hvalid, ?_⟩,
    (length_chain r _).trans hzip, digitwise_sbc.valid_chain r hvalid, ?_⟩
  · rw [hadd]
    push_cast
    ring
  · rw [hsub]
    push_cast
    ring

/-- All digits roll over, upwards and back again. -/
theorem decimal_chain_rollOver :
    let added := chain (decimalStep .adc) .powerOn [(0x99, 0x01), (0x99, 0x00)]
    let subtracted := chain (decimalStep .sbc) .powerOn [(0x00, 0x01), (0x00, 0x00)]
    (number 100 decimal added.1 : Int) = 9999 + 1 - 100 ^ 2 ∧ carryBit added.2 = 1 ∧
      (number 100 decimal subtracted.1 : Int) = 0 - 1 + 100 ^ 2 ∧ carryBit subtracted.2 = 1 := by
  intro added subtracted
  have hadd := (@decimal_chain .powerOn [0x99, 0x99] [0x01, 0x00] rfl (by simp [IsDecimal])
    (by simp [IsDecimal])).1.2.2
  have hsub := (@decimal_chain .powerOn [0x00, 0x00] [0x01, 0x00] rfl (by simp [IsDecimal])
    (by simp [IsDecimal])).2.2.2
  have hover : carryBit added.2 = 1 := by decide
  have hunder : carryBit subtracted.2 = 1 := by decide
  refine ⟨hadd.trans ?_, hover, hsub.trans ?_, hunder⟩
  · show _ - (carryBit added.2 : Int) * _ = _
    rw [hover]
    rfl
  · show _ + (carryBit subtracted.2 : Int) * _ = _
    rw [hunder]
    rfl

end DotMatrix.Alu
