import Mathlib

/-!
# Binary floating-point numbers that are exact

A finite float stands for a rational number (`number?`). Sums and differences are rounded, but not
if the result is a multiple of a power of one half with less than fifty-four bits (`Short`): then
they are the sums and differences of the numbers (`number?_add`, `number?_sub`). In the same way
natural numbers below 2^53 become floats and floats become whole numbers (`number?_ofNat`,
`toUInt64_of_number?`).
-/

namespace DotMatrix.Binary64

open Float.Model (UnpackedFloat Format totalExponent)
open Float.Model.UnpackedFloat

/-! ## Numbers -/

/-- The number with a sign, a mantissa and an exponent. -/
def signed (s : Sign) (m : ℕ) (e : ℤ) : ℚ := (s.apply m : ℤ) * 2 ^ e

theorem signed_positive (m : ℕ) (e : ℤ) : signed .positive m e = m * 2 ^ e := by
  simp [signed, Sign.apply]

theorem signed_neg (s : Sign) (m : ℕ) (e : ℤ) : signed (-s) m e = -signed s m e := by
  cases s
  · exact (by simp [signed, Sign.apply] : signed .positive m e = -signed .negative m e)
  · exact (by simp [signed, Sign.apply] : signed .negative m e = -signed .positive m e)

/-- The number that an unpacked float stands for, if it is finite. -/
def unpackedNumber? : UnpackedFloat → Option ℚ
  | .zero _ => some 0
  | .finite s m e _ => some (signed s m e)
  | _ => none

/-- The number that a float stands for, if it is finite. -/
def number? (x : Float) : Option ℚ := unpackedNumber? x.toModel.unpack

/-- A multiple of a power of one half, of at most fifty-three bits. -/
def Short (q : ℚ) : Prop := ∃ (z : ℤ) (k : ℕ), z.natAbs < 2 ^ 53 ∧ k ≤ 1022 ∧ q = z / 2 ^ k

theorem short_natCast {n : ℕ} (h : n < 2 ^ 53) : Short n :=
  ⟨n, 0, by simpa using h, by decide, by simp⟩

/-! ## Mantissas and exponents in their normal form -/

/-- The mantissa and exponent of a finite float that is not zero. -/
structure Canonical (m : ℕ) (e : ℤ) : Prop where
  pos : 0 < m
  lt : m < 2 ^ 53
  min : -1074 ≤ e
  max : e ≤ 971
  normal : 2 ^ 52 ≤ m ∨ e = -1074

theorem log2_mul_two_pow {m : ℕ} (h : 0 < m) (k : ℕ) : (m * 2 ^ k).log2 = m.log2 + k := by
  have hne : m * 2 ^ k ≠ 0 := Nat.mul_ne_zero h.ne' (Nat.two_pow_pos k).ne'
  refine (Nat.log2_eq_iff hne).2 ⟨?_, ?_⟩
  · rw [Nat.pow_add]
    exact Nat.mul_le_mul_right _ (Nat.log2_self_le h.ne')
  · rw [show m.log2 + k + 1 = (m.log2 + 1) + k by omega, Nat.pow_add]
    exact Nat.mul_lt_mul_of_pos_right Nat.lt_log2_self (Nat.two_pow_pos k)

theorem targetExponent_eq (m : ℕ) (e : ℤ) :
    Format.binary64.targetExponent (totalExponent m e) = max (m.log2 + e - 52) (-1074) := by
  simp only [Format.targetExponent, totalExponent, Format.mantissaBits, Format.minExponent]
  norm_num
  omega

/-- Shifting the mantissa to the left does not change the exponent that it is to have. -/
theorem Canonical.targetExponent {m : ℕ} {e : ℤ} (h : Canonical m e) (k : ℕ) :
    Format.binary64.targetExponent (totalExponent (m * 2 ^ k) (e - k)) = e := by
  have hlog : m.log2 ≤ 52 := Nat.lt_succ_iff.1 ((Nat.log2_lt h.pos.ne').2 h.lt)
  have hmin := h.min
  rw [targetExponent_eq, log2_mul_two_pow h.pos]
  push_cast
  rcases h.normal with hnormal | hleast
  · have hlow := (Nat.le_log2 h.pos.ne').2 hnormal
    omega
  · omega

theorem shiftRight_exact (m k : ℕ) :
    (ExtendedMantissa.mk (m * 2 ^ k) false false) >>> k = ⟨m, false, false⟩ := by
  show Nat.repeat ExtendedMantissa.shiftRightOne k _ = _
  -- the shifts are made one by one, and each drops a zero
  induction k generalizing m with
  | zero => simp [Nat.repeat]
  | succ k ih =>
    have hstep : m * 2 ^ (k + 1) = m * 2 * 2 ^ k := by ring
    rw [Nat.repeat, hstep, ih (m * 2)]
    simp [ExtendedMantissa.shiftRightOne]

theorem Canonical.shiftToTargetExponent {m : ℕ} {e : ℤ} (h : Canonical m e) (k : ℕ) :
    shiftToTargetExponent Format.binary64 (m * 2 ^ k) (e - k) .exact = (⟨m, false, false⟩, e) := by
  have hshift : (e - (e - k)).toNat = k := by omega
  unfold Float.Model.UnpackedFloat.shiftToTargetExponent shiftToExponent
  rw [h.targetExponent]
  simp only [hshift, ExtendedMantissa.ofMantissaAndAccuracy, shiftRight_exact]
  rw [show e - (k : ℤ) + k = e by omega]

theorem Canonical.roundWithAccuracy {m : ℕ} {e : ℤ} (h : Canonical m e) (s : Sign) (k : ℕ) :
    roundWithAccuracy Format.binary64 s (m * 2 ^ k) (e - k) .exact = .finite s m e h.pos := by
  have hagain := h.shiftToTargetExponent 0
  simp only [Nat.pow_zero, Nat.mul_one, Nat.cast_zero, Int.sub_zero] at hagain
  have hrounded : (ExtendedMantissa.mk m false false).roundedMantissa = m := rfl
  unfold Float.Model.UnpackedFloat.roundWithAccuracy
  rw [h.shiftToTargetExponent k]
  simp only [hrounded, hagain, dif_neg h.pos.ne']

/-- Of two mantissas with one value, the one with the smaller exponent has zeros at its end. -/
theorem mantissa_eq_of_same {m n : ℕ} {e : ℤ} {k : ℕ}
    (h : (n : ℚ) * 2 ^ (e - k) = m * 2 ^ e) : n = m * 2 ^ k := by
  have htwo : (2 : ℚ) ≠ 0 := by norm_num
  have hcast : (n : ℚ) = m * 2 ^ k := by
    rw [zpow_sub₀ htwo, zpow_natCast] at h
    field_simp at h
    rw [h, mul_comm]
  exact_mod_cast hcast

/-- A mantissa and exponent of the same value are rounded to the normal form. -/
theorem Canonical.round {m n : ℕ} {e f : ℤ} (h : Canonical m e) (s : Sign)
    (hsame : (n : ℚ) * 2 ^ f = m * 2 ^ e) :
    round Format.binary64 s n f = .finite s m e h.pos := by
  unfold Float.Model.UnpackedFloat.round decreaseExponent
  rcases le_total f e with hle | hle
  · -- there are zeros to drop
    obtain ⟨k, hk⟩ := Int.eq_ofNat_of_zero_le (sub_nonneg.2 hle)
    obtain rfl : f = e - k := by omega
    obtain rfl := mantissa_eq_of_same hsame
    have hzero : (e - (k : ℤ) - e).toNat = 0 := by omega
    rw [h.targetExponent]
    simp only [hzero, Nat.shiftLeft_zero, Nat.cast_zero, Int.sub_zero]
    exact h.roundWithAccuracy s k
  · -- there are zeros to add
    obtain ⟨k, hk⟩ := Int.eq_ofNat_of_zero_le (sub_nonneg.2 hle)
    obtain rfl : e = f - k := by omega
    obtain rfl := mantissa_eq_of_same hsame.symm
    have hpos : 0 < n := Nat.pos_of_mul_pos_right h.pos
    have htarget : Format.binary64.targetExponent (totalExponent n f) = f - k := by
      have htotal := h.targetExponent 0
      rw [targetExponent_eq] at htotal ⊢
      simp only [Nat.pow_zero, Nat.mul_one, Nat.cast_zero, Int.sub_zero] at htotal
      rw [log2_mul_two_pow hpos] at htotal
      push_cast at htotal
      omega
    have hshift : (f - (f - (k : ℤ))).toNat = k := by omega
    have hround := h.roundWithAccuracy s 0
    simp only [Nat.pow_zero, Nat.mul_one, Nat.cast_zero, Int.sub_zero] at hround
    rw [htarget]
    simp only [hshift, Nat.shiftLeft_eq]
    exact hround

/-- A short number other than zero has a normal form. -/
theorem Short.exists_canonical {q : ℚ} (h : Short q) (hq : q ≠ 0) :
    ∃ m e, Canonical m e ∧ |q| = m * 2 ^ e := by
  obtain ⟨z, k, hz, hk, rfl⟩ := h
  have hpos : 0 < z.natAbs := by
    refine Int.natAbs_pos.2 fun hzero => hq ?_
    rw [hzero]
    simp
  have hlog : z.natAbs.log2 ≤ 52 := Nat.lt_succ_iff.1 ((Nat.log2_lt hpos.ne').2 hz)
  refine ⟨z.natAbs * 2 ^ (52 - z.natAbs.log2), z.natAbs.log2 - 52 - k, ⟨?_, ?_, ?_, ?_, ?_⟩, ?_⟩
  · positivity
  · have hlt := Nat.mul_lt_mul_of_pos_right (Nat.lt_log2_self (n := z.natAbs))
      (Nat.two_pow_pos (52 - z.natAbs.log2))
    rwa [← Nat.pow_add, show z.natAbs.log2 + 1 + (52 - z.natAbs.log2) = 53 by omega] at hlt
  · omega
  · omega
  · left
    have hle := Nat.mul_le_mul_right (2 ^ (52 - z.natAbs.log2)) (Nat.log2_self_le hpos.ne')
    rwa [← Nat.pow_add, show z.natAbs.log2 + (52 - z.natAbs.log2) = 52 by omega] at hle
  · have habs : |(z : ℚ) / 2 ^ k| = z.natAbs / 2 ^ k := by
      rw [abs_div, abs_of_pos (show (0 : ℚ) < 2 ^ k by positivity), Nat.cast_natAbs, Int.cast_abs]
    have hexp : (z.natAbs.log2 : ℤ) - 52 - k = -((52 - z.natAbs.log2 : ℕ) : ℤ) + -(k : ℤ) := by
      omega
    have hpow : (2 : ℚ) ^ (52 - z.natAbs.log2) ≠ 0 := by positivity
    rw [habs, hexp, zpow_add₀ (by norm_num), zpow_neg, zpow_neg, zpow_natCast, zpow_natCast]
    push_cast
    field_simp

/-! ## Bits -/

theorem toNat_implicit (m : BitVec 52) : (1#1 ++ m).toNat = 2 ^ 52 + m.toNat := by
  rw [BitVec.toNat_append, ← Nat.shiftLeft_add_eq_or_of_lt m.isLt]
  simp [Nat.shiftLeft_eq]

theorem biasedExponent_eq (e : ℤ) :
    (e + Format.binary64.exponentBias + Format.binary64.mantissaBitsWithoutImplicit).toNat =
      (e + 1075).toNat := by
  have hbias : (Format.binary64.exponentBias : ℤ) = 1023 := rfl
  rw [hbias, add_assoc]
  rfl

theorem Canonical.exponent_fits {m : ℕ} {e : ℤ} (h : Canonical m e) :
    ¬2 ^ Format.binary64.exponentBits ≤
      (e + Format.binary64.exponentBias + Format.binary64.mantissaBitsWithoutImplicit).toNat + 1 := by
  have hmax := h.max
  rw [biasedExponent_eq]
  show ¬2 ^ 11 ≤ _
  omega

theorem Canonical.unpack_pack_normal {m : ℕ} {e : ℤ} (h : Canonical m e) (s : Sign)
    (hm : 2 ^ 52 ≤ m) :
    unpack Format.binary64 (pack Format.binary64 (.finite s m e h.pos)) = .finite s m e h.pos := by
  have hmin := h.min
  have hmax := h.max
  have hlt := h.lt
  have hlog : m.log2 + 1 = Format.binary64.mantissaBits := by
    have hlow := (Nat.le_log2 h.pos.ne').2 hm
    have hhigh := (Nat.log2_lt h.pos.ne').2 h.lt
    show m.log2 + 1 = 53
    omega
  have hexponent : (BitVec.ofNat 11 (e + 1075).toNat).toNat = (e + 1075).toNat := by
    rw [BitVec.toNat_ofNat, Nat.mod_eq_of_lt (by omega)]
  have hones : BitVec.ofNat 11 (e + 1075).toNat ≠ -1#11 := by
    intro heq
    have hnat := congrArg BitVec.toNat heq
    rw [hexponent, show (-1#11).toNat = 2047 from rfl] at hnat
    omega
  have hzero : BitVec.ofNat 11 (e + 1075).toNat ≠ 0#11 := by
    intro heq
    have hnat := congrArg BitVec.toNat heq
    rw [hexponent, show (0#11).toNat = 0 from rfl] at hnat
    omega
  have hmantissa : (1#1 ++ BitVec.ofNat 52 m).toNat = m := by
    rw [toNat_implicit, BitVec.toNat_ofNat, Nat.mod_eq_sub_mod hm, Nat.mod_eq_of_lt (by omega)]
    omega
  unfold pack
  dsimp only
  rw [if_neg h.exponent_fits, if_pos hlog, biasedExponent_eq]
  unfold unpack
  simp only [unpackMantissa_packComponents, unpackExponent_packComponents,
    unpackSign_packComponents, Sign.ofBitVec_toBitVec]
  rw [if_neg hones, if_neg hzero]
  simp only [hmantissa, hexponent]
  congr 1
  show ((e + 1075).toNat : ℤ) - (1023 + 52) = e
  omega

theorem Canonical.unpack_pack_subnormal {m : ℕ} {e : ℤ} (h : Canonical m e) (s : Sign)
    (hm : m < 2 ^ 52) :
    unpack Format.binary64 (pack Format.binary64 (.finite s m e h.pos)) = .finite s m e h.pos := by
  obtain rfl := h.normal.resolve_left (Nat.not_le.2 hm)
  have hlog : ¬m.log2 + 1 = Format.binary64.mantissaBits := by
    have hhigh := (Nat.log2_lt h.pos.ne').2 hm
    show ¬m.log2 + 1 = 53
    omega
  have hmantissa : (BitVec.ofNat 52 m).toNat = m := by
    rw [BitVec.toNat_ofNat, Nat.mod_eq_of_lt hm]
  have hnonzero : BitVec.ofNat 52 m ≠ 0#52 := by
    intro heq
    have hnat := congrArg BitVec.toNat heq
    rw [hmantissa, show (0#52).toNat = 0 from rfl] at hnat
    exact h.pos.ne' hnat
  unfold pack
  dsimp only
  rw [if_neg h.exponent_fits, if_neg hlog]
  unfold unpack
  simp only [unpackMantissa_packComponents, unpackExponent_packComponents,
    unpackSign_packComponents, Sign.ofBitVec_toBitVec]
  rw [if_neg (by decide), if_pos trivial, dif_neg hnonzero]
  simp only [hmantissa]
  congr 1

/-- A number in its normal form goes through its bits unchanged. -/
theorem Canonical.unpack_pack {m : ℕ} {e : ℤ} (h : Canonical m e) (s : Sign) :
    (Float.Model.pack (.finite s m e h.pos)).unpack = .finite s m e h.pos := by
  rcases Nat.lt_or_ge m (2 ^ 52) with hm | hm
  · exact h.unpack_pack_subnormal s hm
  · exact h.unpack_pack_normal s hm

/-- Every finite float that is not zero is in its normal form. -/
theorem canonical_of_unpack {x : Float.Model} {s : Sign} {m : ℕ} {e : ℤ} {hm : 0 < m}
    (h : x.unpack = .finite s m e hm) : Canonical m e := by
  unfold Float.Model.unpack unpack at h
  have hbias : (Format.binary64.exponentBias : ℤ) = 1023 := rfl
  have hexponent : (@unpackExponent .binary64 x.toBits.toBitVec).toNat < 2 ^ 11 :=
    BitVec.isLt _
  have hmantissa : (@unpackMantissa .binary64 x.toBits.toBitVec).toNat < 2 ^ 52 :=
    BitVec.isLt _
  dsimp only at h
  split at h
  · split at h <;> cases h
  · rename_i hones
    split at h
    · rename_i hzero
      split at h
      · cases h
      · cases h
        rw [hzero]
        exact ⟨hm, by omega, by decide, by decide, .inr rfl⟩
    · rename_i hzero
      cases h
      have himplicit := toNat_implicit (@unpackMantissa .binary64 x.toBits.toBitVec)
      have hlast : (@unpackExponent .binary64 x.toBits.toBitVec).toNat ≠ 2047 :=
        fun heq => hones (BitVec.eq_of_toNat_eq heq)
      have hnonzero : (@unpackExponent .binary64 x.toBits.toBitVec).toNat ≠ 0 :=
        fun heq => hzero (BitVec.eq_of_toNat_eq heq)
      rw [hbias]
      refine ⟨hm, ?_, ?_, ?_, .inl ?_⟩
      · exact himplicit.trans_lt (by omega)
      · show (-1074 : ℤ) ≤ _ - (1023 + 52)
        omega
      · show _ - (1023 + 52) ≤ (971 : ℤ)
        omega
      · exact (Nat.le_add_right _ _).trans himplicit.ge

theorem unpack_pack_zero (s : Sign) : (Float.Model.pack (.zero s)).unpack = .zero s :=
  unpack_packedZero

/-! ## Arithmetic -/

theorem number?_pack_canonical {m : ℕ} {e : ℤ} (h : Canonical m e) (s : Sign) :
    unpackedNumber? (Float.Model.pack (.finite s m e h.pos)).unpack = some (signed s m e) := by
  rw [h.unpack_pack]
  rfl

theorem signed_congr {m n : ℕ} {e f : ℤ} (s : Sign) (h : (n : ℚ) * 2 ^ f = m * 2 ^ e) :
    signed s n f = signed s m e := by
  cases s <;> simp [signed, Sign.apply, h]

theorem number?_pack_round {n : ℕ} {f : ℤ} (s : Sign) (hn : 0 < n)
    (h : Short ((n : ℚ) * 2 ^ f)) :
    unpackedNumber? (Float.Model.pack (round Format.binary64 s n f)).unpack =
      some (signed s n f) := by
  have hpos : (0 : ℚ) < n * 2 ^ f := by positivity
  obtain ⟨m, e, hcanonical, hvalue⟩ := h.exists_canonical hpos.ne'
  rw [abs_of_pos hpos] at hvalue
  rw [hcanonical.round s hvalue, number?_pack_canonical hcanonical, signed_congr s hvalue]

theorem Short.neg {q : ℚ} (h : Short q) : Short (-q) := by
  obtain ⟨z, k, hz, hk, rfl⟩ := h
  exact ⟨-z, k, by simpa using hz, hk, by push_cast; ring⟩

/-- A mantissa with a sign is normalized to the number that it stands for, if that is short. -/
theorem number?_pack_normalize {m : ℤ} {e : ℤ} (s : Sign) (h : Short ((m : ℚ) * 2 ^ e)) :
    unpackedNumber? (Float.Model.pack (UnpackedFloat.normalize Format.binary64 m e s)).unpack =
      some ((m : ℚ) * 2 ^ e) := by
  unfold UnpackedFloat.normalize
  rcases lt_trichotomy m 0 with hm | rfl | hm
  · obtain ⟨n, rfl⟩ : ∃ n : ℕ, m = -n := ⟨m.natAbs, by omega⟩
    rw [show compare (-(n : ℤ)) 0 = .lt from Int.compare_eq_lt.2 hm]
    have hshort : Short ((n : ℚ) * 2 ^ e) := by simpa using h.neg
    simpa [signed, Sign.apply] using number?_pack_round .negative (by omega) hshort
  · rw [show compare (0 : ℤ) 0 = .eq from rfl]
    simp [unpack_pack_zero, unpackedNumber?]
  · obtain ⟨n, rfl⟩ : ∃ n : ℕ, m = n := ⟨m.toNat, by omega⟩
    rw [show compare (n : ℤ) 0 = .gt from Int.compare_eq_gt.2 hm]
    simpa [signed, Sign.apply] using
      number?_pack_round .positive (by omega) (show Short ((n : ℚ) * 2 ^ e) by simpa using h)

/-- Bringing a mantissa to a smaller exponent does not change the number. -/
theorem signed_decreaseExponent (s : Sign) (m : ℕ) {e f : ℤ} (h : f ≤ e) :
    signed s (decreaseExponent m e f).1 f = signed s m e := by
  obtain ⟨k, hk⟩ := Int.eq_ofNat_of_zero_le (sub_nonneg.2 h)
  obtain rfl : e = f + k := by omega
  have hshift : (f + (k : ℤ) - f).toNat = k := by omega
  have hvalue : ((decreaseExponent m (f + k) f).1 : ℚ) * 2 ^ f = m * 2 ^ (f + (k : ℤ)) := by
    simp only [decreaseExponent, hshift, Nat.shiftLeft_eq]
    rw [zpow_add₀ (by norm_num), zpow_natCast]
    push_cast
    ring
  exact signed_congr s hvalue

theorem number?_pack_unpack {x : Float.Model} {s : Sign} {m : ℕ} {e : ℤ} {hm : 0 < m}
    (h : x.unpack = .finite s m e hm) (s' : Sign) :
    unpackedNumber? (Float.Model.pack (.finite s' m e hm)).unpack = some (signed s' m e) :=
  number?_pack_canonical (canonical_of_unpack h) s'

/-- A finite float is zero, or has a sign, a mantissa and an exponent. -/
theorem unpack_of_number? {x : Float} {a : ℚ} (h : number? x = some a) :
    (∃ s, x.toModel.unpack = .zero s ∧ a = 0) ∨
      ∃ s m e hm, x.toModel.unpack = .finite s m e hm ∧ a = signed s m e := by
  unfold number? at h
  cases hx : x.toModel.unpack with
  | infinity s => simp [hx, unpackedNumber?] at h
  | notANumber => simp [hx, unpackedNumber?] at h
  | zero s =>
    rw [hx] at h
    exact .inl ⟨s, rfl, (Option.some.inj h).symm⟩
  | finite s m e hm =>
    rw [hx] at h
    exact .inr ⟨s, m, e, hm, rfl, (Option.some.inj h).symm⟩

/-- A difference is exact if it is short. -/
theorem number?_sub {x y : Float} {a b : ℚ} (hx : number? x = some a) (hy : number? y = some b)
    (h : Short (a - b)) : number? (x - y) = some (a - b) := by
  show unpackedNumber? (Float.Model.pack
    (UnpackedFloat.sub Format.binary64 x.toModel.unpack y.toModel.unpack)).unpack = _
  rcases unpack_of_number? hx with ⟨s, hx', rfl⟩ | ⟨s, m, e, hm, hx', rfl⟩ <;>
    rcases unpack_of_number? hy with ⟨s', hy', rfl⟩ | ⟨s', m', e', hm', hy', rfl⟩ <;>
    rw [hx', hy'] <;> unfold UnpackedFloat.sub
  · -- two zeros differ by a zero
    dsimp only
    split <;> simp [unpack_pack_zero, unpackedNumber?]
  · simp [number?_pack_unpack hy', signed_neg]
  · simp [number?_pack_unpack hx']
  · -- the mantissas are brought to one exponent
    have hleft := signed_decreaseExponent s m (min_le_left e e')
    have hright := signed_decreaseExponent s' m' (min_le_right e e')
    rw [← hleft, ← hright] at h ⊢
    unfold signed at h ⊢
    rw [← sub_mul, ← Int.cast_sub] at h ⊢
    exact number?_pack_normalize .positive h

/-- A sum is exact if it is short. -/
theorem number?_add {x y : Float} {a b : ℚ} (hx : number? x = some a) (hy : number? y = some b)
    (h : Short (a + b)) : number? (x + y) = some (a + b) := by
  show unpackedNumber? (Float.Model.pack
    (UnpackedFloat.add Format.binary64 x.toModel.unpack y.toModel.unpack)).unpack = _
  rcases unpack_of_number? hx with ⟨s, hx', rfl⟩ | ⟨s, m, e, hm, hx', rfl⟩ <;>
    rcases unpack_of_number? hy with ⟨s', hy', rfl⟩ | ⟨s', m', e', hm', hy', rfl⟩ <;>
    rw [hx', hy'] <;> unfold UnpackedFloat.add
  · dsimp only
    split <;> simp [unpack_pack_zero, unpackedNumber?]
  · simp [number?_pack_unpack hy']
  · simp [number?_pack_unpack hx']
  · have hleft := signed_decreaseExponent s m (min_le_left e e')
    have hright := signed_decreaseExponent s' m' (min_le_right e e')
    rw [← hleft, ← hright] at h ⊢
    unfold signed at h ⊢
    rw [← add_mul, ← Int.cast_add] at h ⊢
    exact number?_pack_normalize .positive h

/-! ## Conversions -/

/-- The float that is one. -/
theorem unpack_one : (Float.ofBits 0x3FF0000000000000).toModel.unpack =
    .finite .positive (2 ^ 52) (-52) (by decide) := by
  rfl

theorem number?_mul_one {x : Float} {a : ℚ} (hx : number? x = some a) :
    number? (x * Float.ofBits 0x3FF0000000000000) = some a := by
  show unpackedNumber? (Float.Model.pack
    (UnpackedFloat.mul Format.binary64 x.toModel.unpack _)).unpack = _
  rw [unpack_one]
  rcases unpack_of_number? hx with ⟨s, hx', rfl⟩ | ⟨s, m, e, hm, hx', rfl⟩ <;> rw [hx'] <;>
    unfold UnpackedFloat.mul
  · simp [unpack_pack_zero, unpackedNumber?]
  · have hcanonical := canonical_of_unpack hx'
    have hround := hcanonical.roundWithAccuracy (s * .positive) 52
    rw [show (e : ℤ) - (52 : ℕ) = e + -52 from rfl] at hround
    dsimp only
    rw [hround, number?_pack_canonical hcanonical]
    cases s <;> rfl

theorem number?_ofNat {n : ℕ} (h : n < 2 ^ 53) : number? (Float.ofNat n) = some (n : ℚ) := by
  have hcast : number? n.toUInt64.toFloat = some (n : ℚ) := by
    show unpackedNumber? (Float.Model.pack
      (UnpackedFloat.normalize Format.binary64 (n.toUInt64.toNat : ℤ) 0 .positive)).unpack = _
    have hnat : n.toUInt64.toNat = n := by
      simp
      omega
    rw [hnat, number?_pack_normalize]
    · simp
    · simpa using short_natCast h
  unfold Float.ofNat
  show number? (Float.ofScientific n false 0) = _
  unfold Float.ofScientific
  rw [dif_pos ⟨h, by decide⟩]
  exact number?_mul_one hcast

theorem signed_pos_iff {s : Sign} {m : ℕ} {e : ℤ} (hm : 0 < m) :
    0 < signed s m e ↔ s = .positive := by
  have hpos : (0 : ℚ) < m * 2 ^ e := by positivity
  cases s
  · have hneg : signed .negative m e = -(m * 2 ^ e) := by simp [signed, Sign.apply]
    simp [hneg, hpos.le]
  · simp [signed_positive, hpos]

theorem zero_lt_iff {x : Float} {a : ℚ} (hx : number? x = some a) : 0 < x ↔ 0 < a := by
  have hmodel : 0 < x ↔ UnpackedFloat.lt (.zero .positive) x.toModel.unpack = true := by
    rw [show UnpackedFloat.zero .positive = (0 : Float).toModel.unpack from rfl]
    show decide ((0 : Float).toModel < x.toModel) = true ↔ _
    exact decide_eq_true_iff
  rw [hmodel]
  rcases unpack_of_number? hx with ⟨s, hx', rfl⟩ | ⟨s, m, e, hm, hx', rfl⟩ <;> rw [hx']
  · simp [UnpackedFloat.lt, UnpackedFloat.compare]
  · rw [signed_pos_iff hm]
    cases s <;> simp [UnpackedFloat.lt, UnpackedFloat.compare]

theorem isFinite_iff {x : Float} : x.isFinite = true ↔ ∃ a, number? x = some a := by
  show x.toModel.unpack.isFinite = true ↔ ∃ a, unpackedNumber? x.toModel.unpack = some a
  cases x.toModel.unpack <;> simp [UnpackedFloat.isFinite, unpackedNumber?]

theorem shiftRight_mantissa (em : ExtendedMantissa) (k : ℕ) :
    (em >>> k).mantissa = em.mantissa / 2 ^ k := by
  show (Nat.repeat ExtendedMantissa.shiftRightOne k em).mantissa = _
  induction k with
  | zero => simp [Nat.repeat]
  | succ k ih =>
    rw [Nat.repeat, Nat.pow_succ, ← Nat.div_div_eq_div_mul, ← ih]
    rfl

/-- A positive float is truncated. -/
theorem roundToInt_positive (m : ℕ) (e : ℤ) :
    roundToInt .positive m e = ⌊(m : ℚ) * 2 ^ e⌋₊ := by
  unfold roundToInt decreaseExponent shiftToExponent
  rcases le_total 0 e with he | he
  · obtain ⟨k, rfl⟩ := Int.eq_ofNat_of_zero_le he
    have hfloor : ⌊(m : ℚ) * 2 ^ (k : ℤ)⌋₊ = m * 2 ^ k := by
      rw [zpow_natCast]
      exact_mod_cast Nat.floor_natCast (m * 2 ^ k)
    rw [hfloor]
    have hleft : ((k : ℤ) - 0).toNat = k := by omega
    have hright : (0 - ((k : ℤ) - k)).toNat = 0 := by omega
    simp only [hleft, hright, shiftRight_mantissa, Nat.pow_zero, Nat.div_one, Nat.shiftLeft_eq]
    rfl
  · obtain ⟨k, hk⟩ := Int.eq_ofNat_of_zero_le (neg_nonneg.2 he)
    obtain rfl : e = -k := by omega
    have hfloor : ⌊(m : ℚ) * 2 ^ (-k : ℤ)⌋₊ = m / 2 ^ k := by
      have hcast : (2 : ℚ) ^ k = (2 ^ k : ℕ) := by push_cast; rfl
      rw [zpow_neg, zpow_natCast, ← div_eq_mul_inv, hcast, Nat.floor_div_eq_div]
    have hleft : (-(k : ℤ) - 0).toNat = 0 := by omega
    have hright : (0 - (-(k : ℤ) - (0 : ℕ))).toNat = k := by omega
    rw [hfloor]
    simp only [hleft, hright, shiftRight_mantissa, Nat.shiftLeft_zero]
    rfl

theorem toUInt64_of_number? {x : Float} {a : ℚ} (hx : number? x = some a) (ha : 0 < a)
    (h : a < 2 ^ 64) : x.toUInt64.toNat = ⌊a⌋₊ := by
  show (UInt64.ofNatClamp (x.toModel.unpack.toInt 0 (UInt64.size - 1)).toNat).toNat = _
  rcases unpack_of_number? hx with ⟨s, -, rfl⟩ | ⟨s, m, e, hm, hx', rfl⟩
  · exact absurd ha (lt_irrefl 0)
  · obtain rfl := (signed_pos_iff hm).1 ha
    have hlt : ⌊signed .positive m e⌋₊ < UInt64.size := (Nat.floor_lt ha.le).2 (by exact_mod_cast h)
    rw [hx', signed_positive] at *
    show (UInt64.ofNatClamp (roundToInt .positive m e).toNat).toNat = _
    rw [roundToInt_positive, Int.toNat_natCast]
    exact UInt64.toNat_ofNatClamp_of_lt hlt

end DotMatrix.Binary64
