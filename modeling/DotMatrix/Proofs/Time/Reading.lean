import DotMatrix.Proofs.Time.Binary64
import DotMatrix.Timeline

/-!
# Times that are read exactly

A `Reading` says which times stand for which number of seconds, and that sums and differences of
them are exact. Floats that are multiples of 2^-k seconds have such a reading as long as they stay
below 2^52 of these units (`Reading.binary`); for `k = 0` these are whole seconds below 2^52.
-/

namespace DotMatrix.Timeline

/-- Times as exact numbers of seconds. -/
structure Reading (τ : Type) [Timeline τ] where
  /-- The time stands for that many seconds. -/
  Reads : τ → ℚ → Prop
  /-- Times before this one need not be readable. -/
  earliest : ℚ
  unique : ∀ {t : τ} {x y : ℚ}, Reads t x → Reads t y → x = y
  elapsed_eq : ∀ {s t : τ} {x y : ℚ}, Reads s x → Reads t y → elapsed s t = ⌊y - x⌋₊
  reads_before : ∀ {t : τ} {y : ℚ} {n : ℕ}, Reads t y → earliest ≤ y - n →
    Reads (before t n) (y - n)
  reads_skip : ∀ {s t u : τ} {x y z : ℚ}, Reads s x → Reads t y → Reads u z → x ≤ y → y ≤ z →
    Reads (skip s t u) (x + (z - y))

namespace Reading

open Binary64

variable {k n : ℕ} {x y : ℚ} {s t : Float}

/-! ## Multiples of a power of one half -/

def OnGrid (k : ℕ) (x : ℚ) : Prop := ∃ z : ℤ, x = z / 2 ^ k

theorem onGrid_natCast (k n : ℕ) : OnGrid k n := ⟨n * 2 ^ k, by push_cast; field_simp⟩

theorem OnGrid.add (hx : OnGrid k x) (hy : OnGrid k y) : OnGrid k (x + y) := by
  obtain ⟨a, rfl⟩ := hx
  obtain ⟨b, rfl⟩ := hy
  exact ⟨a + b, by push_cast; ring⟩

theorem OnGrid.sub (hx : OnGrid k x) (hy : OnGrid k y) : OnGrid k (x - y) := by
  obtain ⟨a, rfl⟩ := hx
  obtain ⟨b, rfl⟩ := hy
  exact ⟨a - b, by push_cast; ring⟩

theorem OnGrid.short (hx : OnGrid k x) (hk : k ≤ 1022) (h : |x| < 2 ^ 53 / 2 ^ k) : Short x := by
  obtain ⟨z, rfl⟩ := hx
  have hpos : (0 : ℚ) < 2 ^ k := by positivity
  rw [abs_div, abs_of_pos hpos, div_lt_div_iff_of_pos_right hpos] at h
  have hlt : |z| < 2 ^ 53 := by exact_mod_cast h
  rw [Int.abs_eq_natAbs] at hlt
  exact ⟨z, k, by omega, hk, rfl⟩

/-- Twice as many units lie between two times as between a time and zero. -/
theorem abs_sub_lt (hx : |x| < 2 ^ 52 / 2 ^ k) (hy : |y| < 2 ^ 52 / 2 ^ k) :
    |x - y| < 2 ^ 53 / 2 ^ k := by
  have hdouble : (2 : ℚ) ^ 53 / 2 ^ k = 2 ^ 52 / 2 ^ k + 2 ^ 52 / 2 ^ k := by ring
  rw [hdouble]
  exact (abs_sub x y).trans_lt (add_lt_add hx hy)

theorem units_lt (k : ℕ) : (2 : ℚ) ^ 52 / 2 ^ k < 2 ^ 53 / 2 ^ k := by
  gcongr <;> norm_num

theorem units_le (k : ℕ) : (2 : ℚ) ^ 53 / 2 ^ k ≤ 2 ^ 53 :=
  div_le_self (by positivity) (one_le_pow₀ (by norm_num))

/-! ## Floats -/

theorem elapsed_of_number? (hs : number? s = some x) (ht : number? t = some y)
    (hshort : Short (y - x)) (hlt : y - x < 2 ^ 64) : elapsed s t = ⌊y - x⌋₊ := by
  have hsub := number?_sub ht hs hshort
  show (if 0 < t - s then (t - s).toUInt64.toNat else 0) = _
  split
  · rename_i hpos
    exact toUInt64_of_number? hsub ((zero_lt_iff hsub).1 hpos) hlt
  · rename_i hneg
    exact (Nat.floor_of_nonpos (not_lt.1 fun hpos => hneg ((zero_lt_iff hsub).2 hpos))).symm

theorem number?_before (ht : number? t = some y) (hn : n < 2 ^ 53) (hshort : Short (y - n)) :
    number? (before t n) = some (y - n) :=
  number?_sub ht (number?_ofNat hn) hshort

/-- Floats that are multiples of 2^-k seconds, of less than 2^52 of these units. -/
def binary (k : ℕ) (hk : k ≤ 1022) : Reading Float where
  Reads t x := number? t = some x ∧ OnGrid k x ∧ |x| < 2 ^ 52 / 2 ^ k
  earliest := -(2 ^ 52 - 1) / 2 ^ k
  unique hx hy := Option.some.inj (hx.1.symm.trans hy.1)
  elapsed_eq := by
    rintro s t x y ⟨hs, hx, hxlt⟩ ⟨ht, hy, hylt⟩
    have hlt := abs_sub_lt hylt hxlt
    have hdistance : y - x < 2 ^ 64 :=
      (le_abs_self _).trans_lt ((hlt.trans_le (units_le k)).trans (by norm_num))
    exact elapsed_of_number? hs ht ((hy.sub hx).short hk hlt) hdistance
  reads_before := by
    rintro t y n ⟨ht, hy, hylt⟩ hle
    have hgrid := hy.sub (onGrid_natCast k n)
    have hunit : (0 : ℚ) < 1 / 2 ^ k := by positivity
    have hlt : |y - n| < 2 ^ 52 / 2 ^ k := by
      have hearlier : y - n ≤ y := sub_le_self y n.cast_nonneg
      refine abs_lt.2 ⟨lt_of_lt_of_le ?_ hle, hearlier.trans_lt (abs_lt.1 hylt).2⟩
      have hlast : -(2 ^ 52 - 1) / (2 : ℚ) ^ k = -(2 ^ 52 / 2 ^ k) + 1 / 2 ^ k := by ring
      linarith
    have hn : n < 2 ^ 53 := by
      have hback := abs_sub_lt hylt hlt
      rw [sub_sub_cancel, Nat.abs_cast] at hback
      exact_mod_cast hback.trans_le (units_le k)
    exact ⟨number?_before ht hn (hgrid.short hk (hlt.trans (units_lt k))), hgrid, hlt⟩
  reads_skip := by
    rintro s t u x y z ⟨hs, hx, hxlt⟩ ⟨ht, hy, hylt⟩ ⟨hu, hz, hzlt⟩ hxy hyz
    have hpause := number?_sub hu ht ((hz.sub hy).short hk (abs_sub_lt hzlt hylt))
    have hgrid := hx.add (hz.sub hy)
    have hlt : |x + (z - y)| < 2 ^ 52 / 2 ^ k :=
      abs_lt.2 ⟨by linarith [(abs_lt.1 hxlt).1], by linarith [(abs_lt.1 hzlt).2]⟩
    exact ⟨number?_add hs hpause (hgrid.short hk (hlt.trans (units_lt k))), hgrid, hlt⟩

/-- Whole seconds below 2^52 are read exactly. -/
theorem reads_ofNat (hn : n < 2 ^ 52) : (binary 0 (by decide)).Reads (Float.ofNat n) n := by
  refine ⟨number?_ofNat (by omega), onGrid_natCast 0 n, ?_⟩
  rw [Nat.abs_cast, pow_zero, div_one]
  exact_mod_cast hn

end Reading

end DotMatrix.Timeline
