import DotMatrix.Sound.Mixer
import Mathlib.Algebra.Order.Group.Unbundled.Abs
import Mathlib.Algebra.Order.Group.Int
import Mathlib.Logic.Function.Iterate

/-!
# The high-pass filter

What comes out of the filter for a constant input follows a recurrence of its own: an output is
what the state kept of the one before (`kept`), a sum of two shares that are rounded down. Rounding
down adds up in one direction. It keeps the state in a fixed interval all the same
(`Reachable.inRange`), and an output that is not negative fades away (`fades_of_nonneg`). An
output that is negative never does: it comes to rest at one of the values that rounding leaves as
they are (`exists_rest`).
-/

namespace DotMatrix.Sound.HighPass

/-- What the state keeps of an output, each of the two shares rounded down. -/
def kept (out : Int) : Int := out * 15 / 16 + out * 61355 / 0x100000

theorem update_eq (f : HighPass) (input : Int) :
    f.update input = (input - f.state, ⟨input - kept (input - f.state)⟩) := rfl

/-! ## The range of the state -/

/-- The two shares are less than one whole by `4181/2^20`, and rounding down takes up to two off
them, so that the state can exceed the inputs, on one side, by not more than 236. -/
structure InRange (f : HighPass) : Prop where
  lower : -32767 ≤ f.state
  upper : f.state ≤ 33003

theorem inRange_initial : initial.InRange := ⟨by decide, by decide⟩

theorem InRange.update {f : HighPass} (h : f.InRange) {input : Int} (hlo : -peak ≤ input)
    (hhi : input ≤ peak) : (f.update input).2.InRange := by
  have hlower := h.lower
  have hupper := h.upper
  unfold peak at hlo hhi
  rw [update_eq]
  constructor <;> dsimp only [kept] <;> omega

/-- A filter that samples went through. -/
def feed (f : HighPass) (inputs : List Int) : HighPass :=
  inputs.foldl (fun f input => (f.update input).2) f

def Reachable (f : HighPass) : Prop :=
  ∃ inputs : List Int, (∀ input ∈ inputs, -peak ≤ input ∧ input ≤ peak) ∧ initial.feed inputs = f

/-- However many samples went through a filter, its state is in range. -/
theorem Reachable.inRange {f : HighPass} (h : f.Reachable) : f.InRange := by
  obtain ⟨inputs, hinputs, rfl⟩ := h
  have hfeed : ∀ g : HighPass, g.InRange → (g.feed inputs).InRange := by
    induction inputs with
    | nil => exact fun _ hg => hg
    | cons input inputs ih =>
      intro g hg
      have hinput := hinputs input List.mem_cons_self
      apply ih (fun x hx => hinputs x (List.mem_cons_of_mem input hx))
      exact hg.update hinput.1 hinput.2
  exact hfeed initial inRange_initial

/-! ## What is kept of an output -/

theorem kept_le_kept {a b : Int} (h : a ≤ b) : kept a ≤ kept b := by
  have hlarge : a * 15 / 16 ≤ b * 15 / 16 := Int.ediv_le_ediv (by decide) (by omega)
  have hsmall : a * 61355 / 0x100000 ≤ b * 61355 / 0x100000 :=
    Int.ediv_le_ediv (by decide) (by omega)
  unfold kept
  omega

/-- Of an output that is not negative less is kept, down to nothing. -/
theorem kept_of_nonneg {out : Int} (h : 0 ≤ out) : 0 ≤ kept out ∧ kept out ≤ max 0 (out - 1) := by
  have hlarge : 0 ≤ out * 15 / 16 := by omega
  have hsmall : 0 ≤ out * 61355 / 0x100000 := by omega
  unfold kept
  omega

/-- A negative output leaves a negative one behind. -/
theorem kept_of_neg {out : Int} (h : out < 0) : kept out < 0 := by
  unfold kept
  omega

/-- Far from zero even a negative output shrinks. The shares alone say so below -501; the values
between are looked at one by one. -/
theorem lt_kept {out : Int} (h : out < -479) : out < kept out := by
  by_cases hfar : out < -501
  · unfold kept
    omega
  · have hall : ∀ n : Fin 22, -480 - (n : Int) < kept (-480 - n) := by decide
    have hnear := hall ⟨(-480 - out).toNat, by omega⟩
    have hout : -480 - (((-480 - out).toNat : Nat) : Int) = out := by omega
    dsimp only at hnear
    rwa [hout] at hnear

/-- Near zero a negative output grows: too much is taken off for rounding. -/
theorem kept_lt {out : Int} (hlo : -16 < out) (hhi : out < 0) : kept out < out := by
  -- the larger share is rounded to the whole, and the smaller one is not nothing
  have hlarge : out * 15 / 16 = out := by omega
  have hsmall : out * 61355 / 0x100000 ≤ -1 := by omega
  unfold kept
  omega

/-! ## A constant input -/

/-- The filter after a number of samples of one and the same input. -/
def hold (f : HighPass) (input : Int) (n : Nat) : HighPass :=
  (fun f : HighPass => (f.update input).2)^[n] f

/-- What comes out for each sample of a constant input. -/
def answer (f : HighPass) (input : Int) (n : Nat) : Int := ((f.hold input n).update input).1

theorem answer_succ (f : HighPass) (input : Int) (n : Nat) :
    f.answer input (n + 1) = kept (f.answer input n) := by
  unfold answer hold
  rw [Function.iterate_succ_apply']
  simp only [update_eq]
  omega

theorem answer_eq (f : HighPass) (input : Int) (n : Nat) :
    f.answer input n = kept^[n] (f.answer input 0) := by
  induction n with
  | zero => rfl
  | succ n ih => rw [answer_succ, Function.iterate_succ_apply', ih]

/-- The outputs for a constant input never move away from zero, and they get there. -/
def Fades (f : HighPass) (input : Int) : Prop :=
  (∀ n, |f.answer input (n + 1)| ≤ |f.answer input n|) ∧ ∃ n, f.answer input n = 0

variable {f : HighPass} {input : Int}

/-- Outputs that are not negative go down, each by one at least, until they are zero. -/
theorem answer_of_nonneg (h : 0 ≤ f.answer input 0) (n : Nat) :
    0 ≤ f.answer input n ∧ f.answer input n ≤ max 0 (f.answer input 0 - n) := by
  induction n with
  | zero => omega
  | succ n ih =>
    have hkept := kept_of_nonneg ih.1
    rw [answer_succ]
    omega

theorem answer_of_neg (h : f.answer input 0 < 0) (n : Nat) : f.answer input n < 0 := by
  induction n with
  | zero => exact h
  | succ n ih =>
    rw [answer_succ]
    exact kept_of_neg ih

theorem fades_of_nonneg (h : 0 ≤ f.answer input 0) : f.Fades input := by
  constructor
  · intro n
    have hout := (answer_of_nonneg h n).1
    have hkept := kept_of_nonneg hout
    rw [answer_succ, abs_of_nonneg hkept.1, abs_of_nonneg hout]
    omega
  · have hlast := answer_of_nonneg h (f.answer input 0).toNat
    exact ⟨(f.answer input 0).toNat, by omega⟩

/-- The first move tells the direction of all of them. -/
theorem answer_le_succ (h : f.answer input 0 ≤ f.answer input 1) (n : Nat) :
    f.answer input n ≤ f.answer input (n + 1) := by
  induction n with
  | zero => exact h
  | succ n ih =>
    have hkept := kept_le_kept ih
    rwa [← answer_succ, ← answer_succ] at hkept

theorem answer_succ_le (h : f.answer input 1 ≤ f.answer input 0) (n : Nat) :
    f.answer input (n + 1) ≤ f.answer input n := by
  induction n with
  | zero => exact h
  | succ n ih =>
    have hkept := kept_le_kept ih
    rwa [← answer_succ, ← answer_succ] at hkept

/-! ## Coming to rest -/

/-- The values at which a negative output can rest. -/
theorem bounds_of_rest {rest : Int} (h : rest < 0) (hrest : kept rest = rest) :
    -479 ≤ rest ∧ rest ≤ -16 := by
  constructor
  · by_contra hfar
    have hmoves : rest < kept rest := lt_kept (by omega)
    omega
  · by_contra hnear
    have hmoves : kept rest < rest := kept_lt (by omega) h
    omega

/-- A negative output moves in one direction only, since more is kept of a larger output. On its
way up it ends below zero, and on its way down not below -479, so that it comes to rest. -/
theorem exists_rest (steps : Nat) {out : Int} (h : out < 0)
    (hway : out ≤ kept out ∧ -out ≤ steps ∨ kept out ≤ out ∧ out + 479 ≤ steps) :
    ∃ rest, kept rest = rest ∧ ∀ n, steps ≤ n → kept^[n] out = rest := by
  induction steps generalizing out with
  | zero =>
    -- no way is left but to be at the lowest of these values already
    have hout : out = -479 := by
      by_contra hne
      have hmoves : out < kept out := lt_kept (by omega)
      omega
    subst hout
    exact ⟨-479, by decide, fun n _ => Function.iterate_fixed (by decide) n⟩
  | succ steps ih =>
    by_cases hrest : kept out = out
    · exact ⟨out, hrest, fun n _ => Function.iterate_fixed hrest n⟩
    · have hnext : kept out ≤ kept (kept out) ∧ -kept out ≤ steps ∨
          kept (kept out) ≤ kept out ∧ kept out + 479 ≤ steps := by
        rcases hway with ⟨hup, hsteps⟩ | ⟨hdown, hsteps⟩
        · exact .inl ⟨kept_le_kept hup, by omega⟩
        · exact .inr ⟨kept_le_kept hdown, by omega⟩
      obtain ⟨rest, hkept, hlater⟩ := ih (kept_of_neg h) hnext
      refine ⟨rest, hkept, fun n hn => ?_⟩
      obtain ⟨m, rfl⟩ : ∃ m, n = m + 1 := ⟨n - 1, by omega⟩
      rw [Function.iterate_succ_apply]
      exact hlater m (by omega)

theorem exists_rest_of_neg (h : f.answer input 0 < 0) :
    ∃ rest, kept rest = rest ∧
      ∀ n : Nat, max (-f.answer input 0) 479 ≤ n → f.answer input n = rest := by
  have hway := Int.le_total (f.answer input 0) (kept (f.answer input 0))
  obtain ⟨rest, hkept, hlater⟩ := exists_rest (max (-f.answer input 0) 479).toNat h (by omega)
  refine ⟨rest, hkept, fun n hn => ?_⟩
  rw [answer_eq]
  exact hlater n (by omega)

/-- A constant input fades away exactly if the first output is not negative, and then in as many
samples at the most. A negative output moves in one direction and comes to rest between -479 and
-16, so that a part of the constant input stays. -/
theorem answer_settles (f : HighPass) (input : Int) :
    (f.Fades input ↔ 0 ≤ f.answer input 0) ∧
    (0 ≤ f.answer input 0 → (∀ n, f.answer input (n + 1) ≤ f.answer input n) ∧
      ∀ n : Nat, f.answer input 0 ≤ n → f.answer input n = 0) ∧
    (f.answer input 0 < 0 → (∀ n, f.answer input n < 0) ∧
      ((∀ n, f.answer input n ≤ f.answer input (n + 1)) ∨
        ∀ n, f.answer input (n + 1) ≤ f.answer input n) ∧
      ∃ rest, -479 ≤ rest ∧ rest ≤ -16 ∧ kept rest = rest ∧
        ∀ n : Nat, max (-f.answer input 0) 479 ≤ n → f.answer input n = rest) := by
  refine ⟨⟨fun hfades => ?_, fades_of_nonneg⟩, fun hpos => ⟨?_, fun n hn => ?_⟩, fun hneg => ?_⟩
  · by_contra hneg
    obtain ⟨n, hzero⟩ := hfades.2
    have hbelow := answer_of_neg (Int.not_le.1 hneg) n
    omega
  · apply answer_succ_le
    have hkept := kept_of_nonneg hpos
    rw [answer_succ]
    omega
  · have hout := answer_of_nonneg hpos n
    omega
  · obtain ⟨rest, hrest, hlater⟩ := exists_rest_of_neg hneg
    have hbelow : rest < 0 := by
      rw [← hlater (max (-f.answer input 0) 479).toNat (by omega)]
      exact answer_of_neg hneg _
    have hbounds := bounds_of_rest hbelow hrest
    refine ⟨answer_of_neg hneg, ?_, rest, hbounds.1, hbounds.2, hrest, hlater⟩
    rcases Int.le_total (f.answer input 0) (f.answer input 1) with hup | hdown
    · exact .inl (answer_le_succ hup)
    · exact .inr (answer_succ_le hdown)

/-- A new filter gives -1 for an input of -1 at first, and then -2. -/
theorem not_fades_of_minusOne :
    ¬ ∀ f : HighPass, f.Reachable → ∀ input : Int, f.Fades input := by
  intro hall
  have hreachable : initial.Reachable := ⟨[], by simp, rfl⟩
  have hgrows := (hall initial hreachable (-1)).1 0
  exact absurd hgrows (by decide)

end DotMatrix.Sound.HighPass
