import DotMatrix.Proofs.Timer.Steps
import Mathlib.Algebra.Group.Nat.Defs
import Mathlib.Order.Monotone.Basic

/-!
# The timer in closed form

Left alone for some machine cycles, a timer counts the multiples of the period of its tap that its
divider passes (`edges`). It starts again at the modulo after each overflow, so where it stands is
a remainder (`countAfter`), and the interrupt is requested one machine cycle after an overflow.
`advance_closed_form` says this of every timer, tap and number of cycles.
-/

namespace DotMatrix.Timer

/-! ## The tap -/

/-- The tap goes down where the divider passes a multiple of twice this number. -/
def tapWeight (control : UInt8) : Nat := 2 ^ (tapBit control).toNat

theorem tapBit_cases (control : UInt8) :
    tapBit control = 9 ∨ tapBit control = 3 ∨ tapBit control = 5 ∨ tapBit control = 7 := by
  unfold tapBit
  split <;> simp

theorem tapWeight_cases (control : UInt8) :
    tapWeight control = 512 ∨ tapWeight control = 8 ∨ tapWeight control = 32 ∨
      tapWeight control = 128 := by
  unfold tapWeight
  rcases tapBit_cases control with h | h | h | h <;> rw [h] <;> decide

/-- The signal is a digit of the divider in units of the tap. -/
theorem signal_eq (divider : UInt32) (control : UInt8) :
    signal divider control =
      (anySet control 0x04 && decide (divider.toNat / tapWeight control % 2 = 1)) := by
  have hsmall : (tapBit control).toNat % 32 = (tapBit control).toNat := by
    rcases tapBit_cases control with h | h | h | h <;> rw [h] <;> decide
  have hdigit : ((divider >>> tapBit control) &&& 1).toNat =
      divider.toNat / tapWeight control % 2 := by
    rw [UInt32.toNat_and, UInt32.toNat_shiftRight, hsmall, Nat.shiftRight_eq_div_pow]
    exact Nat.and_one_is_mod _
  have hbit : ((divider >>> tapBit control) &&& 1 != 0) =
      decide (divider.toNat / tapWeight control % 2 = 1) := by
    rw [← hdigit, Bool.eq_iff_iff, bne_iff_ne, decide_eq_true_iff, ne_eq, ← UInt32.toNat_inj]
    have hlt : ((divider >>> tapBit control) &&& 1).toNat < 2 := by
      rw [hdigit]
      exact Nat.mod_lt _ (by decide)
    show ¬ _ = 0 ↔ _
    omega
  unfold signal
  rw [hbit]

/-- The divider is at this cycle in the upper half of a period of the tap. -/
def highAt (t : Timer) (n : Nat) : Prop :=
  (t.divider.toNat + machineCycle * n) / tapWeight t.control % 2 = 1

instance (t : Timer) (n : Nat) : Decidable (t.highAt n) :=
  inferInstanceAs (Decidable (_ = _))

/-- Edges that the tap makes in some machine cycles, if no register is written. -/
def edges (t : Timer) (n : Nat) : Nat :=
  (t.divider.toNat + machineCycle * n) / (2 * tapWeight t.control) -
    t.divider.toNat / (2 * tapWeight t.control)

theorem edges_zero (t : Timer) : t.edges 0 = 0 := Nat.sub_self _

/-- A machine cycle makes an edge exactly if the signal is high before and low after it. -/
theorem edges_succ (t : Timer) (n : Nat) :
    t.edges (n + 1) = t.edges n + if t.highAt n ∧ ¬ t.highAt (n + 1) then 1 else 0 := by
  -- a period lasts longer than a machine cycle, whichever of the four taps it is
  by_cases hedge : t.highAt n ∧ ¬ t.highAt (n + 1)
  · rw [if_pos hedge]
    unfold highAt machineCycle at hedge
    unfold edges machineCycle
    rcases tapWeight_cases t.control with h | h | h | h <;> rw [h] at hedge ⊢ <;> omega
  · rw [if_neg hedge]
    unfold highAt machineCycle at hedge
    unfold edges machineCycle
    rcases tapWeight_cases t.control with h | h | h | h <;> rw [h] at hedge ⊢ <;> omega

theorem edges_le_succ (t : Timer) (n : Nat) :
    t.edges n ≤ t.edges (n + 1) ∧ t.edges (n + 1) ≤ t.edges n + 1 := by
  rw [edges_succ]
  split <;> omega

theorem edges_mono (t : Timer) {m n : Nat} (h : m ≤ n) : t.edges m ≤ t.edges n :=
  monotone_nat_of_le_succ (fun n => (t.edges_le_succ n).1) h

/-- The divider starts again at zero, and the tap does not notice. -/
theorem signal_of_divider {t : Timer} {divider : UInt32} {n : Nat}
    (hdivider : divider.toNat = (t.divider.toNat + machineCycle * n) % 2 ^ 32)
    (hon : anySet t.control 0x04 = true) :
    signal divider t.control = decide (t.highAt n) := by
  rw [signal_eq, hon, hdivider, Bool.true_and]
  have hwrap : (t.divider.toNat + machineCycle * n) % 2 ^ 32 / tapWeight t.control % 2 =
      (t.divider.toNat + machineCycle * n) / tapWeight t.control % 2 := by
    rcases tapWeight_cases t.control with h | h | h | h <;> rw [h] <;> omega
  rw [hwrap]
  rfl

/-! ## Counting -/

/-- Edges up to the first overflow. -/
def room (t : Timer) : Nat := 256 - t.counter.toNat

/-- Edges from one overflow to the next. -/
def lap (t : Timer) : Nat := 256 - t.modulo.toNat

/-- Where the counter stands after some edges, once every reload is complete. -/
def countAfter (t : Timer) (k : Nat) : Nat :=
  if k < t.room then t.counter.toNat + k else t.modulo.toNat + (k - t.room) % t.lap

/-- The edge of this number makes the counter wrap. -/
def OverflowsAt (t : Timer) (k : Nat) : Prop := t.room ≤ k ∧ (k - t.room) % t.lap = 0

theorem room_pos (t : Timer) : 0 < t.room := by
  have hlt := t.counter.toNat_lt
  unfold room
  omega

theorem lap_pos (t : Timer) : 0 < t.lap := by
  have hlt := t.modulo.toNat_lt
  unfold lap
  omega

theorem mod_lap_succ (q : Nat) {lap : Nat} (hpos : 0 < lap) :
    (q + 1) % lap = if q % lap + 1 = lap then 0 else q % lap + 1 := by
  have hlt := Nat.mod_lt q hpos
  rw [← Nat.mod_add_mod]
  split
  · rename_i hlast
    rw [hlast, Nat.mod_self]
  · exact Nat.mod_eq_of_lt (by omega)

/-- The counter wraps on the edge after `0xFF`, and counts up on every other. -/
theorem countAfter_succ (t : Timer) (k : Nat) :
    (t.OverflowsAt (k + 1) ↔ t.countAfter k = 255) ∧ t.countAfter k ≤ 255 ∧
      (t.countAfter k < 255 → t.countAfter (k + 1) = t.countAfter k + 1) := by
  have hcounter := t.counter.toNat_lt
  have hmodulo := t.modulo.toNat_lt
  have hlap : t.lap = 256 - t.modulo.toNat := rfl
  have hroom : t.room = 256 - t.counter.toNat := rfl
  have hlt := Nat.mod_lt (k - t.room) t.lap_pos
  have hsucc := mod_lap_succ (k - t.room) t.lap_pos
  unfold countAfter OverflowsAt
  by_cases hfirst : k < t.room
  · rw [if_pos hfirst]
    by_cases hlast : k + 1 < t.room
    · rw [if_pos hlast]
      omega
    · -- this edge is the first that makes it wrap
      have hzero : k + 1 - t.room = 0 := by omega
      rw [if_neg hlast, hzero, Nat.zero_mod]
      omega
  · have hnext : k + 1 - t.room = (k - t.room) + 1 := by omega
    rw [if_neg hfirst, if_neg (by omega : ¬ k + 1 < t.room), hnext, hsucc]
    split <;> omega

/-! ## Machine cycles -/

theorem ticks_concat (n : Nat) (t : Timer) :
    ticks (n + 1) t = ((ticks n t).1.tick.1, (ticks n t).2 || (ticks n t).1.tick.2) := by
  rw [ticks_eq_run, List.replicate_succ', run_concat, ticks_eq_run]
  rfl

/-- What a timer and its requests are after some machine cycles. -/
structure Counted (t : Timer) (n : Nat) (result : Timer × Bool) : Prop where
  settled : result.1.Settled
  divider : result.1.divider.toNat = (t.divider.toNat + machineCycle * n) % 2 ^ 32
  modulo : result.1.modulo = t.modulo
  control : result.1.control = t.control
  counter : result.1.reloadPending = false → result.1.counter.toNat = t.countAfter (t.edges n)
  pending : result.1.reloadPending = true ↔
    t.OverflowsAt (t.edges n) ∧ t.edges (n - 1) < t.edges n
  requested : result.2 = true ↔ ∃ m < n, t.room ≤ t.edges m

theorem counted_start {t : Timer} (ht : t.Settled) (hidle : t.reloadPending = false) :
    t.Counted 0 (t, false) := by
  have hroom := t.room_pos
  refine ⟨ht, ?_, rfl, rfl, fun _ => ?_, ?_, ?_⟩
  · exact (Nat.mod_eq_of_lt t.divider.toNat_lt).symm
  · rw [edges_zero, countAfter, if_pos hroom]
    rfl
  · rw [hidle, edges_zero]
    simp
  · simp

theorem Counted.divider_succ {t : Timer} {n : Nat} {result : Timer × Bool}
    (h : t.Counted n result) :
    (result.1.divider + 4).toNat = (t.divider.toNat + machineCycle * (n + 1)) % 2 ^ 32 := by
  rw [UInt32.toNat_add, h.divider]
  show (_ % 2 ^ 32 + 4) % 2 ^ 32 = _
  unfold machineCycle
  omega

/-- An overflow that nobody has noticed yet happened on the last edge. -/
theorem Counted.requested_succ {t : Timer} {n : Nat} {result : Timer × Bool}
    (h : t.Counted n result) :
    (result.2 || result.1.reloadPending) = true ↔ ∃ m < n + 1, t.room ≤ t.edges m := by
  have hroom := t.room_pos
  rw [Bool.or_eq_true, h.requested, h.pending]
  constructor
  · rintro (⟨m, hm, hreached⟩ | ⟨⟨hreached, -⟩, -⟩)
    · exact ⟨m, by omega, hreached⟩
    · exact ⟨n, by omega, hreached⟩
  · rintro ⟨m, hm, hreached⟩
    by_cases hearlier : m < n
    · exact .inl ⟨m, hearlier, hreached⟩
    · have hmn : m = n := by omega
      subst hmn
      cases m with
      | zero =>
        rw [edges_zero] at hreached
        omega
      | succ m =>
        by_cases hbefore : t.room ≤ t.edges m
        · exact .inl ⟨m, by omega, hbefore⟩
        · -- the edge of this very cycle is the one that made it wrap
          have hstep := t.edges_le_succ m
          have hfirst : t.edges (m + 1) - t.room = 0 := by omega
          refine .inr ⟨⟨hreached, ?_⟩, ?_⟩
          · rw [hfirst, Nat.zero_mod]
          · rw [Nat.add_sub_cancel]
            omega

/-- While a reload waits the next machine cycle completes it, and makes no edge. -/
theorem Counted.tick_of_pending {t : Timer} {n : Nat} {result : Timer × Bool}
    (h : t.Counted n result) (hon : anySet t.control 0x04 = true)
    (hpending : result.1.reloadPending = true) :
    t.Counted (n + 1) (result.1.tick.1, result.2 || result.1.tick.2) := by
  have hlow : ¬ t.highAt n := by
    have hlevel := (h.settled.pending hpending).2
    unfold level at hlevel
    rw [h.control, signal_of_divider h.divider hon] at hlevel
    exact of_decide_eq_false hlevel
  have hsame : t.edges (n + 1) = t.edges n := by
    rw [edges_succ, if_neg fun hedge => hlow hedge.1]
    rfl
  obtain ⟨hreached, hwraps⟩ := (h.pending.1 hpending).1
  have hrequested := h.requested_succ
  rw [tick_eq_turn]
  refine ⟨settled_turn h.settled _ _, ?_, ?_, ?_, ?_, ?_, ?_⟩ <;>
    rw [turn_of_pending h.settled hpending]
  · exact h.divider_succ
  · exact h.modulo
  · exact h.control
  · intro _
    show result.1.modulo.toNat = _
    rw [hsame, countAfter, if_neg (by omega), hwraps, h.modulo]
    rfl
  · rw [hsame, Nat.add_sub_cancel]
    simp
  · rw [← hrequested, hpending]

/-- While no reload waits the next machine cycle counts its edge, if it makes one. -/
theorem Counted.tick_of_idle {t : Timer} {n : Nat} {result : Timer × Bool}
    (h : t.Counted n result) (hon : anySet t.control 0x04 = true)
    (hidle : result.1.reloadPending = false) :
    t.Counted (n + 1) (result.1.tick.1, result.2 || result.1.tick.2) := by
  have hbefore : result.1.level = decide (t.highAt n) := by
    unfold level
    rw [h.control, signal_of_divider h.divider hon]
  have hafter : signal (result.1.divider + 4) result.1.control = decide (t.highAt (n + 1)) := by
    rw [h.control, signal_of_divider h.divider_succ hon]
  have hcounter := h.counter hidle
  have hrequested := h.requested_succ
  obtain ⟨hwraps, hle, hcounts⟩ := t.countAfter_succ (t.edges n)
  have hlast : result.1.counter = 0xFF ↔ t.countAfter (t.edges n) = 255 := by
    rw [← UInt8.toNat_inj, hcounter]
    rfl
  have hedges := t.edges_succ n
  have hturn := turn_of_idle h.settled hidle (result.1.now + machineCycle) (result.1.divider + 4)
  rw [hbefore, hafter] at hturn
  rw [tick_eq_turn]
  refine ⟨settled_turn h.settled _ _, ?_, ?_, ?_, ?_, ?_, ?_⟩ <;> rw [hturn]
  · exact h.divider_succ
  · exact h.modulo
  · exact h.control
  · by_cases hedge : t.highAt n ∧ ¬ t.highAt (n + 1)
    · rw [if_pos hedge] at hedges
      simp only [hedge.1, hedge.2, decide_true, decide_false, Bool.not_false, Bool.and_self,
        Bool.true_and, decide_eq_false_iff_not, if_true]
      intro hmore
      have hlt : t.countAfter (t.edges n) < 255 := by
        have hne := mt hlast.2 hmore
        omega
      rw [hedges, hcounts hlt, UInt8.toNat_add, hcounter]
      exact Nat.mod_eq_of_lt (by show _ + 1 < 256; omega)
    · rw [if_neg hedge, Nat.add_zero] at hedges
      have hnone : (decide (t.highAt n) && !decide (t.highAt (n + 1))) = false := by
        simpa using hedge
      intro _
      simp only [hnone]
      rw [hedges]
      exact hcounter
  · rw [Nat.add_sub_cancel]
    by_cases hedge : t.highAt n ∧ ¬ t.highAt (n + 1)
    · rw [if_pos hedge] at hedges
      simp only [hedge.1, hedge.2, decide_true, decide_false, Bool.not_false, Bool.and_self,
        Bool.true_and, decide_eq_true_eq]
      rw [hedges, hlast, hwraps]
      simp
    · rw [if_neg hedge, Nat.add_zero] at hedges
      have hnone : (decide (t.highAt n) && !decide (t.highAt (n + 1))) = false := by
        simpa using hedge
      simp only [hnone]
      rw [hedges]
      simp
  · rw [← hrequested, hidle]

theorem counted_ticks {t : Timer} (ht : t.Settled) (hidle : t.reloadPending = false)
    (hon : anySet t.control 0x04 = true) (n : Nat) : t.Counted n (ticks n t) := by
  induction n with
  | zero => exact counted_start ht hidle
  | succ n ih =>
    rw [ticks_concat]
    cases hpending : (ticks n t).1.reloadPending with
    | true => exact ih.tick_of_pending hon hpending
    | false => exact ih.tick_of_idle hon hpending

/-- Up to the first overflow the counter just counts. -/
theorem Counted.of_lt {t : Timer} {n : Nat} {result : Timer × Bool} (h : t.Counted n result)
    (hfew : t.edges n < t.room) :
    result.1.counter.toNat = t.counter.toNat + t.edges n ∧ result.1.reloadPending = false ∧
      result.2 = false := by
  have hnone : result.1.reloadPending = false :=
    Bool.eq_false_iff.2 fun hpending => by
      have hreached := (h.pending.1 hpending).1.1
      omega
  refine ⟨?_, hnone, ?_⟩
  · rw [h.counter hnone, countAfter, if_pos hfew]
  · refine Bool.eq_false_iff.2 fun hrequested => ?_
    obtain ⟨m, hm, hreached⟩ := h.requested.1 hrequested
    have hle := t.edges_mono (Nat.le_of_lt hm)
    omega

/-- From the first overflow on the counter goes round from the modulo, and it waits at zero for as
long as the reload does. -/
theorem Counted.of_le {t : Timer} {n : Nat} {result : Timer × Bool} (h : t.Counted n result)
    (hmany : t.room ≤ t.edges n) :
    if (t.edges n - t.room) % t.lap = 0 ∧ t.edges (n - 1) < t.edges n then
      result.1.counter = 0 ∧ result.1.reloadPending = true
    else
      result.1.counter.toNat = t.modulo.toNat + (t.edges n - t.room) % t.lap ∧
        result.1.reloadPending = false := by
  split
  · rename_i hlast
    have hpending := h.pending.2 ⟨⟨hmany, hlast.1⟩, hlast.2⟩
    exact ⟨(h.settled.pending hpending).1, hpending⟩
  · rename_i hearlier
    have hnone : result.1.reloadPending = false :=
      Bool.eq_false_iff.2 fun hpending => by
        obtain ⟨⟨-, hwraps⟩, hfresh⟩ := h.pending.1 hpending
        exact hearlier ⟨hwraps, hfresh⟩
    refine ⟨?_, hnone⟩
    rw [h.counter hnone, countAfter, if_neg (Nat.not_lt.2 hmany)]

/-- A timer that is switched off stands still. -/
theorem ticks_of_off {t : Timer} (ht : t.Settled) (hidle : t.reloadPending = false)
    (hoff : anySet t.control 0x04 = false) (n : Nat) :
    (ticks n t).1.Settled ∧ (ticks n t).1.control = t.control ∧
      (ticks n t).1.counter = t.counter ∧ (ticks n t).1.reloadPending = false ∧
      (ticks n t).2 = false := by
  induction n with
  | zero => exact ⟨ht, rfl, rfl, hidle, rfl⟩
  | succ n ih =>
    obtain ⟨hsettled, hcontrol, hcounter, hpending, hrequested⟩ := ih
    have hlow : (ticks n t).1.level = false := by
      unfold level
      rw [hcontrol, signal_eq, hoff, Bool.false_and]
    rw [ticks_concat, tick_eq_turn]
    refine ⟨settled_turn hsettled _ _, ?_, ?_, ?_, ?_⟩ <;>
      rw [turn_of_idle hsettled hpending]
    · exact hcontrol
    · simpa [hlow] using hcounter
    · simp [hlow]
    · simp [hrequested]

/-! ## The closed form -/

/-- After some machine cycles without a write the counter stands where the number `k` of edges
says. Up to the first overflow it counts on; after it, it stands `j` edges above the modulo, unless
the last edge was an overflow and fell on the last machine cycle, for then the reload waits. The
interrupt is requested exactly if there was an overflow before the last machine cycle. A timer that
is switched off neither counts nor requests. -/
theorem advance_closed_form {t : Timer} (ht : t.Reachable) (hidle : t.reloadPending = false)
    (n : Nat) :
    let after := t.advance (4 * n)
    let tap := (tapBit t.control).toNat
    let passed (m : Nat) := (t.divider.toNat + 4 * m) / 2 ^ (tap + 1) -
      t.divider.toNat / 2 ^ (tap + 1)
    let k := passed n
    let j := (k - (256 - t.counter.toNat)) % (256 - t.modulo.toNat)
    (t.control &&& 0x04 ≠ 0 →
      (k < 256 - t.counter.toNat → after.1.counter.toNat = t.counter.toNat + k ∧
        after.1.reloadPending = false ∧ after.2 = false) ∧
      (256 - t.counter.toNat ≤ k →
        if j = 0 ∧ passed (n - 1) < k then after.1.counter = 0 ∧ after.1.reloadPending = true
        else after.1.counter.toNat = t.modulo.toNat + j ∧ after.1.reloadPending = false) ∧
      (after.2 = true ↔ ∃ m < n, 256 - t.counter.toNat ≤ passed m)) ∧
    (t.control &&& 0x04 = 0 →
      after.1.counter = t.counter ∧ after.1.reloadPending = false ∧ after.2 = false) := by
  have hsettled := ht.settled
  have hticks : t.advance (4 * n) = ticks n t := t.advance_eq_ticks n
  have hperiod : 2 ^ ((tapBit t.control).toNat + 1) = 2 * tapWeight t.control := Nat.pow_succ'
  intro after tap passed k j
  have hpassed : passed = t.edges := by
    show (fun m => (t.divider.toNat + 4 * m) / 2 ^ ((tapBit t.control).toNat + 1) -
      t.divider.toNat / 2 ^ ((tapBit t.control).toNat + 1)) = _
    rw [hperiod]
    rfl
  have hk : k = t.edges n := by rw [← hpassed]
  have hj : j = (t.edges n - t.room) % t.lap := by rw [← hk]; rfl
  have hafter : after = ticks n t := hticks
  have hroom : 256 - t.counter.toNat = t.room := rfl
  rw [hpassed, hj, hk, hafter, hroom]
  refine ⟨fun hon => ?_, fun hoff => ?_⟩
  · have hcounted := counted_ticks hsettled hidle (bne_iff_ne.2 hon) n
    exact ⟨hcounted.of_lt, hcounted.of_le, hcounted.requested⟩
  · have hdisabled : anySet t.control 0x04 = false := bne_eq_false_iff_eq.2 hoff
    obtain ⟨-, -, hcounter, hpending, hrequested⟩ := ticks_of_off hsettled hidle hdisabled n
    exact ⟨hcounter, hpending, hrequested⟩

/-- A timer that counts every sixteen cycles, one edge before it overflows. -/
def nearOverflow : List Operation :=
  [.write 0xFF06 0xF0, .write 0xFF05 0xFF, .write 0xFF07 0x05]

/-- Eight machine cycles run into the second edge; the overflow of the first is long served. -/
theorem advance_nearOverflow :
    let t := (initial.operate nearOverflow).1
    t.Reachable ∧ t.reloadPending = false ∧ (t.advance 32).1.counter = 0xF1 ∧
      (t.advance 32).2 = true := by
  intro t
  have ht : t.Reachable := ⟨nearOverflow, rfl⟩
  have hidle : t.reloadPending = false := by decide
  obtain ⟨hon, -⟩ := advance_closed_form ht hidle 8
  obtain ⟨-, hmany, hrequested⟩ := hon (by decide)
  have hcounter := hmany (by decide)
  rw [if_neg (by decide)] at hcounter
  refine ⟨ht, hidle, UInt8.toNat_inj.1 (hcounter.1.trans (by decide)), ?_⟩
  exact hrequested.2 ⟨4, by decide, by decide⟩

end DotMatrix.Timer
