import DotMatrix.Proofs.Sound.Decoding

/-!
# Registers and what channels make of them

A register is kept twice: as the byte that was written, and decoded in the channel that it belongs
to. The two agree after every operation (`registers_agree`), with one exception: a trigger
switches the converter of the wave channel on and leaves the byte of its register as it is.
-/

namespace DotMatrix

theorem Memory.read_zeros {n i : Nat} (h : i < n) : (Memory.zeros n).read i = 0 := by
  simp [zeros, read, h]

theorem Memory.read_writeAll_replicate {n : Nat} (m : Memory n) (start count : Nat) (val : UInt8)
    (h : start + count ≤ n) (j : Nat) :
    (m.writeAll start (List.replicate count val)).read j =
      if start ≤ j ∧ j < start + count then val else m.read j := by
  induction count generalizing m start with
  | zero =>
    rw [if_neg (by omega)]
    rfl
  | succ count ih =>
    rw [List.replicate_succ, writeAll, ih _ _ (by omega), read_write]
    -- the first cell, the cells behind it, and all others
    by_cases hfirst : start = j
    · rw [if_neg (by omega), if_pos (by omega), if_pos (by omega)]
    · by_cases hrest : start + 1 ≤ j ∧ j < start + 1 + count
      · rw [if_pos hrest, if_pos (by omega)]
      · rw [if_neg hrest, if_neg (by omega), if_neg (by omega)]

namespace Sound

/-! ## The controller -/

/-- What the channels and the mixer use is what the bytes say, but for the sample table. -/
structure Decoded (s : Sound) (triggered : Bool) (bytes : UInt16 → UInt8) : Prop where
  square1 : s.square1.Decoded (bytes 0xFF11) (bytes 0xFF12) (bytes 0xFF14)
  sweep1 : s.square1.Sweeps (bytes 0xFF10)
  square2 : s.square2.Decoded (bytes 0xFF16) (bytes 0xFF17) (bytes 0xFF19)
  sweep2 : s.square2.sweep = none
  frequency2 : s.square2.waveform.frequency = frequencyOf (bytes 0xFF18) (bytes 0xFF19)
  wave : s.wave.Decoded triggered (bytes 0xFF1A) (bytes 0xFF1C) (bytes 0xFF1D) (bytes 0xFF1E)
  noise : s.noise.Decoded (bytes 0xFF21) (bytes 0xFF22) (bytes 0xFF23)
  leftVolume : s.leftVolume = (bytes 0xFF24).toNat / 16 % 8
  rightVolume : s.rightVolume = (bytes 0xFF24).toNat % 8
  panning : s.panning = bytes 0xFF25

/-- The registers that `Decoded` is about. -/
def decodedRegisters : List UInt16 :=
  [0xFF10, 0xFF11, 0xFF12, 0xFF14, 0xFF16, 0xFF17, 0xFF18, 0xFF19, 0xFF1A, 0xFF1C, 0xFF1D, 0xFF1E,
    0xFF21, 0xFF22, 0xFF23, 0xFF24, 0xFF25]

/-- Two samples are in each byte of the table, the first in the upper half. -/
def TableDecoded (s : Sound) (bytes : UInt16 → UInt8) : Prop :=
  ∀ i, i < 16 →
    s.wave.table[2 * i]? = some (bytes (0xFF30 + i.toUInt16) >>> 4) ∧
      s.wave.table[2 * i + 1]? = some (bytes (0xFF30 + i.toUInt16) &&& 0x0F)

/-- The bytes after one of them is written. -/
def setByte (bytes : UInt16 → UInt8) (addr : UInt16) (val : UInt8) : UInt16 → UInt8 :=
  fun a => if a = addr then val else bytes a

/-- Whether the wave channel counts as triggered after a register is written: since its converter
was switched by its own register or with the power. -/
def triggeredBy (triggered : Bool) (addr : UInt16) (val : UInt8) : Bool :=
  match addr with
  | 0xFF1A => false
  | 0xFF1E => triggered || anySet val 0x80
  | 0xFF26 => triggered && anySet val 0x80
  | _ => triggered

theorem triggeredBy_of_other {addr : UInt16} (hpower : addr ≠ 0xFF1A) (hcontrol : addr ≠ 0xFF1E)
    (hswitch : addr ≠ 0xFF26) (triggered : Bool) (val : UInt8) :
    triggeredBy triggered addr val = triggered := by
  unfold triggeredBy
  split
  · exact absurd rfl hpower
  · exact absurd rfl hcontrol
  · exact absurd rfl hswitch
  · rfl

theorem triggeredBy_of_table {addr : UInt16} (h : 0xFF30 ≤ addr) (triggered : Bool) (val : UInt8) :
    triggeredBy triggered addr val = triggered := by
  apply triggeredBy_of_other <;> rintro rfl <;> exact absurd h (by decide)

theorem triggeredBy_of_outside {addr : UInt16} (h : ¬ (0xFF10 ≤ addr ∧ addr ≤ 0xFF3F))
    (triggered : Bool) (val : UInt8) : triggeredBy triggered addr val = triggered := by
  apply triggeredBy_of_other <;> rintro rfl <;> exact h (by decide)

namespace Decoded

variable {s : Sound} {triggered : Bool} {bytes : UInt16 → UInt8} (h : s.Decoded triggered bytes)
include h

theorem of_bytes {bytes' : UInt16 → UInt8} (hsame : ∀ a ∈ decodedRegisters, bytes a = bytes' a) :
    s.Decoded triggered bytes' := by
  obtain ⟨h₁, h₂, h₃, h₄, h₅, h₆, h₇, h₈, h₉, h₁₀⟩ := h
  simp (disch := decide) only [hsame] at h₁ h₂ h₃ h₅ h₆ h₇ h₈ h₉ h₁₀
  exact ⟨h₁, h₂, h₃, h₄, h₅, h₆, h₇, h₈, h₉, h₁₀⟩

theorem setRegisters (registers : Memory 0x30) :
    Decoded { s with registers } triggered bytes :=
  { h with }

/-- Writing a register changes what its byte decides. -/
theorem apply (addr : UInt16) (val : UInt8) (hswitch : addr ≠ 0xFF26) :
    (s.apply addr val).Decoded (triggeredBy triggered addr val) (setByte bytes addr val) := by
  unfold Sound.apply
  split
  · exact { h with square1 := { h.square1 with }, sweep1 := h.sweep1.writeSweep val }
  · exact { h with square1 := h.square1.writeLength val }
  · exact { h with square1 := h.square1.writeEnvelope val }
  -- the frequency of the channel with the sweep is not among what is decoded
  · exact { h with square1 := { h.square1 with } }
  · exact { h with
      square1 := h.square1.writeControl val
      sweep1 := h.sweep1.writeControl val }
  · exact { h with square2 := h.square2.writeLength val }
  · exact { h with square2 := h.square2.writeEnvelope val }
  · exact { h with
      square2 := { h.square2 with }
      frequency2 := Waveform.frequency_setLow h.frequency2 val }
  · obtain ⟨hsweep, hfrequency⟩ := Square.frequency_writeControl h.sweep2 val
    exact { h with
      square2 := h.square2.writeControl val
      sweep2 := hsweep
      frequency2 := hfrequency.trans (Waveform.frequency_setHigh h.frequency2 val) }
  · exact { h with wave := h.wave.writePower val }
  · exact { h with wave := { h.wave with } }
  · exact { h with wave := h.wave.writeVolume val }
  · exact { h with wave := h.wave.writeLow val }
  · exact { h with wave := h.wave.writeControl val }
  · exact { h with noise := { h.noise with } }
  · exact { h with noise := h.noise.writeEnvelope val }
  · exact { h with noise := h.noise.writeFrequency val }
  · exact { h with noise := h.noise.writeControl val }
  · exact { h with leftVolume := rfl, rightVolume := rfl }
  · exact { h with panning := rfl }
  · -- the address is in the sample table, or there is no register
    rename_i hpower _ _ _ hcontrol _ _ _ _ _ _
    have hother : ∀ a ∈ decodedRegisters, bytes a = setByte bytes addr val a := by
      intro a ha
      refine (if_neg ?_).symm
      rintro rfl
      simp_all [decodedRegisters]
    have hsame := h.of_bytes hother
    rw [triggeredBy_of_other hpower hcontrol hswitch]
    split
    · exact { hsame with wave := hsame.wave.writeTable _ val }
    · exact hsame

/-! ### Ticks and samples -/

theorem told (now : Nat) : (s.told now).Decoded triggered bytes :=
  { h with noise := h.noise.update (now - s.poweredAt) }

theorem clockLengths : s.clockLengths.Decoded triggered bytes :=
  { h with
    square1 := { h.square1 with }
    square2 := { h.square2 with }
    wave := { h.wave with }
    noise := { h.noise with } }

theorem clockEnvelopes : s.clockEnvelopes.Decoded triggered bytes :=
  { h with
    square1 := h.square1.clockEnvelope
    square2 := h.square2.clockEnvelope
    noise := { h.noise with envelope := h.noise.envelope.clock } }

theorem clockSweep : s.clockSweep.Decoded triggered bytes :=
  { h with
    square1 := h.square1.clockSweep
    sweep1 := h.sweep1.clockSweep }

theorem sequencerTick (tick : Nat) : (s.sequencerTick tick).Decoded triggered bytes := by
  unfold Sound.sequencerTick
  split
  · exact h
  · have hlengths : Decoded (if (sequencerEvents tick).length then s.clockLengths else s)
        triggered bytes := by
      split
      · exact h.clockLengths
      · exact h
    dsimp only
    generalize (if (sequencerEvents tick).length then s.clockLengths else s) = t at hlengths ⊢
    have henvelopes : Decoded (if (sequencerEvents tick).envelope then t.clockEnvelopes else t)
        triggered bytes := by
      split
      · exact hlengths.clockEnvelopes
      · exact hlengths
    split
    · exact henvelopes.clockSweep
    · exact henvelopes

theorem computeSample : s.computeSample.Decoded triggered bytes := by
  unfold Sound.computeSample
  split
  · exact { h with
      square1 := { h.square1 with }
      square2 := { h.square2 with }
      frequency2 := (Waveform.frequency_advance _ _ _ _).trans h.frequency2
      wave := h.wave.advance s.rendered }
  · exact { h with }

theorem writeSample : s.writeSample.Decoded triggered bytes := by
  unfold Sound.writeSample
  dsimp only
  split
  · exact { h with }
  · exact { h with }

end Decoded

/-! ### The sample table -/

theorem toNat_tableAddress {i : Nat} (hi : i < 16) :
    (0xFF30 + i.toUInt16 : UInt16).toNat = 0xFF30 + i := by
  rw [UInt16.toNat_add]
  show (0xFF30 + i % 65536) % 65536 = _
  omega

theorem apply_of_table {addr : UInt16} (htable : 0xFF30 ≤ addr) (s : Sound) (val : UInt8) :
    s.apply addr val = { s with wave := s.wave.writeTable (addr.toNat - 0xFF30) val } := by
  unfold Sound.apply
  split
  case h_21 => exact if_pos htable
  -- the other addresses are below the table
  all_goals exact absurd htable (by decide)

theorem table_apply_of_lt {addr : UInt16} (hlt : addr < 0xFF30) (s : Sound) (val : UInt8) :
    (s.apply addr val).wave.table = s.wave.table := by
  unfold Sound.apply
  split
  case h_14 =>
    unfold Wave.writeControl
    dsimp only
    split <;> rfl
  case h_21 => rw [if_neg (UInt16.not_le.2 hlt)]
  all_goals rfl

theorem TableDecoded.apply {s : Sound} {bytes : UInt16 → UInt8} (h : s.TableDecoded bytes)
    {addr : UInt16} (haddr : addr ≤ 0xFF3F) (val : UInt8) :
    (s.apply addr val).TableDecoded (setByte bytes addr val) := by
  intro i hi
  have hbyte := toNat_tableAddress hi
  obtain ⟨hfirst, hsecond⟩ := h i hi
  unfold setByte
  by_cases htable : 0xFF30 ≤ addr
  · have hlo := UInt16.le_iff_toNat_le.1 htable
    have hhi := UInt16.le_iff_toNat_le.1 haddr
    rw [apply_of_table htable]
    show (s.wave.writeTable (addr.toNat - 0xFF30) val).table[2 * i]? = _ ∧
      (s.wave.writeTable (addr.toNat - 0xFF30) val).table[2 * i + 1]? = _
    have hpos : addr.toNat - 0xFF30 < 16 := by
      have hmax : addr.toNat ≤ 0xFF3F := hhi
      omega
    have hsame : 0xFF30 + i.toUInt16 = addr ↔ addr.toNat - 0xFF30 = i := by
      have hmin : 0xFF30 ≤ addr.toNat := hlo
      rw [← UInt16.toNat_inj, hbyte]
      omega
    simp only [hsame]
    generalize addr.toNat - 0xFF30 = pos at hpos
    exact Wave.table_writeTable hpos hi hfirst hsecond val
  · have hlt : addr < 0xFF30 := UInt16.not_le.1 htable
    have hne : 0xFF30 + i.toUInt16 ≠ addr := by
      rintro rfl
      rw [UInt16.lt_iff_toNat_lt, hbyte] at hlt
      exact absurd hlt (Nat.not_lt.2 (Nat.le_add_right _ _))
    rw [table_apply_of_lt hlt, if_neg hne]
    exact ⟨hfirst, hsecond⟩

/-! ## Stored bytes -/

/-- The byte of a register as it was stored, with the bits that are never read back. -/
def stored (s : Sound) (addr : UInt16) : UInt8 := s.registers.read (addr.toNat - 0xFF10)

theorem registers_apply (s : Sound) (addr : UInt16) (val : UInt8) :
    (s.apply addr val).registers = s.registers ∧ (s.apply addr val).powered = s.powered := by
  unfold Sound.apply
  split
  case h_21 => split <;> exact ⟨rfl, rfl⟩
  all_goals exact ⟨rfl, rfl⟩

theorem stored_apply (s : Sound) (addr : UInt16) (val : UInt8) (a : UInt16) :
    (s.apply addr val).stored a = s.stored a := by
  unfold stored
  rw [(s.registers_apply addr val).1]

/-- The controller with a byte stored and nothing done about it. -/
def store (s : Sound) (addr : UInt16) (val : UInt8) : Sound :=
  { s with registers := s.registers.write (addr.toNat - 0xFF10) val }

theorem kept_store (s : Sound) (addr : UInt16) (val : UInt8) :
    (s.store addr val).powered = s.powered ∧ (s.store addr val).wave = s.wave := by
  unfold store
  exact ⟨rfl, rfl⟩

theorem stored_store (s : Sound) {addr a : UInt16} (hlo : 0xFF10 ≤ addr) (hhi : addr ≤ 0xFF3F)
    (ha : 0xFF10 ≤ a) (val : UInt8) :
    (s.store addr val).stored a = setByte s.stored addr val a := by
  have hlo : 0xFF10 ≤ addr.toNat := UInt16.le_iff_toNat_le.1 hlo
  have hhi : addr.toNat ≤ 0xFF3F := UInt16.le_iff_toNat_le.1 hhi
  have ha : 0xFF10 ≤ a.toNat := UInt16.le_iff_toNat_le.1 ha
  have hcell : (addr.toNat - 0xFF10 = a.toNat - 0xFF10 ∧ addr.toNat - 0xFF10 < 0x30) ↔
      a = addr := by
    rw [← UInt16.toNat_inj]
    omega
  unfold stored store setByte
  rw [Memory.read_write]
  simp only [hcell]

/-- Everything agrees with the bytes that are stored, and without power there is nothing in those
that the power switch clears. -/
structure Agrees (s : Sound) (triggered : Bool) : Prop where
  decoded : s.Decoded triggered s.stored
  table : s.TableDecoded s.stored
  cleared : s.powered = false → ∀ addr, 0xFF10 ≤ addr → addr ≤ 0xFF25 → s.stored addr = 0

theorem mem_decodedRegisters {a : UInt16} (h : a ∈ decodedRegisters) :
    0xFF10 ≤ a ∧ a ≤ 0xFF25 := by
  have hall : ∀ a ∈ decodedRegisters, 0xFF10 ≤ a ∧ a ≤ 0xFF25 := by
    simp [decodedRegisters]
  exact hall a h

theorem le_tableAddress {i : Nat} (hi : i < 16) : 0xFF30 ≤ (0xFF30 + i.toUInt16 : UInt16) := by
  rw [UInt16.le_iff_toNat_le, toNat_tableAddress hi]
  exact Nat.le_add_right _ _

theorem TableDecoded.of_eq {s t : Sound} {bytes bytes' : UInt16 → UInt8} (h : s.TableDecoded bytes)
    (htable : t.wave.table = s.wave.table) (hsame : ∀ a, 0xFF30 ≤ a → bytes a = bytes' a) :
    t.TableDecoded bytes' := by
  intro i hi
  rw [htable, ← hsame _ (le_tableAddress hi)]
  exact h i hi

namespace Agrees

variable {s : Sound} {triggered : Bool} (h : s.Agrees triggered)
include h

theorem store_apply {addr : UInt16} (hlo : 0xFF10 ≤ addr) (hhi : addr ≤ 0xFF3F)
    (hswitch : addr ≠ 0xFF26) (hreaches : s.powered = true ∨ 0xFF30 ≤ addr) (val : UInt8) :
    ((s.store addr val).apply addr val).Agrees (triggeredBy triggered addr val) := by
  have hpowered := ((s.store addr val).registers_apply addr val).2
  have hstored : ∀ a, 0xFF10 ≤ a →
      setByte s.stored addr val a = ((s.store addr val).apply addr val).stored a := by
    intro a ha
    rw [stored_apply, stored_store s hlo hhi ha]
  obtain ⟨hkept, hwave⟩ := s.kept_store addr val
  have hdecoded : (s.store addr val).Decoded triggered s.stored := h.decoded.setRegisters _
  refine ⟨?_, ?_, fun hoff a ha hclear => ?_⟩
  · refine (hdecoded.apply addr val hswitch).of_bytes fun a ha => ?_
    exact hstored a (mem_decodedRegisters ha).1
  · have htable : (s.store addr val).TableDecoded s.stored :=
      h.table.of_eq (by rw [hwave]) fun _ _ => rfl
    refine (htable.apply hhi val).of_eq rfl fun a ha => ?_
    exact hstored a (UInt16.le_trans (by decide) ha)
  · -- without power, only the table can be written
    rw [hpowered, hkept] at hoff
    have htable : 0xFF30 ≤ addr := hreaches.resolve_left (by simp [hoff])
    have hne : a ≠ addr := by
      rintro rfl
      exact absurd (UInt16.le_trans htable hclear) (by decide)
    rw [← hstored a ha, setByte, if_neg hne]
    exact h.cleared hoff a ha hclear

end Agrees

/-! ## The power switch -/

theorem stored_powerOff (s : Sound) {a : UInt16} (ha : 0xFF10 ≤ a) :
    s.powerOff.stored a = if a ≤ 0xFF25 then 0 else s.stored a := by
  have ha : 0xFF10 ≤ a.toNat := UInt16.le_iff_toNat_le.1 ha
  have hcell : (0 ≤ a.toNat - 0xFF10 ∧ a.toNat - 0xFF10 < 0 + 0x16) ↔ a ≤ 0xFF25 := by
    rw [UInt16.le_iff_toNat_le]
    show _ ↔ a.toNat ≤ 0xFF25
    omega
  unfold stored powerOff
  dsimp only
  rw [Memory.read_writeAll_replicate _ _ _ _ (by decide)]
  simp only [hcell]

theorem stored_powerOff_of_table (s : Sound) {a : UInt16} (ha : 0xFF30 ≤ a) :
    s.powerOff.stored a = s.stored a := by
  have hnot : ¬ a ≤ 0xFF25 := fun hle => absurd (UInt16.le_trans ha hle) (by decide)
  rw [stored_powerOff s (UInt16.le_trans (by decide) ha), if_neg hnot]

/-- Zeros decode to channels as they are made, and to a mixer that is turned down. -/
theorem decoded_zero {s : Sound} {table : Vector UInt8 32}
    (hsquare1 : s.square1 = .initial (some .initial)) (hsquare2 : s.square2 = .initial none)
    (hwave : s.wave = .initial table) (hnoise : s.noise = .initial) (hleft : s.leftVolume = 0)
    (hright : s.rightVolume = 0) (hpanning : s.panning = 0) :
    s.Decoded false (fun _ => 0) where
  square1 := hsquare1 ▸ Square.decoded_initial _
  sweep1 := ⟨.initial, congrArg Square.sweep hsquare1, Sweep.decoded_initial⟩
  square2 := hsquare2 ▸ Square.decoded_initial _
  sweep2 := congrArg Square.sweep hsquare2
  frequency2 := congrArg (fun c => c.waveform.frequency) hsquare2
  wave := hwave ▸ Wave.decoded_initial _
  noise := hnoise ▸ Noise.decoded_initial
  leftVolume := hleft
  rightVolume := hright
  panning := hpanning

namespace Agrees

variable {s : Sound} {triggered : Bool} (h : s.Agrees triggered)
include h

theorem powerOn : s.powerOn.Agrees triggered where
  decoded := { h.decoded with }
  table := h.table
  cleared := nofun

theorem powerOff : s.powerOff.Agrees false where
  decoded := by
    have hzero : s.powerOff.Decoded false (fun _ => 0) :=
      decoded_zero rfl rfl rfl rfl rfl rfl rfl
    refine hzero.of_bytes fun a ha => ?_
    obtain ⟨hlo, hhi⟩ := mem_decodedRegisters ha
    rw [stored_powerOff s hlo, if_pos hhi]
  table := h.table.of_eq rfl fun _ ha => (s.stored_powerOff_of_table ha).symm
  cleared _ addr hlo hhi := by rw [stored_powerOff s hlo, if_pos hhi]

theorem writePower (val : UInt8) :
    (s.writePower val).Agrees (if s.powered then triggered && anySet val 0x80 else triggered) := by
  unfold Sound.writePower
  dsimp only
  cases hpowered : s.powered <;> cases hon : anySet val 0x80
  · simpa using h
  · simpa using h.powerOn
  · simpa using h.powerOff
  · simpa using h

end Agrees

/-! ## Operations -/

/-- Whether the wave channel counts as triggered after an operation. -/
def triggeredAfter (s : Sound) (triggered : Bool) : Operation → Bool
  | .write addr val => if s.powered then triggeredBy triggered addr val else triggered
  | .setMultiplier _ | .update _ => triggered

def triggered (s : Sound) (before : Bool) : List Operation → Bool
  | [] => before
  | op :: ops => triggered (op.apply s) (s.triggeredAfter before op) ops

/-- Without power nothing below the sample table can be written but the power switch. -/
theorem write_of_off {s : Sound} (hoff : s.powered = false) {addr : UInt16} (haddr : addr < 0xFF30)
    (hswitch : addr ≠ 0xFF26) (val : UInt8) : s.write addr val = s := by
  unfold Sound.write
  rw [if_neg hswitch]
  split
  · rfl
  · exact if_pos (by simp [hoff, haddr])

theorem write_of_outside {addr : UInt16} (haddr : ¬ (0xFF10 ≤ addr ∧ addr ≤ 0xFF3F)) (s : Sound)
    (val : UInt8) : s.write addr val = s := by
  refine if_pos ?_
  rw [not_and_or, UInt16.not_le, UInt16.not_le] at haddr
  simpa using haddr

theorem write_of_reaches {s : Sound} {addr : UInt16} (hlo : 0xFF10 ≤ addr) (hhi : addr ≤ 0xFF3F)
    (hswitch : addr ≠ 0xFF26) (hreaches : s.powered = true ∨ 0xFF30 ≤ addr) (val : UInt8) :
    s.write addr val = (s.store addr val).apply addr val := by
  have hinside : ¬ (addr < 0xFF10 || 0xFF3F < addr) = true := by
    simp [UInt16.not_lt.2 hlo, UInt16.not_lt.2 hhi]
  have hreached : ¬ (!s.powered && addr < 0xFF30) = true := by
    rcases hreaches with hon | htable
    · simp [hon]
    · simp [UInt16.not_lt.2 htable]
  unfold Sound.write
  rw [if_neg hinside, if_neg hswitch, if_neg hreached]
  rfl

/-- Time changes neither the sample table nor what was stored, and the power stays as it is. -/
theorem sameFront_update (s : Sound) (now : Nat) :
    (s.update now).wave.table = s.wave.table ∧ (s.update now).registers = s.registers ∧
      (s.update now).powered = s.powered := by
  rw [update_eq, sequenced_eq]
  refine sampleTicks_invariant (P := fun t => t.wave.table = s.wave.table ∧
      t.registers = s.registers ∧ t.powered = s.powered)
    (fun t ht => ?_) (fun t ht => ?_) (fun _ _ ht => ht) ?_ _
  · unfold computeSample
    split <;> exact ht
  · unfold writeSample
    dsimp only
    split <;> exact ht
  · refine sequencerTicks_invariant (P := fun t => t.wave.table = s.wave.table ∧
        t.registers = s.registers ∧ t.powered = s.powered)
      (fun t tick ht => ?_) (s := s.told now) ⟨rfl, rfl, rfl⟩ _ _
    unfold sequencerTick
    split
    · exact ht
    · dsimp only
      split <;> split <;> split <;> exact ht

theorem stored_update (s : Sound) (now : Nat) : (s.update now).stored = s.stored := by
  obtain ⟨-, hregisters, -⟩ := s.sameFront_update now
  funext addr
  unfold stored
  rw [hregisters]

theorem Decoded.update {s : Sound} {triggered : Bool} {bytes : UInt16 → UInt8}
    (h : s.Decoded triggered bytes) (now : Nat) : (s.update now).Decoded triggered bytes := by
  rw [update_eq, sequenced_eq]
  refine sampleTicks_invariant (P := fun t => t.Decoded triggered bytes)
    (fun _ ht => ht.computeSample) (fun _ ht => ht.writeSample) (fun _ _ ht => { ht with }) ?_ _
  exact sequencerTicks_invariant (P := fun t => t.Decoded triggered bytes)
    (fun _ tick ht => ht.sequencerTick tick) (h.told now) _ _

namespace Agrees

variable {s : Sound} {before : Bool} (h : s.Agrees before)
include h

theorem write (addr : UInt16) (val : UInt8) :
    (s.write addr val).Agrees (s.triggeredAfter before (.write addr val)) := by
  show (s.write addr val).Agrees (if s.powered then triggeredBy before addr val else before)
  by_cases hswitch : addr = 0xFF26
  · subst hswitch
    exact h.writePower val
  by_cases hrange : 0xFF10 ≤ addr ∧ addr ≤ 0xFF3F
  · obtain ⟨hlo, hhi⟩ := hrange
    by_cases hreaches : s.powered = true ∨ 0xFF30 ≤ addr
    · rw [write_of_reaches hlo hhi hswitch hreaches]
      have hwritten := h.store_apply hlo hhi hswitch hreaches val
      split
      · exact hwritten
      · -- without power the write goes to the table
        rename_i hoff
        have htable := hreaches.resolve_left hoff
        rwa [triggeredBy_of_table htable] at hwritten
    · rw [not_or, UInt16.not_le] at hreaches
      rw [write_of_off (by simpa using hreaches.1) hreaches.2 hswitch, if_neg hreaches.1]
      exact h
  · rw [write_of_outside hrange, triggeredBy_of_outside hrange, ite_self]
    exact h

theorem update (now : Nat) : (s.update now).Agrees before := by
  obtain ⟨htable, -, hpowered⟩ := s.sameFront_update now
  have hstored := s.stored_update now
  refine ⟨?_, ?_, fun hoff => ?_⟩
  · rw [hstored]
    exact h.decoded.update now
  · exact h.table.of_eq htable fun a _ => by rw [hstored]
  · rw [hstored]
    exact h.cleared (hpowered.symm.trans hoff)

theorem operate (ops : List Operation) : (s.operate ops).Agrees (s.triggered before ops) := by
  induction ops generalizing s before with
  | nil => exact h
  | cons op ops ih =>
    cases op with
    | write addr val => exact ih (h.write addr val)
    | setMultiplier multiplier =>
      exact ih (s := s.setMultiplier multiplier) ⟨{ h.decoded with }, h.table, h.cleared⟩
    | update now => exact ih (h.update now)

end Agrees

theorem stored_initial (depth : Nat) {addr : UInt16} (haddr : addr.toNat ≤ 0xFF3F) :
    (initial depth).stored addr = 0 := by
  have hcell : addr.toNat - 0xFF10 < 0x30 := by omega
  unfold stored initial
  exact Memory.read_zeros hcell

theorem agrees_initial (depth : Nat) : (initial depth).Agrees false := by
  have hzero : (initial depth).Decoded false (fun _ => 0) :=
    decoded_zero rfl rfl rfl rfl rfl rfl rfl
  refine ⟨hzero.of_bytes fun a ha => ?_, fun i hi => ?_, fun _ addr _ hhi => ?_⟩
  · have hhi := UInt16.le_iff_toNat_le.1 (mem_decodedRegisters ha).2
    exact (stored_initial depth (Nat.le_trans hhi (by decide))).symm
  · rw [stored_initial depth (by rw [toNat_tableAddress hi]; omega)]
    show (Vector.replicate 32 (0 : UInt8))[2 * i]? = _ ∧
      (Vector.replicate 32 (0 : UInt8))[2 * i + 1]? = _
    rw [Vector.getElem?_replicate, Vector.getElem?_replicate, if_pos (by omega),
      if_pos (by omega)]
    exact ⟨rfl, rfl⟩
  · exact stored_initial depth (Nat.le_trans (UInt16.le_iff_toNat_le.1 hhi) (by decide))

/-! ## What a program reads -/

/-- The lowest bits say which of the channels are heard. -/
theorem anySet_status (s : Sound) :
    anySet s.status 0x01 = s.square1.enabled ∧ anySet s.status 0x04 = s.wave.enabled := by
  have hall : ∀ powered square1 square2 wave noise : Bool,
      let status := bitsIf powered 0x80 ||| 0x70 ||| (bitsIf square1 0x01 ||| bitsIf square2 0x02
        ||| bitsIf wave 0x04 ||| bitsIf noise 0x08)
      anySet status 0x01 = square1 ∧ anySet status 0x04 = wave := by
    decide
  exact hall _ _ _ _ _

theorem anySet_readPower (s : Sound) :
    anySet (s.read 0xFF1A) 0x80 = anySet (s.stored 0xFF1A) 0x80 := by
  show anySet (s.stored 0xFF1A ||| 0x7F) 0x80 = _
  unfold anySet
  rw [or_and]
  exact congrArg (· != 0) UInt8.or_zero

/-- What the program reads and what is played go together. -/
structure Consistent (s : Sound) (triggered : Bool) : Prop extends Agrees s triggered where
  readBack : ∀ addr, 0xFF10 ≤ addr → addr ≤ 0xFF3F → addr ≠ 0xFF26 →
    s.read addr = s.stored addr ||| readMask addr
  /-- A write that is not ignored stores its byte. -/
  stores : ∀ addr, 0xFF10 ≤ addr → addr ≤ 0xFF3F → addr ≠ 0xFF26 →
    s.powered = true ∨ 0xFF30 ≤ addr → ∀ val a, 0xFF10 ≤ a →
      (s.write addr val).stored a = if a = addr then val else s.stored a
  /-- Without power, writes below the sample table are ignored. -/
  ignored : s.powered = false → ∀ addr, addr < 0xFF30 → addr ≠ 0xFF26 → ∀ val,
    s.write addr val = s
  /-- The power switch leaves the sample table and its bytes. -/
  kept : ∀ val, (s.write 0xFF26 val).wave.table = s.wave.table ∧
    ∀ addr, 0xFF30 ≤ addr → (s.write 0xFF26 val).stored addr = s.stored addr
  /-- The wave channel is shown to be on if its converter is shown to be on or a trigger has
  switched it on. -/
  status : anySet (s.read 0xFF26) 0x04 =
    (s.wave.length.active && s.wave.shift ≠ 4 && s.wave.waveform.frequency ≠ 0 &&
      (anySet (s.read 0xFF1A) 0x80 || triggered))

theorem Agrees.consistent {s : Sound} {triggered : Bool} (h : s.Agrees triggered) :
    s.Consistent triggered where
  toAgrees := h
  readBack addr hlo hhi hswitch := by
    unfold Sound.read
    rw [if_neg hswitch]
    exact if_pos (by simp [hlo, hhi])
  stores addr hlo hhi hswitch hreaches val a ha := by
    rw [write_of_reaches hlo hhi hswitch hreaches, stored_apply, stored_store s hlo hhi ha]
    rfl
  ignored hoff addr haddr hswitch val := write_of_off hoff haddr hswitch val
  kept val := by
    show (s.writePower val).wave.table = _ ∧ ∀ addr, _ → (s.writePower val).stored addr = _
    unfold Sound.writePower
    dsimp only
    split
    · exact ⟨rfl, fun _ _ => rfl⟩
    · split
      · exact ⟨rfl, fun _ haddr => s.stored_powerOff_of_table haddr⟩
      · exact ⟨rfl, fun _ _ => rfl⟩
  status := by
    show anySet s.status 0x04 = _
    rw [(anySet_status s).2, anySet_readPower, ← h.decoded.wave.power]
    rfl

/-- Whatever is done with a controller, its channels use what its registers say, with one
exception: the converter of the wave channel can have been switched on by a trigger. -/
theorem registers_agree (depth : Nat) (ops : List Operation) :
    ((initial depth).operate ops).Consistent ((initial depth).triggered false ops) :=
  ((agrees_initial depth).operate ops).consistent

/-- The wave channel is triggered, and its converter is never switched on. -/
def triggerOnly : List Operation :=
  [.write 0xFF26 0x80, .write 0xFF1C 0x20, .write 0xFF1D 0x01, .write 0xFF1E 0x87]

/-- The channel is shown to be on, and its converter to be off. -/
theorem status_triggerOnly :
    anySet (((initial 0).operate triggerOnly).read 0xFF26) 0x04 = true ∧
      anySet (((initial 0).operate triggerOnly).read 0xFF1A) 0x80 = false := by
  decide

end Sound

end DotMatrix
