import DotMatrix.Proofs.Sound.Registers
import DotMatrix.Proofs.Sound.TickCount

/-!
# Switching the sound off and on

A controller that was switched off keeps the state of its filters, the speed, a frame that is not
full, and bytes where there is no register. No channel uses any of this, and none of it can be read.
So after it is switched on again it is like a new controller with the same sample table that is
switched on at the same time (`powerCycle_like_new`).
-/

namespace DotMatrix.Sound

/-! ## What the channels give -/

/-- What the four channels give for the next sample, before they are mixed. Without power they are
not asked. -/
def voices (s : Sound) : Option ChannelSamples :=
  if s.powered then some s.advanceChannels.channelSamples else none

/-- What the channels give for each of the next samples. -/
def voiced (s : Sound) : Nat → List (Option ChannelSamples)
  | 0 => []
  | n + 1 => s.voices :: voiced s.sampleTick n

def Operation.voiced (s : Sound) : Operation → List (Option ChannelSamples)
  | update now => (s.sequenced now).voiced (s.due now)
  | write _ _ | setMultiplier _ => []

/-- What the channels give for each sample that is computed in the course of the operations. -/
def played (s : Sound) : List Operation → List (Option ChannelSamples)
  | [] => []
  | op :: ops => op.voiced s ++ played (op.apply s) ops

/-! ## What the channels use -/

/-- The controller without what no channel uses: the way of the samples through the filters to the
consumer, and the bytes of the registers. -/
def instrument (s : Sound) : Sound :=
  { s.generator with
    registers := .zeros _
    leftFilter := .initial
    rightFilter := .initial
    last := .silence }

theorem instrument_apply (s : Sound) (addr : UInt16) (val : UInt8) :
    (s.apply addr val).instrument = s.instrument.apply addr val := by
  unfold Sound.apply
  split
  all_goals first
    | rfl
    | split <;> rfl

theorem instrument_writePower (s : Sound) (val : UInt8) :
    (s.writePower val).instrument = (s.instrument.writePower val).instrument := by
  have hoff : s.powerOff.instrument = s.instrument.powerOff.instrument := by
    -- unfolded first, or the bytes that are cleared are compared
    unfold instrument generator powerOff
    rfl
  unfold writePower
  rw [show s.instrument.powered = s.powered from rfl]
  dsimp only
  split
  · rfl
  · split
    · exact hoff
    · rfl

theorem instrument_store (s : Sound) (addr : UInt16) (val : UInt8) :
    (s.store addr val).instrument = (s.instrument.store addr val).instrument := by
  unfold instrument generator store
  rfl

theorem instrument_write (s : Sound) (addr : UInt16) (val : UInt8) :
    (s.write addr val).instrument = (s.instrument.write addr val).instrument := by
  unfold Sound.write
  rw [show s.instrument.powered = s.powered from rfl]
  split
  · rfl
  · split
    · exact instrument_writePower s val
    · split
      · rfl
      · show ((s.store addr val).apply addr val).instrument =
          ((s.instrument.store addr val).apply addr val).instrument
        rw [instrument_apply, instrument_apply, instrument_store]

theorem instrument_sampleTick (s : Sound) :
    s.sampleTick.instrument = s.instrument.computeSample.instrument := by
  have htick := congrArg instrument (generator_sampleTick s)
  refine htick.trans ?_
  unfold computeSample
  rw [show s.generator.powered = s.powered from rfl, show s.instrument.powered = s.powered from rfl]
  split <;> rfl

theorem instrument_sequencerTick (s : Sound) (tick : Nat) :
    (s.sequencerTick tick).instrument = s.instrument.sequencerTick tick := by
  unfold sequencerTick
  rw [show s.instrument.powered = s.powered from rfl]
  split
  · rfl
  · dsimp only
    split <;> split <;> split <;> rfl

theorem instrument_sequencerTicks (s : Sound) (first n : Nat) :
    (s.sequencerTicks first n).instrument = s.instrument.sequencerTicks first n := by
  induction n generalizing s first with
  | zero => rfl
  | succ n ih =>
    unfold sequencerTicks
    rw [ih, instrument_sequencerTick]

theorem instrument_sequenced (s : Sound) (now : Nat) :
    (s.sequenced now).instrument = s.instrument.sequenced now :=
  instrument_sequencerTicks _ _ _

/-- The channels of both controllers give the same from now on. -/
theorem voiced_of_instrument {s t : Sound} (h : t.instrument = s.instrument) (n : Nat) :
    (t.sampleTicks n).instrument = (s.sampleTicks n).instrument ∧ t.voiced n = s.voiced n := by
  induction n generalizing s t with
  | zero => exact ⟨h, rfl⟩
  | succ n ih =>
    have htick : t.sampleTick.instrument = s.sampleTick.instrument := by
      rw [instrument_sampleTick, instrument_sampleTick, h]
    have hvoices : t.voices = s.voices := by
      show t.instrument.voices = s.instrument.voices
      rw [h]
    obtain ⟨hticks, hvoiced⟩ := ih htick
    exact ⟨hticks, congrArg₂ List.cons hvoices hvoiced⟩

/-! ## What can be read -/

/-- The registers whose bytes can be read: neither the power switch nor what lies between it and
the sample table. -/
def Readable (addr : UInt16) : Prop :=
  0xFF10 ≤ addr ∧ addr ≤ 0xFF25 ∨ 0xFF30 ≤ addr ∧ addr ≤ 0xFF3F

theorem Readable.le {addr : UInt16} (h : Readable addr) : 0xFF10 ≤ addr :=
  h.elim (·.1) fun htable => UInt16.le_trans (by decide) htable.1

theorem readMask_of_not_readable {addr : UInt16} (h : ¬ Readable addr) (hswitch : addr ≠ 0xFF26) :
    readMask addr = 0xFF := by
  unfold readMask
  split
  · rename_i htable
    exact absurd (.inr (by simpa using htable)) h
  · -- every register below the power switch is readable, and behind it there is none
    split
    all_goals first
      | exact absurd rfl hswitch
      | exact absurd (Or.inl (by decide)) h
      | rfl

/-! ## Controllers that resemble each other -/

/-- The controllers differ at most in what no channel uses and what cannot be read. -/
structure Resembles (s t : Sound) : Prop where
  instrument : t.instrument = s.instrument
  stored : ∀ addr, Readable addr → t.stored addr = s.stored addr

namespace Resembles

variable {s t : Sound} (h : s.Resembles t)
include h

theorem powered : t.powered = s.powered := by
  show t.instrument.powered = s.instrument.powered
  rw [h.instrument]

theorem rendered : t.rendered = s.rendered := by
  show t.instrument.rendered = s.instrument.rendered
  rw [h.instrument]

theorem read (addr : UInt16) : t.read addr = s.read addr := by
  by_cases hswitch : addr = 0xFF26
  · subst hswitch
    show t.instrument.status = s.instrument.status
    rw [h.instrument]
  unfold Sound.read
  rw [if_neg hswitch, if_neg hswitch]
  split
  · show t.stored addr ||| readMask addr = s.stored addr ||| readMask addr
    by_cases hread : Readable addr
    · rw [h.stored addr hread]
    · rw [readMask_of_not_readable hread hswitch]
      exact UInt8.or_neg_one.trans UInt8.or_neg_one.symm
  · rfl

theorem writePower (val : UInt8) : (s.writePower val).Resembles (t.writePower val) := by
  refine ⟨?_, fun addr haddr => ?_⟩
  · rw [instrument_writePower, h.instrument, ← instrument_writePower]
  · unfold Sound.writePower
    dsimp only
    rw [h.powered]
    split
    · exact h.stored addr haddr
    · split
      · rw [stored_powerOff t haddr.le, stored_powerOff s haddr.le, h.stored addr haddr]
      · exact h.stored addr haddr

theorem write (addr : UInt16) (val : UInt8) : (s.write addr val).Resembles (t.write addr val) := by
  by_cases hswitch : addr = 0xFF26
  · subst hswitch
    exact h.writePower val
  refine ⟨?_, fun a ha => ?_⟩
  · rw [instrument_write, h.instrument, ← instrument_write]
  -- the byte is stored in both or in neither
  by_cases hrange : 0xFF10 ≤ addr ∧ addr ≤ 0xFF3F
  · obtain ⟨hlo, hhi⟩ := hrange
    by_cases hreaches : s.powered = true ∨ 0xFF30 ≤ addr
    · have hreaches' : t.powered = true ∨ 0xFF30 ≤ addr := h.powered ▸ hreaches
      rw [write_of_reaches hlo hhi hswitch hreaches, write_of_reaches hlo hhi hswitch hreaches',
        stored_apply, stored_apply, stored_store t hlo hhi ha.le, stored_store s hlo hhi ha.le]
      unfold setByte
      rw [h.stored a ha]
    · rw [not_or, UInt16.not_le, Bool.not_eq_true] at hreaches
      obtain ⟨hoff, hbelow⟩ := hreaches
      rw [write_of_off hoff hbelow hswitch, write_of_off (h.powered.trans hoff) hbelow hswitch]
      exact h.stored a ha
  · rw [write_of_outside hrange, write_of_outside hrange]
    exact h.stored a ha

theorem update (now : Nat) :
    (s.update now).Resembles (t.update now) ∧
      Operation.voiced t (.update now) = Operation.voiced s (.update now) := by
  have hsequenced : (t.sequenced now).instrument = (s.sequenced now).instrument := by
    rw [instrument_sequenced, instrument_sequenced, h.instrument]
  have hdue : t.due now = s.due now := by
    show t.instrument.due now = s.instrument.due now
    rw [h.instrument]
  obtain ⟨hticks, hvoiced⟩ := voiced_of_instrument hsequenced (s.due now)
  refine ⟨⟨?_, fun addr haddr => ?_⟩, ?_⟩
  · rw [update_eq, update_eq, hdue]
    exact hticks
  · rw [stored_update, stored_update]
    exact h.stored addr haddr
  · unfold Operation.voiced
    dsimp only
    rw [hdue]
    exact hvoiced

theorem apply (op : Operation) :
    (op.apply s).Resembles (op.apply t) ∧ op.voiced t = op.voiced s := by
  cases op with
  | write addr val => exact ⟨h.write addr val, rfl⟩
  | setMultiplier multiplier => exact ⟨⟨h.instrument, h.stored⟩, rfl⟩
  | update now => exact h.update now

theorem operate (ops : List Operation) :
    (s.operate ops).Resembles (t.operate ops) ∧ t.played ops = s.played ops := by
  induction ops generalizing s t with
  | nil => exact ⟨h, rfl⟩
  | cons op ops ih =>
    obtain ⟨hstep, hvoiced⟩ := h.apply op
    obtain ⟨hrest, hplayed⟩ := ih hstep
    refine ⟨hrest, ?_⟩
    rw [played, played, hvoiced, hplayed]

end Resembles

/-! ## Without power -/

/-- The power is off, and the channels are as the power switch left them. -/
structure Quiet (s : Sound) : Prop where
  powered : s.powered = false
  leftVolume : s.leftVolume = 0
  rightVolume : s.rightVolume = 0
  panning : s.panning = 0
  square1 : s.square1 = .initial (some .initial)
  square2 : s.square2 = .initial none
  wave : s.wave = .initial s.wave.table
  noise : s.noise = .initial
  sequencer : s.sequencer.rate = 512
  sampler : s.sampler.rate = sampleRate

theorem quiet_initial (depth : Nat) : (initial depth).Quiet :=
  ⟨rfl, rfl, rfl, rfl, rfl, rfl, rfl, rfl, rfl, rfl⟩

theorem quiet_powerOff {s : Sound} (hsequencer : s.sequencer.rate = 512)
    (hsampler : s.sampler.rate = sampleRate) : s.powerOff.Quiet :=
  ⟨rfl, rfl, rfl, rfl, rfl, rfl, rfl, rfl, hsequencer, hsampler⟩

namespace Quiet

variable {s : Sound} (h : s.Quiet)
include h

theorem setTable (registers : Memory 0x30) (table : Vector UInt8 32) :
    Quiet { s with registers, wave := .initial table } :=
  { h with wave := rfl }

theorem write {addr : UInt16} {val : UInt8} (hpower : s.powersOn (.write addr val) = false) :
    (s.write addr val).Quiet := by
  by_cases hswitch : addr = 0xFF26
  · subst hswitch
    show (s.writePower val).Quiet
    rcases writePower_of_not_powersOn hpower with hoff | hsame
    · rw [hoff]
      exact quiet_powerOff h.sequencer h.sampler
    · rw [hsame]
      exact h
  by_cases hrange : 0xFF10 ≤ addr ∧ addr ≤ 0xFF3F
  · -- of the registers in range, the sample table alone can be written
    by_cases htable : 0xFF30 ≤ addr
    · rw [write_of_reaches hrange.1 hrange.2 hswitch (.inr htable), apply_of_table htable]
      unfold store
      dsimp only
      rw [h.wave]
      exact h.setTable _ _
    · rw [write_of_off h.powered (UInt16.not_le.1 htable) hswitch]
      exact h
  · rw [write_of_outside hrange]
    exact h

theorem update (now : Nat) : (s.update now).Quiet := by
  rw [update_eq, sequenced_eq]
  refine sampleTicks_invariant (P := Quiet) (fun t ht => ?_) (fun t ht => ?_)
    (fun _ _ ht => { ht with }) ?_ _
  · -- samples are silence, and the channels do not move on
    unfold computeSample
    rw [if_neg (by simp [ht.powered])]
    exact { ht with }
  · unfold writeSample
    dsimp only
    split <;> exact { ht with }
  · refine sequencerTicks_invariant (P := Quiet) (fun t tick ht => ?_) ?_ _ _
    · unfold sequencerTick
      rw [if_pos (by simp [ht.powered])]
      exact ht
    · -- the noise has no steps to catch up with
      refine { h with noise := ?_ }
      show s.noise.update _ = .initial
      rw [h.noise]
      rfl

theorem operate {ops : List Operation} (hpower : s.NoPowerOn ops) : (s.operate ops).Quiet := by
  induction ops generalizing s with
  | nil => exact h
  | cons op ops ih =>
    obtain ⟨hop, hrest⟩ := hpower
    cases op with
    | write addr val => exact ih (h.write hop) hrest
    | setMultiplier multiplier => exact ih (s := s.setMultiplier multiplier) { h with } hrest
    | update now => exact ih (h.update now) hrest

/-- Of the time before, the switch leaves nothing but the sample table. -/
theorem instrument_powerOn :
    s.powerOn.instrument =
      { (initial 0).powerOn.instrument with
        wave := .initial s.wave.table
        now := s.now
        poweredAt := s.now } := by
  have hsequencer : s.sequencer.reset = .ofRate 512 := by
    unfold Divider.reset
    rw [h.sequencer]
    rfl
  have hsampler : s.sampler.reset = .ofRate sampleRate := by
    unfold Divider.reset
    rw [h.sampler]
    rfl
  have hwave := h.wave
  generalize s.wave.table = table at hwave
  unfold instrument generator powerOn
  dsimp only
  rw [h.leftVolume, h.rightVolume, h.panning, h.square1, h.square2, hwave, h.noise, hsequencer,
    hsampler]
  rfl

end Quiet

/-! ## A new controller -/

theorem TableDecoded.table_eq {s t : Sound} {bytes bytes' : UInt16 → UInt8}
    (hs : s.TableDecoded bytes) (ht : t.TableDecoded bytes')
    (hsame : ∀ addr, 0xFF30 ≤ addr → addr ≤ 0xFF3F → bytes' addr = bytes addr) :
    t.wave.table = s.wave.table := by
  have hcells : ∀ i, i < 16 → t.wave.table[2 * i]? = s.wave.table[2 * i]? ∧
      t.wave.table[2 * i + 1]? = s.wave.table[2 * i + 1]? := by
    intro i hi
    obtain ⟨hfirst, hsecond⟩ := hs i hi
    obtain ⟨hfirst', hsecond'⟩ := ht i hi
    have hlast : (0xFF30 + i.toUInt16 : UInt16) ≤ 0xFF3F := by
      rw [UInt16.le_iff_toNat_le, toNat_tableAddress hi]
      show _ ≤ 0xFF3F
      omega
    rw [hfirst, hsecond, hfirst', hsecond', hsame _ (le_tableAddress hi) hlast]
    exact ⟨rfl, rfl⟩
  refine Vector.ext fun j hj => ?_
  have hcell : t.wave.table[j]? = s.wave.table[j]? := by
    obtain ⟨heven, hodd⟩ := hcells (j / 2) (by omega)
    rcases Nat.mod_two_eq_zero_or_one j with hmod | hmod
    · rwa [show 2 * (j / 2) = j by omega] at heven
    · rwa [show 2 * (j / 2) + 1 = j by omega] at hodd
  simpa [hj] using hcell

def tableAddresses : List UInt16 := (List.range 16).map fun i => 0xFF30 + i.toUInt16

theorem mem_tableAddresses {addr : UInt16} :
    addr ∈ tableAddresses ↔ 0xFF30 ≤ addr ∧ addr ≤ 0xFF3F := by
  unfold tableAddresses
  rw [List.mem_map]
  constructor
  · rintro ⟨i, hi, rfl⟩
    have hi := List.mem_range.1 hi
    rw [UInt16.le_iff_toNat_le, UInt16.le_iff_toNat_le, toNat_tableAddress hi]
    show 0xFF30 ≤ _ ∧ _ ≤ 0xFF3F
    omega
  · rintro ⟨hlo, hhi⟩
    have hlo : 0xFF30 ≤ addr.toNat := UInt16.le_iff_toNat_le.1 hlo
    have hhi : addr.toNat ≤ 0xFF3F := UInt16.le_iff_toNat_le.1 hhi
    have hi : addr.toNat - 0xFF30 < 16 := by omega
    refine ⟨addr.toNat - 0xFF30, List.mem_range.2 hi, UInt16.toNat_inj.1 ?_⟩
    rw [toNat_tableAddress hi]
    omega

/-- Gives a new controller the sample table and the time of another one. -/
def setUp (s : Sound) : List Operation :=
  (tableAddresses.map fun addr => .write addr (s.read addr)) ++ [.update s.now]

theorem noPowerOn_setUp (e s : Sound) : e.NoPowerOn s.setUp := by
  have hwrites : ∀ addrs : List UInt16, (∀ addr ∈ addrs, addr ≠ 0xFF26) → ∀ e : Sound,
      e.NoPowerOn ((addrs.map fun addr => .write addr (s.read addr)) ++ [.update s.now]) := by
    intro addrs
    induction addrs with
    | nil => exact fun _ _ => ⟨rfl, trivial⟩
    | cons addr addrs ih =>
      intro hne e
      obtain ⟨hfirst, hrest⟩ := List.forall_mem_cons.1 hne
      exact ⟨by simp [powersOn, hfirst], ih hrest _⟩
  refine hwrites tableAddresses (fun addr haddr => ?_) e
  rintro rfl
  exact absurd (mem_tableAddresses.1 haddr).1 (by decide)

theorem stored_tableWrites (e : Sound) (bytes : UInt16 → UInt8) {addrs : List UInt16}
    (htable : ∀ addr ∈ addrs, 0xFF30 ≤ addr ∧ addr ≤ 0xFF3F) {a : UInt16} (ha : 0xFF10 ≤ a) :
    (e.operate (addrs.map fun addr => .write addr (bytes addr))).stored a =
      if a ∈ addrs then bytes a else e.stored a := by
  induction addrs generalizing e with
  | nil => exact (if_neg List.not_mem_nil).symm
  | cons addr addrs ih =>
    obtain ⟨⟨hlo, hhi⟩, hrest⟩ := List.forall_mem_cons.1 htable
    have hlow : 0xFF10 ≤ addr := UInt16.le_trans (by decide) hlo
    have hne : addr ≠ 0xFF26 := by
      rintro rfl
      exact absurd hlo (by decide)
    refine (ih (e.write addr (bytes addr)) hrest).trans ?_
    rw [write_of_reaches hlow hhi hne (.inr hlo), stored_apply, stored_store e hlow hhi ha]
    unfold setByte
    by_cases hfirst : a = addr
    · simp [hfirst]
    · simp [hfirst]

theorem read_of_table (s : Sound) {addr : UInt16} (hlo : 0xFF30 ≤ addr) (hhi : addr ≤ 0xFF3F) :
    s.read addr = s.stored addr := by
  have hne : addr ≠ 0xFF26 := by
    rintro rfl
    exact absurd hlo (by decide)
  have hlow : 0xFF10 ≤ addr := UInt16.le_trans (by decide) hlo
  have hmask : readMask addr = 0 := if_pos (by simp [hlo, hhi])
  unfold Sound.read
  rw [if_neg hne, if_pos (by simp [hlow, hhi]), hmask]
  exact UInt8.or_zero

theorem operate_setUp (e s : Sound) :
    (e.operate s.setUp).now = s.now ∧
      ∀ addr, 0xFF30 ≤ addr → addr ≤ 0xFF3F → (e.operate s.setUp).stored addr = s.stored addr := by
  refine ⟨now_operate_update e _ s.now, fun addr hlo hhi => ?_⟩
  have hmem := mem_tableAddresses.2 ⟨hlo, hhi⟩
  unfold setUp
  rw [operate_append]
  refine (congrFun (stored_update _ s.now) addr).trans ?_
  rw [stored_tableWrites e s.read (fun _ => mem_tableAddresses.1)
    (UInt16.le_trans (by decide) hlo), if_pos hmem, read_of_table s hlo hhi]

/-- Without power, controllers with the same sample table and time are the same in all that shows
once they are switched on. -/
theorem Quiet.resembles {s t : Sound} (hs : s.Quiet) (ht : t.Quiet) {before before' : Bool}
    (hagrees : s.Agrees before) (hagrees' : t.Agrees before') (hnow : t.now = s.now)
    (hbytes : ∀ addr, 0xFF30 ≤ addr → addr ≤ 0xFF3F → t.stored addr = s.stored addr) :
    s.powerOn.Resembles t.powerOn where
  instrument := by
    rw [hs.instrument_powerOn, ht.instrument_powerOn, hnow,
      hagrees.table.table_eq hagrees'.table hbytes]
  stored := by
    rintro addr (⟨hlo, hhi⟩ | ⟨hlo, hhi⟩)
    · exact (hagrees'.cleared ht.powered addr hlo hhi).trans
        (hagrees.cleared hs.powered addr hlo hhi).symm
    · exact hbytes addr hlo hhi

/-- A controller with its power on is switched off, anything but switching it on is done to it, and
then it is switched on. From then on it is like a new controller that was given the same sample
table and time and is switched on then: whatever is done to both, all registers read the same,
that of the power switch included, they count the same samples, and for each sample the four
channels give the same. -/
theorem powerCycle_like_new {s : Sound} (hreachable : s.Reachable) (hpowered : s.powered = true)
    {off : UInt8} (hoff : anySet off 0x80 = false) {gap : List Operation}
    (hgap : (s.write 0xFF26 off).NoPowerOn gap) {on : UInt8} (hon : anySet on 0x80 = true)
    (depth : Nat) (later : List Operation) :
    let quiet := (s.write 0xFF26 off).operate gap
    let cycled := quiet.write 0xFF26 on
    let fresh := ((initial depth).operate quiet.setUp).write 0xFF26 on
    (∀ addr, (cycled.operate later).read addr = (fresh.operate later).read addr) ∧
    (cycled.operate later).rendered = (fresh.operate later).rendered ∧
    cycled.played later = fresh.played later := by
  intro quiet cycled fresh
  obtain ⟨hsequencer, hsampler⟩ := rates_of_reachable hreachable
  obtain ⟨past, ops, -, rfl⟩ := hreachable
  have hswitch : ((initial past).operate ops).write 0xFF26 off =
      ((initial past).operate ops).powerOff := by
    show Sound.writePower _ off = _
    unfold Sound.writePower
    dsimp only
    rw [hpowered, hoff]
    rfl
  have hquiet : quiet.Quiet := by
    refine Quiet.operate ?_ hgap
    rw [hswitch]
    exact quiet_powerOff hsequencer hsampler
  have hnew : ((initial depth).operate quiet.setUp).Quiet :=
    (quiet_initial depth).operate (noPowerOn_setUp _ quiet)
  have hagrees := (((agrees_initial past).operate ops).write 0xFF26 off).operate gap
  have hagrees' := (agrees_initial depth).operate quiet.setUp
  obtain ⟨hnow, hbytes⟩ := operate_setUp (initial depth) quiet
  -- at the power-on there is no difference that shows, and none arises later
  have hstart : fresh.Resembles cycled := by
    show Resembles (Sound.write _ 0xFF26 on) (Sound.write _ 0xFF26 on)
    rw [write_powerOn hnew.powered hon, write_powerOn hquiet.powered hon]
    exact hnew.resembles hquiet hagrees' hagrees hnow.symm fun addr hlo hhi =>
      (hbytes addr hlo hhi).symm
  obtain ⟨hlater, hplayed⟩ := hstart.operate later
  exact ⟨hlater.read, hlater.rendered, hplayed⟩

/-- A controller is switched off while its noise is heard, and the sample table is written before
it is switched on again and plays the table. -/
theorem powerCycle_like_new_noisy :
    let noisy := (initial 0).operate
      [.write 0xFF26 0x80, .write 0xFF21 0xF0, .write 0xFF22 0x11, .write 0xFF23 0x80, .update 100]
    let quiet := (noisy.write 0xFF26 0x00).operate [.write 0xFF30 0x5A, .update 5000]
    let cycled := quiet.write 0xFF26 0x80
    let fresh := ((initial 3).operate quiet.setUp).write 0xFF26 0x80
    let later := [.write 0xFF1C 0x20, .write 0xFF1D 0x01, .write 0xFF1E 0x87, .update 5300]
    (cycled.operate later).read 0xFF26 = 0xF4 ∧ (fresh.operate later).read 0xFF26 = 0xF4 ∧
      cycled.played later = fresh.played later := by
  intro noisy quiet cycled fresh later
  have hpowered : noisy.powered = true := by decide +kernel
  have hoff : anySet 0x00 0x80 = false := by decide
  have hon : anySet 0x80 0x80 = true := by decide
  have hgap : (noisy.write 0xFF26 0x00).NoPowerOn [.write 0xFF30 0x5A, .update 5000] := by decide
  obtain ⟨hread, -, hplayed⟩ := powerCycle_like_new
    ⟨0, _, by decide, rfl⟩ hpowered hoff hgap hon 3 later
  have hstatus : (cycled.operate later).read 0xFF26 = 0xF4 := by decide +kernel
  exact ⟨hstatus, (hread 0xFF26).symm.trans hstatus, hplayed⟩

end DotMatrix.Sound
