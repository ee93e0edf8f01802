import DotMatrix.Proofs.Sound.CatchUp
import Mathlib.Algebra.Group.Nat.Defs

/-!
# The ticks of a history

The updates of a history name ticks of the frame sequencer and samples, each divider its own. From
the power-on up to the present time, they name each tick once, in order (`named_since_powerOn`),
if the first update comes before the first tick is over. `catchUp_ignores_cuts` says that it does
not matter how often a controller is told the time.
-/

namespace DotMatrix.Sound

/-! ## Histories -/

def Operation.isUpdate : Operation → Bool
  | update _ => true
  | _ => false

/-- The operation sets the frequency of the noise. -/
def Operation.setsNoise : Operation → Bool
  | write addr _ => addr = 0xFF22
  | _ => false

/-- The operation switches the power on. -/
def powersOn (s : Sound) : Operation → Bool
  | .write addr val => addr = 0xFF26 && anySet val 0x80 && !s.powered
  | _ => false

/-- The power is not switched on in the course of the operations. -/
def NoPowerOn (s : Sound) : List Operation → Prop
  | [] => True
  | op :: ops => s.powersOn op = false ∧ NoPowerOn (op.apply s) ops

instance decidableNoPowerOn (s : Sound) : (ops : List Operation) → Decidable (NoPowerOn s ops)
  | [] => .isTrue trivial
  | op :: ops =>
    have := decidableNoPowerOn (op.apply s) ops
    inferInstanceAs (Decidable (s.powersOn op = false ∧ NoPowerOn (op.apply s) ops))

/-- The controller has been told the time since the power was switched on last, and since the
frequency of the noise was set last. -/
inductive CaughtUp : Sound → Prop where
  | update (s : Sound) (now : Nat) : CaughtUp (s.update now)
  | apply {s : Sound} {op : Operation} (before : CaughtUp s) (hpower : s.powersOn op = false)
      (hnoise : op.setsNoise = false) : CaughtUp (op.apply s)

/-! ## Writing and the clocks -/

/-- What a write that does not switch the power on leaves as it is. -/
structure KeepsTime (s t : Sound) : Prop where
  times : s.SameTimes t
  rendered : t.rendered = s.rendered

theorem KeepsTime.refl (s : Sound) : s.KeepsTime s := ⟨.refl s, rfl⟩

theorem keepsTime_apply (s : Sound) (addr : UInt16) (val : UInt8) :
    s.KeepsTime (s.apply addr val) := by
  unfold Sound.apply
  split
  all_goals first
    | exact ⟨⟨rfl, rfl, rfl, rfl⟩, rfl⟩
    | split <;> exact ⟨⟨rfl, rfl, rfl, rfl⟩, rfl⟩

theorem writePower_of_not_powersOn {s : Sound} {val : UInt8}
    (h : s.powersOn (.write 0xFF26 val) = false) :
    s.writePower val = s.powerOff ∨ s.writePower val = s := by
  have hkeep : (anySet val 0x80 && !s.powered) = false := by simpa [powersOn] using h
  unfold writePower
  dsimp only
  rw [hkeep]
  split
  · contradiction
  · split
    · exact .inl rfl
    · exact .inr rfl

theorem keepsTime_powerOff (s : Sound) : s.KeepsTime s.powerOff := by
  unfold powerOff
  exact ⟨⟨rfl, rfl, rfl, rfl⟩, rfl⟩

theorem keepsTime_write {s : Sound} {addr : UInt16} {val : UInt8}
    (h : s.powersOn (.write addr val) = false) : s.KeepsTime (s.write addr val) := by
  unfold Sound.write
  split
  · exact .refl s
  · split
    · rename_i haddr
      subst haddr
      rcases writePower_of_not_powersOn h with hoff | hsame
      · rw [hoff]
        exact s.keepsTime_powerOff
      · rw [hsame]
        exact .refl s
    · split
      · exact .refl s
      · -- the byte that reads back is kept besides
        have happly := keepsTime_apply
          { s with registers := s.registers.write (addr.toNat - 0xFF10) val } addr val
        have htimes := happly.times
        exact ⟨⟨htimes.now, htimes.poweredAt, htimes.sequencer, htimes.sampler⟩, happly.rendered⟩

theorem Noise.steps_writeControl (c : Noise) (val : UInt8) :
    (c.writeControl val).steps = c.steps := by
  unfold Noise.writeControl
  dsimp only
  split <;> rfl

theorem steps_apply (s : Sound) {addr : UInt16} (val : UInt8) (haddr : addr ≠ 0xFF22) :
    (s.apply addr val).noise.steps = s.noise.steps := by
  unfold Sound.apply
  split
  case h_17 => exact absurd rfl haddr
  case h_18 => exact s.noise.steps_writeControl val
  all_goals first
    | rfl
    | split <;> rfl

/-- A write keeps the steps of the noise, or the power goes off and there are none. -/
theorem steps_write {s : Sound} {addr : UInt16} {val : UInt8}
    (hpower : s.powersOn (.write addr val) = false) (haddr : addr ≠ 0xFF22) :
    (s.write addr val).noise.steps = s.noise.steps ∨ (s.write addr val).noise.steps = none := by
  unfold Sound.write
  split
  · exact .inl rfl
  · split
    · rename_i hswitch
      subst hswitch
      rcases writePower_of_not_powersOn hpower with hoff | hsame
      · rw [hoff]
        exact .inr rfl
      · rw [hsame]
        exact .inl rfl
    · split
      · exact .inl rfl
      · exact .inl (steps_apply _ val haddr)

theorem settled_of_caughtUp {s : Sound} (h : s.CaughtUp) : s.Settled := by
  induction h with
  | update s now => exact s.settled_update now
  | @apply s op _ hpower hnoise ih =>
    cases op with
    | write addr val =>
      have haddr : addr ≠ 0xFF22 := by simpa [Operation.setsNoise] using hnoise
      exact (keepsTime_write hpower).times.settled ih (steps_write hpower haddr)
    | setMultiplier multiplier => exact ⟨ih.sequencer, ih.sampler, ih.noise⟩
    | update now => exact s.settled_update now

/-! ## Naming ticks -/

/-- One of the dividers that updates ask, and that nothing but a power-on touches besides. -/
structure IsClock (f : Sound → Divider) : Prop where
  write : ∀ (s : Sound) addr val, s.powersOn (.write addr val) = false →
    f (s.write addr val) = f s
  setMultiplier : ∀ (s : Sound) multiplier, f (s.setMultiplier multiplier) = f s
  update : ∀ (s : Sound) now, f (s.update now) = ((f s).update (now - s.poweredAt)).2

theorem isClock_sequencer : IsClock Sound.sequencer where
  write _ _ _ h := (keepsTime_write h).times.sequencer
  setMultiplier _ _ := rfl
  update s now := (s.sameClocks_update now).times.sequencer

theorem isClock_sampler : IsClock Sound.sampler where
  write _ _ _ h := (keepsTime_write h).times.sampler
  setMultiplier _ _ := rfl
  update s now := (s.sameClocks_update now).times.sampler

/-- The ticks that a divider names when the controller is told the time. -/
def ticksAt (f : Sound → Divider) (s : Sound) (now : Nat) : List Nat :=
  ((f s).update (now - s.poweredAt)).1.numbers

def Operation.ticks (f : Sound → Divider) (s : Sound) : Operation → List Nat
  | update now => ticksAt f s now
  | _ => []

/-- The ticks that a divider names in the course of the operations. -/
def named (f : Sound → Divider) (s : Sound) : List Operation → List Nat
  | [] => []
  | op :: ops => op.ticks f s ++ named f (op.apply s) ops

theorem sequencerTicks_eq_foldl (s : Sound) (first n : Nat) :
    s.sequencerTicks first n = (List.range' first n).foldl sequencerTick s := by
  induction n generalizing s first with
  | zero => rfl
  | succ n ih => exact ih (s.sequencerTick first) (first + 1)

/-- The ticks that the dividers name are those that an update does. -/
theorem update_eq_ticks (s : Sound) (now : Nat) :
    s.update now = ((ticksAt Sound.sequencer s now).foldl sequencerTick (s.told now)).sampleTicks
      (ticksAt Sound.sampler s now).length := by
  unfold ticksAt TickRun.numbers
  rw [← sequencerTicks_eq_foldl, List.length_range']
  rfl

theorem inOrder_of_append {now next : Nat} {before after : List Operation}
    (h : InOrder now (before ++ .update next :: after)) : InOrder next after := by
  induction before generalizing now with
  | nil => exact h.2
  | cons op before ih =>
    cases op with
    | write addr val => exact ih h
    | setMultiplier multiplier => exact ih h
    | update t => exact ih h.2

theorem NoPowerOn.append {s : Sound} {first second : List Operation}
    (h : s.NoPowerOn (first ++ second)) :
    s.NoPowerOn first ∧ (s.operate first).NoPowerOn second := by
  induction first generalizing s with
  | nil => exact ⟨trivial, h⟩
  | cons op rest ih => exact ⟨⟨h.1, (ih h.2).1⟩, (ih h.2).2⟩

theorem named_append (f : Sound → Divider) (s : Sound) (first second : List Operation) :
    named f s (first ++ second) = named f s first ++ named f (s.operate first) second := by
  induction first generalizing s with
  | nil => rfl
  | cons op rest ih =>
    rw [List.cons_append, named, named, ih, List.append_assoc]
    rfl

section Named

variable {f : Sound → Divider} (hf : IsClock f)
include hf

/-- While the power is not switched on again, the ticks that were named and those that are named
next are all up to the present time. -/
theorem named_range {s : Sound} {ops : List Operation}
    (hnamed : (f s).NamedUpTo (s.now - s.poweredAt)) (horder : InOrder s.now ops)
    (hpower : s.NoPowerOn ops) :
    List.range ((f s).tick (s.now - s.poweredAt) + 1) ++ named f s ops =
      List.range ((f s).tick ((s.operate ops).now - s.poweredAt) + 1) := by
  induction ops generalizing s with
  | nil => exact List.append_nil _
  | cons op ops ih =>
    obtain ⟨hop, hrest⟩ := hpower
    cases op with
    | write addr val =>
      have htimes := (keepsTime_write hop).times
      have hclock := hf.write s addr val hop
      have hih := ih (s := s.write addr val) (by rwa [hclock, htimes.now, htimes.poweredAt])
        (htimes.now.symm ▸ horder) hrest
      rw [hclock, htimes.now, htimes.poweredAt] at hih
      exact hih
    | setMultiplier multiplier =>
      have hclock := hf.setMultiplier s multiplier
      have hih := ih (s := s.setMultiplier multiplier) (by rwa [hclock]) horder hrest
      rw [hclock] at hih
      exact hih
    | update now =>
      -- the ticks of this update join those before
      have htimes := (s.sameClocks_update now).times
      have hclock := hf.update s now
      have hjoin := hnamed.range_append (Nat.sub_le_sub_right horder.1 s.poweredAt)
      have hih := ih (s := s.update now)
        (by
          rw [hclock, htimes.now, htimes.poweredAt]
          exact Divider.namedUpTo_update _ _)
        ((now_update s now).symm ▸ horder.2) hrest
      rw [hclock, htimes.now, htimes.poweredAt] at hih
      rw [named, ← List.append_assoc]
      exact (congrArg (· ++ named f (s.update now) ops) hjoin).trans hih

/-- Until the controller is told the time, no tick is named. -/
theorem named_of_no_update {s : Sound} {ops : List Operation}
    (hops : ∀ op ∈ ops, op.isUpdate = false) (hpower : s.NoPowerOn ops) :
    named f s ops = [] ∧ f (s.operate ops) = f s ∧ (s.operate ops).now = s.now ∧
      (s.operate ops).poweredAt = s.poweredAt := by
  induction ops generalizing s with
  | nil => exact ⟨rfl, rfl, rfl, rfl⟩
  | cons op ops ih =>
    obtain ⟨hop, hrest⟩ := hpower
    obtain ⟨hnamed, hclock, hnow, hpowered⟩ :=
      ih (fun op hmem => hops op (List.mem_cons_of_mem _ hmem)) hrest
    cases op with
    | write addr val =>
      have htimes := (keepsTime_write hop).times
      exact ⟨hnamed, hclock.trans (hf.write s addr val hop), hnow.trans htimes.now,
        hpowered.trans htimes.poweredAt⟩
    | setMultiplier multiplier =>
      exact ⟨hnamed, hclock.trans (hf.setMultiplier s multiplier), hnow, hpowered⟩
    | update now =>
      have hno := hops (.update now) List.mem_cons_self
      cases hno

/-- From the power-on up to the present time each tick is named once, in order, if the first update
comes while the first tick lasts. -/
theorem named_since_powerOn {s : Sound} {before after : List Operation} {first : Nat}
    (hreset : (f s).last = none) (horder : InOrder s.now (before ++ .update first :: after))
    (hpower : s.NoPowerOn (before ++ .update first :: after))
    (hbefore : ∀ op ∈ before, op.isUpdate = false)
    (hfirst : (f s).tick (first - s.poweredAt) = 0) :
    named f s (before ++ .update first :: after) =
      List.range ((f s).tick
        ((s.operate (before ++ .update first :: after)).now - s.poweredAt) + 1) := by
  obtain ⟨hpower₁, hpower₂⟩ := hpower.append
  obtain ⟨hnone, hclock, hnow, hpowered⟩ := named_of_no_update hf hbefore hpower₁
  have horder₂ : InOrder first after := inOrder_of_append horder
  -- the first update names the first tick alone
  have hone : ticksAt f (s.operate before) first =
      List.range ((f s).tick (first - s.poweredAt) + 1) := by
    unfold ticksAt Divider.update
    rw [hclock, hpowered, hreset, hfirst]
    rfl
  have htimes := ((s.operate before).sameClocks_update first).times
  have htold : ((s.operate before).told first).poweredAt = s.poweredAt := hpowered
  have hafter := hf.update (s.operate before) first
  have hrest := named_range hf (s := (s.operate before).update first)
    (by
      rw [hafter, htimes.now, htimes.poweredAt]
      exact Divider.namedUpTo_update _ _)
    ((now_update (s.operate before) first).symm ▸ horder₂) hpower₂.2
  rw [hafter, htimes.now, htimes.poweredAt, hclock, htold] at hrest
  rw [named_append, hnone, List.nil_append, named, operate_append]
  exact (congrArg (· ++ named f ((s.operate before).update first) after) hone).trans hrest

end Named

/-! ## Samples -/

theorem length_samples (s : Sound) (n : Nat) : (s.samples n).length = n := by
  induction n generalizing s with
  | zero => rfl
  | succ n ih =>
    rw [samples, List.length_cons, ih]

/-- The samples that the sampler names are those that are counted. -/
theorem rendered_operate {s : Sound} {ops : List Operation} (hpower : s.NoPowerOn ops) :
    (s.operate ops).rendered = s.rendered + (named Sound.sampler s ops).length := by
  induction ops generalizing s with
  | nil => rfl
  | cons op ops ih =>
    obtain ⟨hop, hrest⟩ := hpower
    have hstep : (op.apply s).rendered = s.rendered + (op.ticks Sound.sampler s).length := by
      cases op with
      | write addr val => exact (keepsTime_write hop).rendered
      | setMultiplier multiplier => rfl
      | update now =>
        refine (rendered_update s now).trans (congrArg (s.rendered + ·) ?_)
        show _ = (List.range' _ _).length
        rw [List.length_range']
        exact length_samples _ _
    refine (ih hrest).trans ?_
    rw [hstep, named, List.length_append, Nat.add_assoc]

theorem write_powerOn {s : Sound} {val : UInt8} (hoff : s.powered = false)
    (hon : anySet val 0x80 = true) : s.write 0xFF26 val = s.powerOn := by
  show s.writePower val = s.powerOn
  unfold writePower
  dsimp only
  rw [hon, hoff]
  rfl

theorem rates_of_reachable {s : Sound} (h : s.Reachable) :
    s.sequencer.rate = 512 ∧ s.sampler.rate = sampleRate := by
  refine h.invariant (P := fun s => s.sequencer.rate = 512 ∧ s.sampler.rate = sampleRate)
    (fun _ => ⟨rfl, rfl⟩) (fun s addr val hs => ?_) (fun _ _ hs => hs) (fun s now _ hs => ?_)
  · cases hpower : s.powersOn (.write addr val) with
    | false =>
      have htimes := (keepsTime_write hpower).times
      rw [htimes.sequencer, htimes.sampler]
      exact hs
    | true =>
      obtain ⟨⟨rfl, hon⟩, hoff⟩ : (addr = 0xFF26 ∧ anySet val 0x80 = true) ∧ s.powered = false := by
        simpa [powersOn] using hpower
      rw [write_powerOn hoff hon]
      exact hs
  · rw [isClock_sequencer.update, isClock_sampler.update]
    exact hs

/-! ## What the cuts leave alone -/

def lengths (s : Sound) : List LengthCounter :=
  [s.square1.length, s.square2.length, s.wave.length, s.noise.length]

def envelopes (s : Sound) : List Envelope :=
  [s.square1.envelope, s.square2.envelope, s.noise.envelope]

def frequencies (s : Sound) : List Nat :=
  [s.square1.waveform.frequency, s.square2.waveform.frequency, s.wave.waveform.frequency]

/-- The samples written to frames so far; `frameNumber` of the frames are full and published. -/
def written (s : Sound) : Nat := s.frameNumber * frameLength + s.position

/-- The two controllers agree in all that does not depend on where samples were taken. -/
structure Agree (s t : Sound) : Prop where
  lengths : t.lengths = s.lengths
  envelopes : t.envelopes = s.envelopes
  sweep : t.square1.sweep = s.square1.sweep
  frequencies : t.frequencies = s.frequencies
  register : t.noise.register = s.noise.register
  high : t.noise.high = s.noise.high
  status : t.read 0xFF26 = s.read 0xFF26
  rendered : t.rendered = s.rendered
  written : t.written = s.written
  published : t.frameNumber = s.frameNumber

theorem Concurs.agree {s t : Sound} (h : s.Concurs t) : s.Agree t := by
  have hscore {α : Type} (part : Sound → α) : part t.score = part s.score :=
    congrArg part h.score
  have hwritten : t.written = s.written := by
    unfold Sound.written
    rw [h.tally.frameNumber, h.tally.position]
  exact {
    lengths := hscore Sound.lengths
    envelopes := hscore Sound.envelopes
    sweep := hscore (·.square1.sweep)
    frequencies := hscore Sound.frequencies
    register := hscore (·.noise.register)
    high := hscore (·.noise.high)
    status := hscore (·.read 0xFF26)
    rendered := h.tally.rendered
    written := hwritten
    published := h.tally.frameNumber }

/-- The ticks of any number of updates are those of the last alone. -/
theorem named_updates {f : Sound → Divider} (hf : IsClock f) {s : Sound}
    (hnamed : (f s).NamedUpTo (s.now - s.poweredAt)) {times : List Nat} {last : Nat}
    (horder : InOrder s.now ((times ++ [last]).map .update)) :
    named f s ((times ++ [last]).map .update) = ticksAt f s last := by
  have hpower : ∀ (s : Sound) (times : List Nat), s.NoPowerOn (times.map .update) := by
    intro s times
    induction times generalizing s with
    | nil => trivial
    | cons t times ih => exact ⟨rfl, ih _⟩
  have hcut := named_range hf hnamed horder (hpower s _)
  have hwhole := hnamed.range_append (Nat.sub_le_sub_right (le_of_inOrder horder) s.poweredAt)
  have hend : (s.operate ((times ++ [last]).map .update)).now = last := by
    rw [List.map_append]
    exact now_operate_update s _ last
  rw [hend, ← hwhole] at hcut
  exact List.append_cancel_left hcut

/-- What the ticks and samples since the power-on are. -/
theorem ticks_since_powerOn {s : Sound} (hreachable : s.Reachable) (hoff : s.powered = false)
    {val : UInt8} (hon : anySet val 0x80 = true) {before after : List Operation} {first : Nat}
    (hbefore : ∀ op ∈ before, op.isUpdate = false)
    (horder : InOrder s.now (before ++ .update first :: after))
    (hpower : (s.write 0xFF26 val).NoPowerOn (before ++ .update first :: after)) :
    let start := s.write 0xFF26 val
    let ops := before ++ .update first :: after
    let clock := (start.operate ops).now - s.now
    ((first - s.now) * 512 < 2 ^ 22 →
      named Sound.sequencer start ops = List.range (clock * 512 / 2 ^ 22 + 1)) ∧
    ((first - s.now) * 44100 < 2 ^ 22 →
      (start.operate ops).rendered = clock * 44100 / 2 ^ 22 + 1) := by
  obtain ⟨hsequencer, hsampler⟩ := rates_of_reachable hreachable
  have hrendered := rendered_operate hpower
  rw [write_powerOn hoff hon] at hpower hrendered ⊢
  dsimp only
  have hticks : ∀ clock, s.powerOn.sequencer.tick clock = clock * 512 / 2 ^ 22 := by
    intro clock
    show clock * s.sequencer.rate / cyclesPerSecond = _
    rw [hsequencer]
    rfl
  have hsamples : ∀ clock, s.powerOn.sampler.tick clock = clock * 44100 / 2 ^ 22 := by
    intro clock
    show clock * s.sampler.rate / cyclesPerSecond = _
    rw [hsampler]
    rfl
  refine ⟨fun hfirst => ?_, fun hfirst => ?_⟩
  · have hnamed := named_since_powerOn isClock_sequencer (s := s.powerOn) rfl horder hpower hbefore
      ((hticks _).trans (Nat.div_eq_of_lt hfirst))
    rw [hticks] at hnamed
    exact hnamed
  · have hnamed := named_since_powerOn isClock_sampler (s := s.powerOn) rfl horder hpower hbefore
      ((hsamples _).trans (Nat.div_eq_of_lt hfirst))
    rw [hsamples] at hnamed
    rw [hrendered, hnamed, List.length_range]
    exact Nat.zero_add _

/-- It does not matter how often a controller is told the time. An update does the ticks that its
dividers name. Once a controller has caught up, any number of updates on the way to a time do the
ticks of the one update at that time, and the controllers agree. From the power-on on, each tick of
the frame sequencer is done once, in order, and one sample for each period of the sampler, if the
first update comes before the first of them ends. -/
theorem catchUp_ignores_cuts :
    (∀ (s : Sound) (now : Nat),
      s.update now = ((ticksAt Sound.sequencer s now).foldl sequencerTick (s.told now)).sampleTicks
        (ticksAt Sound.sampler s now).length) ∧
    (∀ s : Sound, s.CaughtUp → ∀ (times : List Nat) (last : Nat),
      let cuts := (times ++ [last]).map .update
      InOrder s.now cuts →
        (s.update last).Agree (s.operate cuts) ∧
        named Sound.sequencer s cuts = ticksAt Sound.sequencer s last ∧
        named Sound.sampler s cuts = ticksAt Sound.sampler s last) ∧
    (∀ s : Sound, s.Reachable → s.powered = false → ∀ val, anySet val 0x80 = true →
      ∀ (before after : List Operation) (first : Nat),
      let start := s.write 0xFF26 val
      let ops := before ++ .update first :: after
      let clock := (start.operate ops).now - s.now
      (∀ op ∈ before, op.isUpdate = false) → InOrder s.now ops → start.NoPowerOn ops →
        ((first - s.now) * 512 < 2 ^ 22 →
          named Sound.sequencer start ops = List.range (clock * 512 / 2 ^ 22 + 1)) ∧
        ((first - s.now) * 44100 < 2 ^ 22 →
          (start.operate ops).rendered = clock * 44100 / 2 ^ 22 + 1)) := by
  refine ⟨update_eq_ticks, ?_, ?_⟩
  · intro s hs times last cuts horder
    have hsettled := settled_of_caughtUp hs
    exact ⟨(concurs_operate hsettled horder).agree,
      named_updates isClock_sequencer hsettled.sequencer horder,
      named_updates isClock_sampler hsettled.sampler horder⟩
  · intro s hreachable hoff val hon before after first start ops clock hbefore horder hpower
    exact ticks_since_powerOn hreachable hoff hon hbefore horder hpower

/-- A controller that is switched on and told the time after 40 cycles, and again when the second
tick of the frame sequencer begins. -/
theorem catchUp_ignores_cuts_powerOn :
    let start := (initial 0).write 0xFF26 0x80
    let ops := [.write 0xFF25 0xFF, .update 40, .update 8192]
    ((start.update 0).update 9000).Agree ((start.update 0).operate [.update 8191, .update 9000]) ∧
      named Sound.sequencer start ops = [0, 1] ∧ (start.operate ops).rendered = 87 := by
  obtain ⟨-, hcuts, hcounts⟩ := catchUp_ignores_cuts
  obtain ⟨hagree, -⟩ := hcuts _ (.update ((initial 0).write 0xFF26 0x80) 0) [8191] 9000 (by
    rw [now_update]
    decide)
  obtain ⟨hticks, hsamples⟩ := hcounts (initial 0) ⟨0, [], trivial, rfl⟩ rfl 0x80 rfl
    [.write 0xFF25 0xFF] [.update 8192] 40 (by decide) (by decide) (by decide)
  have hnow : (((initial 0).write 0xFF26 0x80).operate
      ([.write 0xFF25 0xFF] ++ .update 40 :: [.update 8192])).now = 8192 :=
    now_operate_update _ [.write 0xFF25 0xFF, .update 40] 8192
  rw [hnow] at hticks hsamples
  exact ⟨hagree, hticks (by decide), hsamples (by decide)⟩

end DotMatrix.Sound
