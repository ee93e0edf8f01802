import DotMatrix.Proofs.Cartridge.Loading
import DotMatrix.Proofs.Cartridge.Stopwatch

/-!
# The clock and its save file

The save file holds one time. For a running clock it is the start time itself; for a halted one it
is the time at which a clock would have to start to show now what the halted one shows. Either way
a clock that starts there goes on from what was shown (`Resumes`), for the clock alone and through
the cartridge's save file (`clock_survives_saving`).
-/

namespace DotMatrix

open Binary64 (number?)

/-! ## Written times -/

theorem ofLittleEndian_littleEndian64 (n : UInt64) : ofLittleEndian (littleEndian64 n) = n := by
  apply UInt64.toBitVec_inj.1
  ext i hi
  unfold littleEndian64 ofLittleEndian
  simp only [List.foldr_cons, List.foldr_nil, UInt64.toBitVec_or, UInt64.toBitVec_shiftLeft,
    UInt64.toBitVec_shiftRight, UInt8.toBitVec_toUInt64, UInt64.toBitVec_toUInt8]
  simp
  grind

theorem decode?_encode {t : Float} {x : ℚ} (h : number? t = some x) :
    Timeline.decode? (Timeline.encode t) = some t := by
  have hfinite := Binary64.isFinite_iff.2 ⟨x, h⟩
  have hdecoded : Float.ofBits (ofLittleEndian (littleEndian64 t.toBits)) = t := by
    rw [ofLittleEndian_littleEndian64, Float.ofBits_toBits]
  show (if (8 = 8 && (Float.ofBits (ofLittleEndian (littleEndian64 t.toBits))).isFinite) then
    some (Float.ofBits (ofLittleEndian (littleEndian64 t.toBits))) else none) = some t
  rw [hdecoded, hfinite]
  rfl

/-- The bytes of an array in order. -/
theorem toList_eq (bytes : ByteArray) : bytes.toList = bytes.data.toList := by
  have hloop : ∀ i taken, ByteArray.toList.loop bytes i taken =
      taken.reverse ++ bytes.data.toList.drop i := by
    intro i taken
    induction i, taken using ByteArray.toList.loop.induct bytes with
    | case1 i taken hlt ih =>
      have hi : i < bytes.data.toList.length := hlt
      have hget : bytes.get! i = bytes.data.toList[i] := getElem!_pos bytes.data i hlt
      rw [ByteArray.toList.loop, if_pos hlt, ih, List.drop_eq_getElem_cons hi, hget]
      simp
    | case2 i taken hge =>
      have hlength : bytes.data.toList.length ≤ i := Nat.not_lt.1 hge
      rw [ByteArray.toList.loop, if_neg hge, List.drop_eq_nil_of_le hlength, List.append_nil]
  exact (hloop 0 []).trans (by simp)

namespace RealTimeClock

open ClockRegisters (span)

/-! ## Clocks that can be met -/

section
variable {τ : Type} [Timeline τ] {c : RealTimeClock τ}

/-- A clock after anything that was done with it, at any times. -/
inductive Reachable : RealTimeClock τ → Prop
  | created (now : τ) (saved : Option τ) : Reachable (.create now saved)
  | written {c : RealTimeClock τ} (now : τ) (reg val : UInt8) : Reachable c →
      Reachable (c.write now reg val)
  | latched {c : RealTimeClock τ} (now : τ) (val : UInt8) : Reachable c →
      Reachable (c.writeLatch now val)
  | cleaned {c : RealTimeClock τ} : Reachable c → Reachable c.takeDirty.2

theorem regular_of_reachable (h : c.Reachable) : c.Regular := by
  induction h with
  | created now saved => exact .of_none rfl
  | written now reg val _ ih => exact ih.write now reg val
  | latched now val _ ih =>
    refine ih.of_eq ?_ ?_ <;> unfold writeLatch <;> split <;> rfl
  | cleaned _ ih => exact ih.of_eq rfl rfl

end

/-! ## Saving and restoring -/

variable {c c' : RealTimeClock Float} {now : Float} {x : ℚ}

/-- At an instant the second clock shows what the first one shows, except that it is not halted. If
the first one is not halted either, they show the same at any time. -/
structure Resumes (c c' : RealTimeClock Float) (now : Float) : Prop where
  current : c'.current now = { c.current now with halt := false }
  later : (c.current now).halt = false → ∀ later, c'.current later = c.current later

/-- The time that is saved is a finite number, and taken without rounding. -/
structure SavesExactly (c : RealTimeClock Float) (now : Float) : Prop where
  running : (c.current now).halt = false → ∃ y, number? c.start = some y
  halted : (c.current now).halt = true → ∃ x, number? now = some x ∧
    number? (Timeline.before now (c.current now).totalSeconds) =
      some (x - (c.current now).totalSeconds)

theorem startOfBytes?_toBytes (h : number? (c.persistedStart now) = some x) :
    startOfBytes? (c.toBytes now) = some (c.persistedStart now) := by
  have htime : ((c.toBytes now).extract 0 8).toList = Timeline.encode (c.persistedStart now) := by
    rw [toList_eq]
    rfl
  unfold startOfBytes?
  rw [htime, decode?_encode h]
  rfl

/-- A clock that starts at a time before now shows as many seconds. -/
theorem current_create {n : ℕ} (hn : n < 2 ^ 53) (hnow : number? now = some x)
    (hbefore : number? (Timeline.before now n) = some (x - n)) :
    (create now (some (Timeline.before now n))).current now = .ofElapsed n false := by
  have hshort : Binary64.Short (x - (x - n)) := by
    rw [sub_sub_cancel]
    exact Binary64.short_natCast hn
  have hlt : x - (x - n) < (2 : ℚ) ^ 64 := by
    rw [sub_sub_cancel]
    exact_mod_cast hn.trans (by norm_num)
  have helapsed := Timeline.Reading.elapsed_of_number? hbefore hnow hshort hlt
  rw [sub_sub_cancel, Nat.floor_natCast] at helapsed
  exact congrArg (ClockRegisters.ofElapsed · false) helapsed

theorem Regular.resumes (h : c.Regular) (hexact : c.SavesExactly now) :
    ∃ start, startOfBytes? (c.toBytes now) = some start ∧
      c.Resumes (create now (some start)) now := by
  have hhalt := h.halt_current now
  cases hstopped : c.stoppedAt with
  | none =>
    rw [hstopped, Option.isSome_none] at hhalt
    obtain ⟨y, hstart⟩ := hexact.running hhalt
    have hsame : c.persistedStart now = c.start := by
      unfold persistedStart
      rw [hstopped]
    have hlater : ∀ later, (create now (some c.start)).current later = c.current later := by
      intro later
      unfold RealTimeClock.current
      rw [h.written_of_running hstopped, hstopped]
      rfl
    refine ⟨c.start, ?_, ?_, fun _ => hlater⟩
    · rw [← hsame] at hstart ⊢
      exact startOfBytes?_toBytes hstart
    · rw [hlater, ← hhalt]
  | some stopped =>
    rw [hstopped, Option.isSome_some] at hhalt
    obtain ⟨x, hnow, hbefore⟩ := hexact.halted hhalt
    have hsame : c.persistedStart now = Timeline.before now (c.current now).totalSeconds := by
      unfold persistedStart
      rw [hstopped]
    have hrange := h.inRange_current now
    have hlt : (c.current now).totalSeconds < 2 ^ 53 :=
      hrange.totalSeconds_lt.trans (by decide)
    refine ⟨_, startOfBytes?_toBytes (hsame ▸ hbefore), ?_, fun hrunning => ?_⟩
    · rw [hsame, current_create hlt hnow hbefore, hrange.ofElapsed_totalSeconds]
    · rw [hhalt] at hrunning
      cases hrunning

/-- Among clocks that are read exactly, all save exactly. -/
theorem savesExactly_of_reached {k : ℕ} {hk : k ≤ 1022}
    (h : Reached (.binary k hk) c now x) : c.SavesExactly now := by
  have hsteady := steady_of_reached h
  have hrange := hsteady.regular.inRange_current now
  refine ⟨fun _ => ?_, fun _ => ?_⟩
  · obtain ⟨e, hrun⟩ := hsteady.hasRun
    cases hrun with
    | running _ _ hstart => exact ⟨_, hstart.1⟩
    | halted _ _ _ _ hstart => exact ⟨_, hstart.1⟩
  · have hbefore := (Timeline.Reading.binary k hk).reads_before hsteady.reads
      (hsteady.earliest_le hrange)
    exact ⟨x, hsteady.reads.1, hbefore.1⟩

/-- A clock that is halted after 900 seconds, with 256 days and a carry set by the same write, shows
these 4000 seconds later. -/
theorem reached_halted :
    let c := (create (Float.ofNat 1000) (some (Float.ofNat 100))).write (Float.ofNat 1000) 0x0C 0xC1
    Reached (.binary 0 (by decide)) c (Float.ofNat 5000) 5000 ∧
      c.current (Float.ofNat 5000) = ⟨0, 15, 0, 256, true, true⟩ := by
  intro c
  have hrunning := reached_wholeSeconds (show 100 ≤ 1000 by decide) (by decide)
  have hsteady := steady_of_reached hrunning
  have hstart : (Timeline.Reading.binary 0 (by decide)).Reads (Float.ofNat 100)
      (((1000 : ℕ) : ℚ) - 900) := by
    norm_num
    exact Timeline.Reading.reads_ofNat (show 100 < 2 ^ 52 by decide)
  have hrun : HasRun (.binary 0 (by decide))
      (create (Float.ofNat 1000) (some (Float.ofNat 100))) ((1000 : ℕ) : ℚ) 900 :=
    .running rfl (by norm_num) hstart
  have hcurrent : c.current (Float.ofNat 1000) = ⟨0, 15, 0, 256, true, true⟩ := by
    rw [hsteady.current_write, hrun.current_eq hsteady.reads rfl, show (900 : ℚ) = (900 : ℕ) by
      norm_num, Nat.floor_natCast]
    decide
  have hstopped : c.stoppedAt.isSome = true := by
    rw [← (hsteady.write 0x0C 0xC1).regular.halt_current (Float.ofNat 1000), hcurrent]
  refine ⟨?_, (current_of_stopped hstopped _ _).trans hcurrent⟩
  exact .waited (.written _ _ hrunning)
    (Timeline.Reading.reads_ofNat (show 5000 < 2 ^ 52 by decide)) (by norm_num)

end RealTimeClock

namespace Cartridge

open RealTimeClock (startOfBytes? fileSize)

/-! ## The clock of a cartridge -/

section
variable {τ : Type}

def clock? (c : Cartridge τ) : Option (RealTimeClock τ) :=
  match c.controller with
  | .mbc3 m => m.clock
  | _ => none

theorem clock?_of_mbc3 {c : Cartridge τ} {m : Mbc3 τ} (h : c.controller = .mbc3 m) :
    c.clock? = m.clock := by
  unfold clock?
  rw [h]

/-- Switching external memory on or off leaves the clock alone. -/
theorem clock?_switch (c : Cartridge τ) (controller : Controller τ) (off : Bool) :
    (if off then commitRam { c with controller } else { c with controller }).clock? =
      { c with controller }.clock? := by
  split
  · unfold clock?
    rw [controller_commitRam]
  · rfl

variable [Timeline τ]

/-- Saving the clock takes its mark away, or leaves it as it is. -/
theorem clock?_saveClock (c : Cartridge τ) (host : Host τ) (always : Bool) :
    (c.saveClock host always).1.clock? = c.clock? ∨
      (c.saveClock host always).1.clock? = c.clock?.map (·.takeDirty.2) := by
  unfold saveClock
  split
  · rename_i m paths hcontroller hpaths
    split
    · exact .inl rfl
    · rename_i clock hsome
      dsimp only
      split
      · right
        rw [clock?_of_mbc3 hcontroller, hsome]
        rfl
      · exact .inl rfl
  · exact .inl rfl

/-- The other registers of the controller leave the clock alone. -/
theorem clock?_writeRegister_of_lt {addr : UInt16} (h : addr < 0x6000) (c : Cartridge τ) (now : τ)
    (val : UInt8) : (c.writeRegister now addr val).clock? = c.clock? := by
  unfold writeRegister
  cases hcontroller : c.controller with
  | fixed => rfl
  | mbc1 m =>
    have hnone : c.clock? = none := by
      unfold clock?
      rw [hcontroller]
    rw [hnone]
    dsimp only
    split
    · exact clock?_switch c (.mbc1 _) _
    · split <;> rfl
  | mbc3 m =>
    rw [clock?_of_mbc3 hcontroller]
    dsimp only
    split
    · exact clock?_switch c (.mbc3 _) _
    · split <;> rfl

theorem clock?_writeRegister_of_latch {addr : UInt16} (h : 0x6000 ≤ addr) (c : Cartridge τ)
    (now : τ) (val : UInt8) :
    (c.writeRegister now addr val).clock? = c.clock?.map (·.writeLatch now val) := by
  have hnot : ∀ bound : UInt16, bound ≤ 0x6000 → ¬addr < bound := fun bound hbound =>
    UInt16.not_lt.2 (UInt16.le_trans hbound h)
  unfold writeRegister
  cases hcontroller : c.controller with
  | fixed => simp [clock?, hcontroller]
  | mbc1 m =>
    dsimp only
    rw [if_neg (hnot 0x2000 (by decide)), if_neg (hnot 0x4000 (by decide)),
      if_neg (hnot 0x6000 (by decide))]
    simp [clock?, hcontroller]
  | mbc3 m =>
    rw [clock?_of_mbc3 hcontroller]
    dsimp only
    rw [if_neg (hnot 0x2000 (by decide)), if_neg (hnot 0x4000 (by decide)),
      if_neg (hnot 0x6000 (by decide))]
    rfl

/-- A clock is there as before, and if it was one that can be met, it still is. -/
structure Advances (clock clock' : Option (RealTimeClock τ)) : Prop where
  isSome : clock'.isSome = clock.isSome
  reachable : (∀ k ∈ clock, k.Reachable) → ∀ k ∈ clock', k.Reachable

theorem Advances.refl (clock : Option (RealTimeClock τ)) : Advances clock clock :=
  ⟨rfl, fun h => h⟩

theorem Advances.trans {k₁ k₂ k₃ : Option (RealTimeClock τ)} (h : Advances k₁ k₂)
    (h' : Advances k₂ k₃) : Advances k₁ k₃ :=
  ⟨h'.isSome.trans h.isSome, fun hk => h'.reachable (h.reachable hk)⟩

theorem Advances.eq_none_iff {clock clock' : Option (RealTimeClock τ)}
    (h : Advances clock clock') : clock' = none ↔ clock = none := by
  rw [← Option.not_isSome_iff_eq_none, ← Option.not_isSome_iff_eq_none, h.isSome]

theorem advances_map {clock : Option (RealTimeClock τ)} {f : RealTimeClock τ → RealTimeClock τ}
    (hf : ∀ k : RealTimeClock τ, k.Reachable → (f k).Reachable) :
    Advances clock (clock.map f) := by
  refine ⟨Option.isSome_map, fun h k hk => ?_⟩
  obtain ⟨k₀, hk₀, rfl⟩ := Option.map_eq_some_iff.1 hk
  exact hf k₀ (h k₀ hk₀)

theorem advances_saveClock (c : Cartridge τ) (host : Host τ) (always : Bool) :
    Advances c.clock? (c.saveClock host always).1.clock? := by
  rcases c.clock?_saveClock host always with hsame | hclean
  · rw [hsame]
    exact .refl _
  · rw [hclean]
    exact advances_map fun _ hk => .cleaned hk

/-- A start time that is saved already is not saved again. -/
theorem saveClock_of_clean {c : Cartridge τ} {host : Host τ}
    (h : ∀ k ∈ c.clock?, k.dirty = false) : c.saveClock host false = (c, host) := by
  unfold saveClock
  split
  · rename_i m paths hcontroller hpaths
    rw [clock?_of_mbc3 hcontroller] at h
    split
    · rfl
    · rename_i clock hsome
      have hclean := h clock hsome
      unfold RealTimeClock.takeDirty
      simp [hclean]
  · rfl

theorem advances_writeRegister (c : Cartridge τ) (now : τ) (addr : UInt16) (val : UInt8) :
    Advances c.clock? (c.writeRegister now addr val).clock? := by
  by_cases hlatch : 0x6000 ≤ addr
  · rw [clock?_writeRegister_of_latch hlatch]
    exact advances_map fun _ hk => .latched now val hk
  · rw [clock?_writeRegister_of_lt (UInt16.not_le.1 hlatch)]
    exact .refl _

theorem advances_writeExternal (c : Cartridge τ) (host : Host τ) (offset : Nat) (val : UInt8) :
    Advances c.clock? (c.writeExternal host offset val).1.clock? := by
  unfold writeExternal
  split
  · exact .refl _
  · split <;> exact .refl _
  · rename_i m hcontroller
    split
    · exact .refl _
    · split
      · exact .refl _
      · rename_i reg clock hselect hsome
        refine .trans ?_ (advances_saveClock _ host false)
        rw [clock?_of_mbc3 hcontroller, hsome]
        exact ⟨rfl, fun h k hk => by cases hk; exact .written _ _ _ (h clock rfl)⟩
      · exact .refl _

theorem advances_write (c : Cartridge τ) (host : Host τ) (addr : UInt16) (val : UInt8) :
    Advances c.clock? (c.write host addr val).1.clock? := by
  unfold write
  split
  · exact advances_writeRegister c host.calendar addr val
  · split
    · exact advances_writeExternal c host _ val
    · exact .refl _

/-! ## Restoring it -/

/-- The start time in a save file, if there is a file with a time in it. -/
def savedStart? (host : Host τ) (path : String) : Option τ :=
  match host.storage.load path fileSize with
  | .ok bytes => bytes.bind startOfBytes?
  | .error _ => none

theorem clock?_restoreClock (c : Cartridge τ) (host : Host τ) (path : String) :
    (c.restoreClock host path).1.clock? =
      c.clock?.map fun _ => .create host.calendar (savedStart? host path) := by
  unfold restoreClock savedStart?
  cases hcontroller : c.controller with
  | fixed => simp [clock?, hcontroller]
  | mbc1 m => simp [clock?, hcontroller]
  | mbc3 m =>
    cases hclock : m.clock with
    | none => simp [clock?, hcontroller, hclock]
    | some clock =>
      rw [clock?_of_mbc3 hcontroller, hclock]
      dsimp only
      rw [if_pos (by rw [hclock]; rfl)]
      cases host.storage.load path fileSize <;> rfl

/-- The clock of a cartridge that was restored was just created, and saved again at the most. -/
theorem created_of_restore {c : Cartridge τ} {host : Host τ} {path : String} {k : RealTimeClock τ}
    (h : (c.restore host path).1.clock? = some k) :
    ∃ saved, k = .create host.calendar saved ∨
      k = (RealTimeClock.create host.calendar saved).takeDirty.2 := by
  obtain ⟨ram, log, -, hrestore⟩ := c.restore_eq host path
  have hcreated := clock?_restoreClock { c with ram } { host with log }
    (savePaths host.saveFolder path).clock
  rw [hrestore] at h
  generalize restoreClock { c with ram } { host with log } (savePaths host.saveFolder path).clock =
    restored at *
  rcases clock?_saveClock { restored.1 with paths := some (savePaths host.saveFolder path) }
    restored.2 false with hsame | hclean
  · obtain ⟨_, -, rfl⟩ := Option.map_eq_some_iff.1 (hcreated.symm.trans (hsame.symm.trans h))
    exact ⟨_, .inl rfl⟩
  · obtain ⟨k₀, hk₀, rfl⟩ := Option.map_eq_some_iff.1 (hclean.symm.trans h)
    obtain ⟨_, -, rfl⟩ := Option.map_eq_some_iff.1 (hcreated.symm.trans hk₀)
    exact ⟨_, .inr rfl⟩

/-- A cartridge comes back with a clock that was just created, from its save file if that has a
time in it. -/
theorem clock?_restore (c : Cartridge τ) (host : Host τ) (path : String) :
    (c.restore host path).1.clock?.isSome = c.clock?.isSome ∧
      (∀ k ∈ (c.restore host path).1.clock?, k.Reachable) ∧
      ∀ start, savedStart? host (savePaths host.saveFolder path).clock = some start →
        c.clock?.isSome = true →
        (c.restore host path).1.clock? = some (.create host.calendar (some start)) := by
  have hreachable : ∀ k ∈ (c.restore host path).1.clock?, k.Reachable := by
    intro k hk
    obtain ⟨saved, rfl | rfl⟩ := created_of_restore hk
    · exact .created host.calendar saved
    · exact .cleaned (.created host.calendar saved)
  obtain ⟨ram, log, -, hrestore⟩ := c.restore_eq host path
  have hclock := clock?_restoreClock { c with ram } { host with log }
    (savePaths host.saveFolder path).clock
  rw [hrestore] at hreachable ⊢
  generalize restoreClock { c with ram } { host with log } (savePaths host.saveFolder path).clock =
    restored at *
  have hadvances := advances_saveClock
    { restored.1 with paths := some (savePaths host.saveFolder path) } restored.2 false
  refine ⟨?_, hreachable, fun start hstart hsome => ?_⟩
  · rw [hadvances.isSome]
    exact (congrArg Option.isSome hclock).trans Option.isSome_map
  · obtain ⟨k, hk⟩ := Option.isSome_iff_exists.1 hsome
    have hcreated : restored.1.clock? = some (.create host.calendar (some start)) := by
      rw [hclock, show clock? { c with ram } = some k from hk]
      exact congrArg (fun saved => some (RealTimeClock.create host.calendar saved)) hstart
    rw [saveClock_of_clean]
    · exact hcreated
    · intro k' hk'
      obtain rfl := Option.some.inj (hcreated.symm.trans hk')
      rfl

/-- Whether there is a clock depends on the header alone. -/
theorem isSome_clock?_of_ofBytes {now : τ} {image : ByteArray} {c : Cartridge τ}
    (h : ofBytes now image = .ok c) :
    c.clock?.isSome = (c.capability.family = .mbc3 && c.capability.hasTimer) := by
  obtain ⟨capability, controller, -, hcontroller, -, rfl⟩ := ofBytes_eq_ok_iff.1 h
  unfold controller? at hcontroller
  unfold clock?
  split at hcontroller <;> cases hcontroller <;> rename_i hfamily <;> dsimp only <;> rw [hfamily]
  · rfl
  · rfl
  · cases capability.hasTimer <;> rfl

/-! ## Writes at various times -/

structure TimedWrite (τ : Type) where
  now : τ
  addr : UInt16
  val : UInt8

def writeAt (s : Cartridge τ × Host τ) (w : TimedWrite τ) : Cartridge τ × Host τ :=
  s.1.write { s.2 with calendar := w.now } w.addr w.val

def writeAllAt (s : Cartridge τ × Host τ) (ws : List (TimedWrite τ)) : Cartridge τ × Host τ :=
  ws.foldl writeAt s

/-- A cartridge whose image is still where it was loaded from, and whose clock is saved on a
storage that accepts that. -/
structure OnFile (path : String) (start : Host τ) (hasClock : Bool) (s : Cartridge τ × Host τ) :
    Prop where
  paths : s.1.paths = some (savePaths start.saveFolder path)
  folder : s.2.saveFolder = start.saveFolder
  storage : s.2.storage.Accepts [path, start.saveLocation path .clock]
    [start.saveLocation path .clock]
  image : s.2.storage.contents path = start.storage.contents path
  hasClock : s.1.clock?.isSome = hasClock
  reachable : ∀ k ∈ s.1.clock?, k.Reachable

variable {path : String} {start : Host τ} {hasClock : Bool} {s : Cartridge τ × Host τ}

theorem OnFile.path_ne (h : OnFile path start hasClock s) :
    path ≠ start.saveLocation path .clock := by
  simpa using h.storage.distinct.of_map

/-- Saving the clock once more changes its file alone. -/
theorem OnFile.save (h : OnFile path start hasClock s) (bytes : ByteArray) :
    OnFile path start hasClock
      (s.1, (s.2.save "RTC" (start.saveLocation path .clock) bytes).2) := by
  refine ⟨h.paths, (Host.saveFolder_save _ _ _ _).trans h.folder, ?_, ?_, h.hasClock, h.reachable⟩
  · rw [Host.storage_save]
    exact h.storage.save (by simp) bytes
  · rw [Host.storage_save, h.storage.contents_save (by simp) (by simp), if_neg h.path_ne]
    exact h.image

/-- Of the host, only the storage matters and where saves go. -/
theorem OnFile.of_storage (h : OnFile path start hasClock s) {host : Host τ}
    (hfolder : host.saveFolder = s.2.saveFolder) (hstorage : host.storage = s.2.storage) :
    OnFile path start hasClock (s.1, host) :=
  ⟨h.paths, hfolder.trans h.folder, hstorage ▸ h.storage,
    (congrArg (·.contents path) hstorage).trans h.image, h.hasClock, h.reachable⟩

theorem OnFile.writeAt (h : OnFile path start hasClock s) (w : TimedWrite τ) :
    OnFile path start hasClock (writeAt s w) := by
  have hwritten := s.1.written_write { s.2 with calendar := w.now } w.addr w.val
  have hadvances := s.1.advances_write { s.2 with calendar := w.now } w.addr w.val
  have hhost : OnFile path start hasClock (s.1, (Cartridge.writeAt s w).2) := by
    rcases hwritten.host with hsame | ⟨paths, bytes, hpaths, hsaved⟩
    · rw [show (Cartridge.writeAt s w).2 = _ from hsame]
      exact h.of_storage rfl rfl
    · obtain rfl := Option.some.inj (hpaths.symm.trans h.paths)
      rw [show (Cartridge.writeAt s w).2 = _ from hsaved]
      have htimed : OnFile path start hasClock (s.1, { s.2 with calendar := w.now }) :=
        h.of_storage rfl rfl
      exact htimed.save bytes
  exact ⟨hwritten.paths.trans h.paths, hhost.folder, hhost.storage, hhost.image,
    hadvances.isSome.trans h.hasClock, hadvances.reachable h.reachable⟩

theorem OnFile.writeAllAt (h : OnFile path start hasClock s) (ws : List (TimedWrite τ)) :
    OnFile path start hasClock (writeAllAt s ws) := by
  induction ws generalizing s with
  | nil => exact h
  | cons w ws ih => exact ih (h.writeAt w)

theorem onFile_ofFile {host' : Host τ} {c : Cartridge τ}
    (hload : ofFile start path = (.ok c, host'))
    (hstorage : start.storage.Accepts [path, start.saveLocation path .clock]
      [start.saveLocation path .clock]) :
    ∃ image fresh, start.storage.load path maxImageSize = .ok (some image) ∧
      ofBytes start.calendar image = .ok fresh ∧
      OnFile path start fresh.clock?.isSome (c, host') := by
  obtain ⟨image, fresh, himage, hbytes, rfl, log, rfl⟩ := ofFile_ok hload
  have hrestored := fresh.restored_restore start path
  obtain ⟨hsome, hreachable, -⟩ := fresh.clock?_restore start path
  refine ⟨image, fresh, himage, hbytes, ?_⟩
  have hbefore : OnFile path start fresh.clock?.isSome ((fresh.restore start path).1, start) :=
    ⟨hrestored.paths, rfl, hstorage, rfl, hsome, hreachable⟩
  -- restoring the clock may have saved it
  rcases hrestored.storage with hsame | ⟨bytes, hsaved⟩
  · exact hbefore.of_storage hrestored.folder hsame
  · exact (hbefore.save bytes).of_storage
      (hrestored.folder.trans (start.saveFolder_save _ _ _).symm)
      (hsaved.trans (start.storage_save _ _ _).symm)

theorem snd_saveClock_always {c : Cartridge τ} {host : Host τ} {k : RealTimeClock τ}
    {paths : SavePaths} (hclock : c.clock? = some k) (hpaths : c.paths = some paths) :
    (c.saveClock host true).2 = (host.save "RTC" paths.clock (k.toBytes host.calendar)).2 := by
  unfold clock? at hclock
  split at hclock
  · rename_i m hcontroller
    unfold saveClock
    rw [hcontroller, hpaths]
    dsimp only
    rw [hclock]
    simp
    rfl
  · cases hclock

/-- The clock is saved and restored, and then starts at the time that was saved. -/
theorem OnFile.ofFile (h : OnFile path start hasClock s) {image : ByteArray} {fresh : Cartridge τ}
    {now : τ} (himage : (start.storage.contents path).map (·.extract 0 maxImageSize) = some image)
    (hbytes : ofBytes now image = .ok fresh) (hfresh : fresh.clock?.isSome = hasClock)
    {k : RealTimeClock τ} (hclock : s.1.clock? = some k) {saved : τ}
    (hsaved : startOfBytes? (k.toBytes s.2.calendar) = some saved)
    (hsize : (k.toBytes s.2.calendar).size = fileSize) :
    ∃ c' host', Cartridge.ofFile (s.1.saveClock s.2 true).2 path = (.ok c', host') ∧
      c'.clock? = some (.create s.2.calendar (some saved)) := by
  have hafter := h.save (k.toBytes s.2.calendar)
  have hplace : (savePaths start.saveFolder path).clock = start.saveLocation path .clock := rfl
  rw [snd_saveClock_always hclock h.paths, hplace]
  obtain ⟨log, hsnd⟩ := s.2.save_snd "RTC" (start.saveLocation path .clock)
    (k.toBytes s.2.calendar)
  have hcalendar : (s.2.save "RTC" (start.saveLocation path .clock)
      (k.toBytes s.2.calendar)).2.calendar = s.2.calendar := by rw [hsnd]
  have hstored : (s.2.save "RTC" (start.saveLocation path .clock)
      (k.toBytes s.2.calendar)).2.storage.contents (start.saveLocation path .clock) =
        some (k.toBytes s.2.calendar) := by
    rw [Host.storage_save, h.storage.contents_save (by simp) (by simp), if_pos rfl]
  generalize (s.2.save "RTC" (start.saveLocation path .clock) (k.toBytes s.2.calendar)).2 =
    host at *
  -- the same image makes a cartridge with a clock again
  have hload : host.storage.load path maxImageSize = .ok (some image) := by
    rw [hafter.storage.load (by simp), hafter.image, himage]
  obtain ⟨-, -, -, hlater⟩ := ofBytes_ok hbytes
  obtain ⟨again, hagain, hcapability⟩ := hlater host.calendar
  obtain ⟨host', hfile⟩ := ofFile_of_load hload hagain
  have hsome : again.clock?.isSome = true := by
    rw [isSome_clock?_of_ofBytes hagain, hcapability, ← isSome_clock?_of_ofBytes hbytes, hfresh,
      ← h.hasClock, hclock]
    rfl
  refine ⟨_, host', hfile, ?_⟩
  rw [(again.clock?_restore host path).2.2 saved ?_ hsome, hcalendar]
  -- and its file is as long as what was saved
  have hpath : (savePaths host.saveFolder path).clock = start.saveLocation path .clock :=
    congrArg (fun folder => (savePaths folder path).clock) hafter.folder
  unfold savedStart?
  rw [hpath, hafter.storage.load (by simp), hstored, Option.map_some, extract_whole hsize.le]
  exact hsaved

end

/-- The clock survives being saved. Any clock that can be met and is saved as an exact time comes
back from its bytes and goes on from what it showed. The same holds through the save file of a
cartridge: loaded from a file, written to at any times, saved, and loaded again. -/
theorem clock_survives_saving (now : Float) :
    (∀ c : RealTimeClock Float, c.Reachable → c.SavesExactly now →
      ∃ start, startOfBytes? (c.toBytes now) = some start ∧
        c.Resumes (.create now (some start)) now) ∧
    ∀ (host host' : Host Float) (path : String) (c : Cartridge Float),
      ofFile host path = (.ok c, host') →
      host.storage.Accepts [path, host.saveLocation path .clock]
        [host.saveLocation path .clock] →
      ∀ (ws : List (TimedWrite Float)) (k : RealTimeClock Float),
        (writeAllAt (c, host') ws).1.clock? = some k → k.SavesExactly now →
        let saved := (writeAllAt (c, host') ws).1.saveClock
          { (writeAllAt (c, host') ws).2 with calendar := now } true
        ∃ c' host'' k', ofFile saved.2 path = (.ok c', host'') ∧ c'.clock? = some k' ∧
          k.Resumes k' now := by
  refine ⟨fun c hc hexact => (RealTimeClock.regular_of_reachable hc).resumes hexact, ?_⟩
  intro host host' path c hload hstorage ws k hclock hexact saved
  obtain ⟨image, fresh, himage, hbytes, honFile⟩ := onFile_ofFile hload hstorage
  rw [hstorage.load (by simp)] at himage
  have hwritten := honFile.writeAllAt ws
  have hregular := RealTimeClock.regular_of_reachable (hwritten.reachable k hclock)
  obtain ⟨start, hstart, hresumes⟩ := hregular.resumes hexact
  have htimed : OnFile path host fresh.clock?.isSome ((writeAllAt (c, host') ws).1,
      { (writeAllAt (c, host') ws).2 with calendar := now }) := hwritten.of_storage rfl rfl
  obtain ⟨c', host'', hfile, hclock'⟩ :=
    htimed.ofFile (Except.ok.inj himage) hbytes rfl hclock hstart rfl
  exact ⟨c', host'', _, hfile, hclock', hresumes⟩

/-- A host with an image, and with a save file of a clock that started at 100 seconds. -/
def clockHost : Host Float :=
  ⟨⟨.table [] [], [(["game.gb"], batteryImage),
    (["game.rtc"], (RealTimeClock.create (Float.ofNat 100) none).toBytes (Float.ofNat 100))],
    [], []⟩, none, Float.ofNat 1000, 0, []⟩

/-- After 900 seconds the clock is halted, and with the same write its days are set to 256 and a
carry. -/
def haltWithCarry : List (TimedWrite Float) :=
  [⟨Float.ofNat 1000, 0x0000, 0x0A⟩, ⟨Float.ofNat 1000, 0x4000, 0x0C⟩,
    ⟨Float.ofNat 1000, 0xA000, 0xC1⟩]

theorem clock?_haltWithCarry {c : Cartridge Float} (host : Host Float) {k : RealTimeClock Float}
    (hclock : c.clock? = some k) (hclean : k.dirty = false) :
    (writeAllAt (c, host) haltWithCarry).1.clock? =
      some (k.write (Float.ofNat 1000) 0x0C 0xC1) := by
  obtain ⟨m, hcontroller, hm⟩ : ∃ m, c.controller = .mbc3 m ∧ m.clock = some k := by
    unfold clock? at hclock
    split at hclock
    · rename_i m hcontroller
      exact ⟨m, hcontroller, hclock⟩
    · cases hclock
  have henabled : writeAt (c, host) ⟨Float.ofNat 1000, 0x0000, 0x0A⟩ =
      ({ c with controller := .mbc3 { m with ramEnabled := true } },
        { host with calendar := Float.ofNat 1000 }) := by
    unfold writeAt write writeRegister
    rw [hcontroller]
    have henables : enablesRam 0x0A = true := by decide
    simp [henables]
  have hselected : writeAt ({ c with controller := .mbc3 { m with ramEnabled := true } },
        { host with calendar := Float.ofNat 1000 }) ⟨Float.ofNat 1000, 0x4000, 0x0C⟩ =
      ({ c with controller := .mbc3 { m with ramEnabled := true, select := .clock 0x0C } },
        { host with calendar := Float.ofNat 1000 }) := by
    rfl
  unfold writeAllAt haltWithCarry
  rw [List.foldl_cons, henabled, List.foldl_cons, hselected, List.foldl_cons, List.foldl_nil]
  have hkept : (k.write (Float.ofNat 1000) 0x0C 0xC1).dirty = false := by
    have hhalt : ((k.current (Float.ofNat 1000)).write 0x0C 0xC1).halt = true := rfl
    unfold RealTimeClock.write
    dsimp only
    rw [if_pos hhalt]
    exact hclean
  unfold writeAt write writeExternal
  rw [if_neg (by decide), if_pos (by decide)]
  simp only [hm, Bool.not_true, Bool.false_eq_true, if_false]
  rw [saveClock_of_clean]
  · rfl
  · rintro k' ⟨⟩
    exact hkept

/-- What is read from the two files of the host. -/
theorem clockHost_files :
    clockHost.storage.load "game.gb" maxImageSize = .ok (some batteryImage) ∧
      clockHost.storage.load "game.rtc" fileSize =
        .ok (some ((RealTimeClock.create (Float.ofNat 100) none).toBytes (Float.ofNat 100))) := by
  have hmedium : clockHost.storage.medium = .table [] [] := rfl
  have himage : clockHost.storage.contents "game.gb" = some batteryImage := rfl
  have hclock : clockHost.storage.contents "game.rtc" =
      some ((RealTimeClock.create (Float.ofNat 100) none).toBytes (Float.ofNat 100)) := rfl
  have hsize : batteryImage.size ≤ maxImageSize := by
    rw [size_batteryImage]
    decide
  rw [Storage.load_table hmedium, if_neg (by decide), Storage.load_table hmedium,
    if_neg (by decide), himage, hclock, Option.map_some, extract_whole hsize]
  exact ⟨rfl, rfl⟩

/-- Saved after 4000 more seconds and loaded again, it shows the same but runs. -/
theorem clock_survives_saving_haltWithCarry :
    ∃ c host' k c' host'' k', ofFile clockHost "game.gb" = (.ok c, host') ∧
      (writeAllAt (c, host') haltWithCarry).1.clock? = some k ∧
      k.current (Float.ofNat 5000) = ⟨0, 15, 0, 256, true, true⟩ ∧
      ofFile ((writeAllAt (c, host') haltWithCarry).1.saveClock
        { (writeAllAt (c, host') haltWithCarry).2 with calendar := Float.ofNat 5000 } true).2
        "game.gb" = (.ok c', host'') ∧
      c'.clock? = some k' ∧ k'.current (Float.ofNat 5000) = ⟨0, 15, 0, 256, false, true⟩ := by
  obtain ⟨himage, hload⟩ := clockHost_files
  have hpath : clockHost.saveLocation "game.gb" .clock = "game.rtc" := by decide +kernel
  have hstart : savedStart? clockHost (savePaths clockHost.saveFolder "game.gb").clock =
      some (Float.ofNat 100) := by
    unfold savedStart?
    rw [show (savePaths clockHost.saveFolder "game.gb").clock = "game.rtc" from hpath, hload]
    exact RealTimeClock.startOfBytes?_toBytes (Binary64.number?_ofNat (by decide))
  obtain ⟨fresh, hbytes, hcapability⟩ := ofBytes_of_header (Float.ofNat 1000)
    ofHeader_batteryImage rfl (Nat.le_of_eq size_batteryImage.symm)
  obtain ⟨host', hfile⟩ := ofFile_of_load himage hbytes
  have hsome : fresh.clock?.isSome = true := by
    rw [isSome_clock?_of_ofBytes hbytes, hcapability]
    rfl
  have hclock := (fresh.clock?_restore clockHost "game.gb").2.2 _ hstart hsome
  rw [show clockHost.calendar = Float.ofNat 1000 from rfl] at hclock
  have hwritten := clock?_haltWithCarry host' hclock rfl
  obtain ⟨hreached, hcurrent⟩ := RealTimeClock.reached_halted
  have hstorage : clockHost.storage.Accepts ["game.gb", clockHost.saveLocation "game.gb" .clock]
      [clockHost.saveLocation "game.gb" .clock] := by
    rw [hpath]
    exact Storage.accepts_table rfl (by simp) (by decide) (by simp) (by simp)
  obtain ⟨c', host'', k', hagain, hclock', hresumes⟩ :=
    (clock_survives_saving (Float.ofNat 5000)).2 clockHost host' "game.gb" _ hfile hstorage
      haltWithCarry _ hwritten (RealTimeClock.savesExactly_of_reached hreached)
  refine ⟨_, host', _, c', host'', k', hfile, hwritten, hcurrent, hagain, hclock', ?_⟩
  rw [hresumes.current, hcurrent]

end Cartridge

end DotMatrix
