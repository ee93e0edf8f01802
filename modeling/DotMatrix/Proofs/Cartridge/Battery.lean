import DotMatrix.Cartridge
import DotMatrix.Proofs.Storage.Accepts

/-!
# External memory and its save file

What a cartridge has after it was loaded, and what a write can do to its external memory, to the
snapshot that waits to be committed, and to the host.
-/

namespace DotMatrix

theorem extract_whole {bytes : ByteArray} {limit : Nat} (h : bytes.size ≤ limit) :
    bytes.extract 0 limit = bytes := by
  apply ByteArray.ext
  rw [ByteArray.data_extract]
  exact Array.extract_eq_self_of_le h

/-! ## External memory -/

namespace ExternalRam

theorem size_write (r : ExternalRam) (pos : Nat) (val : UInt8) :
    (r.write pos val).bytes.size = r.bytes.size := by
  unfold write
  split
  · split
    · rfl
    · rename_i hlt _
      exact Array.size_set hlt
  · rfl

/-- A write that changes anything marks the memory as modified. -/
theorem write_eq_or_modified (r : ExternalRam) (pos : Nat) (val : UInt8) :
    r.write pos val = r ∨ (r.write pos val).modified = true := by
  unfold write
  split
  · split
    · exact .inl rfl
    · exact .inr rfl
  · exact .inl rfl

/-- The memory of a size after its save file was read, if there is one that holds all of it. -/
def reloaded (size : Nat) (file : Option ByteArray) : Array UInt8 :=
  match file with
  | none => (create size).bytes
  | some bytes =>
    if size ≤ (bytes.extract 0 size).size then ((create size).load (bytes.extract 0 size)).bytes
    else (create size).bytes

theorem size_load (r : ExternalRam) (saved : ByteArray) :
    (r.load saved).bytes.size = r.bytes.size := by
  unfold load
  simp only [Array.size_append, Array.size_extract]
  omega

theorem size_reloaded (size : Nat) (file : Option ByteArray) :
    (reloaded size file).size = size := by
  unfold reloaded
  split
  · simp [create]
  · split
    · rw [size_load]
      simp [create]
    · simp [create]

theorem reloaded_save (bytes : Array UInt8) : reloaded bytes.size (some ⟨bytes⟩) = bytes := by
  -- the file is exactly as long as the memory, so all of it is taken
  have hall : (⟨bytes⟩ : ByteArray).extract 0 bytes.size = ⟨bytes⟩ := extract_whole (Nat.le_refl _)
  have hsize : (⟨bytes⟩ : ByteArray).size = bytes.size := rfl
  unfold reloaded
  dsimp only
  rw [hall, if_pos (Nat.le_of_eq hsize.symm)]
  unfold load create
  simp

end ExternalRam

/-! ## The host -/

namespace Host

variable {τ : Type}

theorem save_snd (h : Host τ) (what path : String) (bytes : ByteArray) :
    ∃ log, (h.save what path bytes).2 =
      { h with storage := (h.storage.save path bytes).2, log } := by
  unfold save
  split <;> rename_i hsave <;> rw [hsave] <;> exact ⟨_, rfl⟩

theorem storage_save (h : Host τ) (what path : String) (bytes : ByteArray) :
    (h.save what path bytes).2.storage = (h.storage.save path bytes).2 := by
  obtain ⟨log, hsave⟩ := h.save_snd what path bytes
  rw [hsave]

theorem saveFolder_save (h : Host τ) (what path : String) (bytes : ByteArray) :
    (h.save what path bytes).2.saveFolder = h.saveFolder := by
  obtain ⟨log, hsave⟩ := h.save_snd what path bytes
  rw [hsave]

end Host

namespace Cartridge

variable {τ : Type}

/-! ## Saving the clock -/

/-- What saving the clock can change: the controller, and the host by one save at the clock's
path. -/
structure ClockSaved (c : Cartridge τ) (host : Host τ) (c' : Cartridge τ) (host' : Host τ) :
    Prop where
  cartridge : ∃ controller, c' = { c with controller }
  host : host' = host ∨
    ∃ paths bytes, c.paths = some paths ∧ host' = (host.save "RTC" paths.clock bytes).2

theorem clockSaved_saveClock [Timeline τ] (c : Cartridge τ) (host : Host τ) (always : Bool) :
    c.ClockSaved host (c.saveClock host always).1 (c.saveClock host always).2 := by
  have hsame : c.ClockSaved host c host := ⟨⟨c.controller, rfl⟩, .inl rfl⟩
  unfold saveClock
  split
  · rename_i m paths hcontroller hpaths
    split
    · exact hsame
    · dsimp only
      split
      · exact ⟨⟨_, rfl⟩, .inr ⟨paths, _, hpaths, rfl⟩⟩
      · exact hsame
  · exact hsame

/-! ## Writing -/

/-- What a write can do to external memory and to the snapshot that waits to be committed. -/
inductive RamWritten (c : Cartridge τ) : ExternalRam → Option ExternalRam → Prop where
  | same : RamWritten c c.ram c.commit
  /-- A cell changes, and the memory is marked as modified. -/
  | modified (ram : ExternalRam) (hsize : ram.bytes.size = c.ram.bytes.size)
      (hmodified : ram.modified = true) : RamWritten c ram c.commit
  /-- Modified memory that a battery keeps is switched off. -/
  | committed (hmodified : c.ram.modified = true) :
      RamWritten c c.ram.resetModified (some c.ram.snapshot)

theorem RamWritten.size_eq {c : Cartridge τ} {ram : ExternalRam} {commit : Option ExternalRam}
    (h : c.RamWritten ram commit) : ram.bytes.size = c.ram.bytes.size := by
  cases h with
  | same => rfl
  | modified _ hsize => exact hsize
  | committed => rfl

/-- What a write can do to a cartridge and its host. -/
structure Written (c : Cartridge τ) (host : Host τ) (c' : Cartridge τ) (host' : Host τ) :
    Prop where
  rom : c'.rom = c.rom
  capability : c'.capability = c.capability
  paths : c'.paths = c.paths
  ram : c.RamWritten c'.ram c'.commit
  host : host' = host ∨
    ∃ paths bytes, c.paths = some paths ∧ host' = (host.save "RTC" paths.clock bytes).2

theorem written_controller (c : Cartridge τ) (host : Host τ) (controller : Controller τ) :
    c.Written host { c with controller } host :=
  ⟨rfl, rfl, rfl, .same, .inl rfl⟩

theorem written_ram (c : Cartridge τ) (host : Host τ) (pos : Nat) (val : UInt8) :
    c.Written host { c with ram := c.ram.write pos val } host := by
  refine ⟨rfl, rfl, rfl, ?_, .inl rfl⟩
  rcases c.ram.write_eq_or_modified pos val with hsame | hmodified
  · rw [hsame]
    exact .same
  -- writing what is there already does not mark the memory
  · exact .modified _ (c.ram.size_write pos val) hmodified

theorem controller_commitRam (c : Cartridge τ) : c.commitRam.controller = c.controller := by
  unfold commitRam uncommitted
  split <;> rename_i h <;> split at h <;> cases h <;> rfl

theorem written_commitRam (c : Cartridge τ) (host : Host τ) (controller : Controller τ) :
    c.Written host (commitRam { c with controller }) host := by
  unfold commitRam uncommitted
  dsimp only
  split
  -- there is a snapshot if the memory has a battery and is modified
  · rename_i hsnapshot
    split at hsnapshot
    · rename_i hchanged
      simp only [Bool.and_eq_true] at hchanged
      cases hsnapshot
      exact ⟨rfl, rfl, rfl, .committed hchanged.2, .inl rfl⟩
    · cases hsnapshot
  · rename_i hnothing
    split at hnothing
    · cases hnothing
    · cases hnothing
      exact written_controller c host controller

theorem written_switch (c : Cartridge τ) (host : Host τ) (controller : Controller τ)
    (off : Bool) :
    c.Written host
      (if off then commitRam { c with controller } else { c with controller }) host := by
  split
  · exact written_commitRam c host controller
  · exact written_controller c host controller

variable [Timeline τ]

theorem written_saveClock (c : Cartridge τ) (host : Host τ) (controller : Controller τ)
    (always : Bool) :
    c.Written host (saveClock { c with controller } host always).1
      (saveClock { c with controller } host always).2 := by
  have hsaved := clockSaved_saveClock { c with controller } host always
  obtain ⟨controller', hcartridge⟩ := hsaved.cartridge
  refine ⟨?_, ?_, ?_, ?_, hsaved.host⟩ <;> rw [hcartridge]
  exact .same

theorem written_writeRegister (c : Cartridge τ) (host : Host τ) (addr : UInt16) (val : UInt8) :
    c.Written host (c.writeRegister host.calendar addr val) host := by
  unfold writeRegister
  split
  · exact ⟨rfl, rfl, rfl, .same, .inl rfl⟩
  -- the first area switches external memory, and the others select banks and modes
  all_goals
    split
    · exact written_switch c host _ _
    · split
      · exact written_controller c host _
      · split
        · exact written_controller c host _
        · exact written_controller c host _

theorem written_writeExternal (c : Cartridge τ) (host : Host τ) (offset : Nat) (val : UInt8) :
    c.Written host (c.writeExternal host offset val).1 (c.writeExternal host offset val).2 := by
  have hsame : c.Written host c host := written_controller c host c.controller
  -- only an MBC3 has a clock in the way of the memory
  unfold writeExternal
  split
  · exact written_ram c host _ val
  · split
    · exact written_ram c host _ val
    · exact hsame
  · split
    · exact hsame
    · split
      · exact written_ram c host _ val
      · exact written_saveClock c host _ false
      · exact hsame

/-- A write keeps the cartridge's image and save paths, does to external memory only what
`RamWritten` lists, and saves nothing but the clock. -/
theorem written_write (c : Cartridge τ) (host : Host τ) (addr : UInt16) (val : UInt8) :
    c.Written host (c.write host addr val).1 (c.write host addr val).2 := by
  unfold write
  split
  · exact written_writeRegister c host addr val
  · split
    · exact written_writeExternal c host _ val
    · exact written_controller c host c.controller

end Cartridge

end DotMatrix
