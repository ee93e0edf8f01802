import DotMatrix.Proofs.Cartridge.ClockFile
import DotMatrix.Proofs.Machine.RefusedSave

/-!
# What a machine saves

A cartridge has two files at the most: external memory is saved if a battery keeps some, and the
clock if there is one (`Cartridge.Saves`). Whatever is done with the machine, from the loading of
its cartridge on, saves to these files are all that happens to the storage. So it keeps what such
saves keep (`saving_ofFile`).
-/

namespace DotMatrix

variable {τ : Type}

def SavePaths.path (paths : SavePaths) : SaveKind → String
  | .ram => paths.ram
  | .clock => paths.clock

namespace Cartridge

/-- There is something that the cartridge saves in a file of this kind. -/
def Saves (c : Cartridge τ) : SaveKind → Prop
  | .ram => c.capability.hasBattery = true ∧ c.ram.bytes.size ≠ 0
  | .clock => c.clock?.isSome = true

theorem path_savePaths (folder : Option String) (image : String) (kind : SaveKind) :
    (savePaths folder image).path kind = saveLocation folder image kind := by
  cases kind <;> rfl

/-! ## Cartridges without a clock -/

theorem saveClock_of_no_clock [Timeline τ] {c : Cartridge τ} (h : c.clock? = none) (host : Host τ)
    (always : Bool) : c.saveClock host always = (c, host) := by
  unfold saveClock
  split
  · rename_i m paths hcontroller hpaths
    rw [clock?_of_mbc3 hcontroller] at h
    rw [h]
  · rfl

theorem snd_write_of_no_clock [Timeline τ] {c : Cartridge τ} (h : c.clock? = none) (host : Host τ)
    (addr : UInt16) (val : UInt8) : (c.write host addr val).2 = host := by
  unfold write
  split
  · rfl
  · split
    · unfold writeExternal
      split
      · rfl
      · split <;> rfl
      · rename_i m hcontroller
        rw [clock?_of_mbc3 hcontroller] at h
        rw [h]
        split
        · rfl
        · split
          · rfl
          · rename_i hsome
            cases hsome
          · rfl
    · rfl

/-! ## The files of a cartridge -/

/-- The cartridge saves files of these kinds alone, at its paths: of the other kinds there is
nothing to be saved, and there will not be. -/
structure SavesOnly (c : Cartridge τ) (paths : SavePaths) (kinds : SaveKind → Prop) : Prop where
  paths : c.paths = some paths
  ram : ¬kinds .ram →
    c.unsaved? = none ∧ (c.capability.hasBattery = true → c.ram.bytes.size = 0)
  clock : ¬kinds .clock → c.clock? = none

namespace SavesOnly

variable {c : Cartridge τ} {paths : SavePaths} {kinds : SaveKind → Prop}

/-- Where external memory is saved, its marks and snapshots do not matter. -/
theorem of_ram (h : c.SavesOnly paths kinds) (hram : kinds .ram) (ram : ExternalRam)
    (commit : Option ExternalRam) : { c with ram, commit }.SavesOnly paths kinds :=
  ⟨h.paths, fun hno => absurd hram hno, h.clock⟩

variable [Timeline τ]

theorem write (h : c.SavesOnly paths kinds) (host : Host τ) (addr : UInt16) (val : UInt8) :
    (c.write host addr val).1.SavesOnly paths kinds := by
  have hwritten := c.written_write host addr val
  refine ⟨hwritten.paths.trans h.paths, fun hno => ?_, fun hno => ?_⟩
  · obtain ⟨hunsaved, hempty⟩ := h.ram hno
    have hsize := hwritten.ram.size_eq
    rw [hwritten.capability, hsize]
    refine ⟨unsaved?_write hunsaved host addr val fun hbattery => ?_, hempty⟩
    -- empty memory stays as it is
    rw [hempty hbattery] at hsize
    rw [Array.eq_empty_of_size_eq_zero hsize, Array.eq_empty_of_size_eq_zero (hempty hbattery)]
  · exact (c.advances_write host addr val).eq_none_iff.2 (h.clock hno)

theorem saveClock (h : c.SavesOnly paths kinds) (host : Host τ) (always : Bool) :
    (c.saveClock host always).1.SavesOnly paths kinds := by
  obtain ⟨controller, hcartridge⟩ := (c.clockSaved_saveClock host always).cartridge
  have hclock := c.advances_saveClock host always
  rw [hcartridge] at hclock ⊢
  exact ⟨h.paths, fun hno => ⟨unsaved?_of_ram (h.ram hno).1 rfl rfl rfl, (h.ram hno).2⟩,
    fun hno => hclock.eq_none_iff.2 (h.clock hno)⟩

/-! ## What saves keep -/

section Kept

variable {P : Storage → Prop}
  (hP : ∀ kind, kinds kind → ∀ s bytes, P s → P (s.save (paths.path kind) bytes).2)
include hP

omit [Timeline τ] in
/-- A storage that differs by a save of the clock at most, and not without a clock. -/
theorem keeps_of_clock (h : c.SavesOnly paths kinds) {s s' : Storage}
    (hsaved : s' = s ∨ ∃ bytes, s' = (s.save paths.clock bytes).2)
    (hno : c.clock? = none → s' = s) (hs : P s) : P s' := by
  by_cases hkind : kinds .clock
  · rcases hsaved with rfl | ⟨bytes, rfl⟩
    · exact hs
    · exact hP .clock hkind s bytes hs
  · rw [hno (h.clock hkind)]
    exact hs

omit hP [Timeline τ] in
theorem storage_of_host (h : c.SavesOnly paths kinds) {host host' : Host τ}
    (hsaved : host' = host ∨
      ∃ paths bytes, c.paths = some paths ∧ host' = (host.save "RTC" paths.clock bytes).2) :
    host'.storage = host.storage ∨
      ∃ bytes, host'.storage = (host.storage.save paths.clock bytes).2 := by
  rcases hsaved with rfl | ⟨paths', bytes, hpaths, rfl⟩
  · exact .inl rfl
  · obtain rfl := Option.some.inj (hpaths.symm.trans h.paths)
    exact .inr ⟨bytes, Host.storage_save _ _ _ _⟩

theorem keeps_write (h : c.SavesOnly paths kinds) {host : Host τ} (hhost : P host.storage)
    (addr : UInt16) (val : UInt8) : P (c.write host addr val).2.storage :=
  h.keeps_of_clock hP (h.storage_of_host (c.written_write host addr val).host)
    (fun hnone => by rw [snd_write_of_no_clock hnone]) hhost

theorem keeps_saveClock (h : c.SavesOnly paths kinds) {host : Host τ} (hhost : P host.storage)
    (always : Bool) : P (c.saveClock host always).2.storage :=
  h.keeps_of_clock hP (h.storage_of_host (c.clockSaved_saveClock host always).host)
    (fun hnone => by rw [saveClock_of_no_clock hnone]) hhost

end Kept

end SavesOnly

/-! ## Cartridges that were loaded -/

variable [Timeline τ]

theorem storage_restore_of_no_clock {c : Cartridge τ} {host : Host τ} {path : String}
    (h : (c.restore host path).1.clock? = none) :
    (c.restore host path).2.storage = host.storage := by
  obtain ⟨ram, log, -, hrestore⟩ := c.restore_eq host path
  obtain ⟨controller, log', hclock⟩ := restoreClock_spec { c with ram } { host with log }
    (savePaths host.saveFolder path).clock
  have hsaved : c.restore host path =
      saveClock { c with ram, controller, paths := some (savePaths host.saveFolder path) }
        { host with log := log' } false := by
    rw [hrestore, hclock]
  rw [hsaved] at h ⊢
  rw [saveClock_of_no_clock ((advances_saveClock _ _ false).eq_none_iff.1 h)]

/-- A cartridge that was loaded saves what there is to be saved, and what that keeps the loading
has kept. -/
theorem savesOnly_ofFile {host host' : Host τ} {path : String} {c : Cartridge τ}
    (hload : ofFile host path = (.ok c, host')) :
    c.SavesOnly (savePaths host.saveFolder path) c.Saves ∧
      (host'.storage = host.storage ∨ ∃ bytes, host'.storage =
        (host.storage.save (savePaths host.saveFolder path).clock bytes).2) ∧
      (c.clock? = none → host'.storage = host.storage) := by
  obtain ⟨image, fresh, -, hbytes, rfl, log, rfl⟩ := ofFile_ok hload
  obtain ⟨-, hfresh, hcommit, -⟩ := ofBytes_ok hbytes
  have hrestored := fresh.restored_restore host path
  have hmodified : (fresh.restore host path).1.ram.modified = false := by
    rw [hrestored.ram]
    exact modified_restoreRam (by rw [hfresh]; rfl) host _
  refine ⟨⟨hrestored.paths, fun hno => ⟨?_, fun hbattery => ?_⟩, fun hno => ?_⟩,
    hrestored.storage, storage_restore_of_no_clock⟩
  · refine unsaved?_eq_none_iff.2 ⟨?_, hrestored.commit.trans hcommit⟩
    rw [hmodified, Bool.and_false]
  · by_contra hsize
    exact hno ⟨hbattery, hsize⟩
  · exact Option.not_isSome_iff_eq_none.1 hno

end Cartridge

/-! ## Errands of a machine -/

/-- The cartridge saves some kinds of files alone, and the storage has what saves of these keep. -/
structure Bus.Saving (b : Bus τ) (paths : SavePaths) (kinds : SaveKind → Prop)
    (P : Storage → Prop) : Prop where
  cartridge : b.cartridge.SavesOnly paths kinds
  storage : P b.host.storage

variable {paths : SavePaths} {kinds : SaveKind → Prop} {P : Storage → Prop}

theorem Bus.Saving.write [Timeline τ]
    (hP : ∀ kind, kinds kind → ∀ s bytes, P s → P (s.save (paths.path kind) bytes).2) {b : Bus τ}
    (h : b.Saving paths kinds P) (addr : UInt16) (val : UInt8) :
    (b.write addr val).Saving paths kinds P := by
  rcases b.write_cartridge addr val with ⟨hcartridge, hhost⟩ | ⟨hcartridge, hhost⟩
  · exact ⟨hcartridge ▸ h.cartridge, hhost ▸ h.storage⟩
  · exact ⟨hcartridge ▸ h.cartridge.write b.host addr val,
      hhost ▸ h.cartridge.keeps_write hP h.storage addr val⟩

namespace Machine

/-- What can be done with a machine, its operations and everything that saves. -/
inductive Errand (τ : Type) where
  | operate (operation : Operation τ)
  | collectCommit
  | saveRam (force : Bool)
  | saveClock (always : Bool)
  | flush

structure Saving (m : Machine τ) (paths : SavePaths) (kinds : SaveKind → Prop)
    (P : Storage → Prop) : Prop where
  bus : m.bus.Saving paths kinds P
  saving : ¬kinds .ram → m.saving = none

variable [Timeline τ]

def carryOut (m : Machine τ) : Errand τ → Machine τ
  | .operate operation => m.perform operation
  | .collectCommit => m.collectCommit
  | .saveRam force => (m.trySaveRam force).2
  | .saveClock always =>
    let (cartridge, host) := m.bus.cartridge.saveClock m.bus.host always
    m.withCartridge cartridge host
  | .flush => m.flush

/-- Errands one after another. -/
def carryOutAll (m : Machine τ) (errands : List (Errand τ)) : Machine τ := errands.foldl carryOut m

namespace Saving

variable {m : Machine τ}

omit [Timeline τ] in
theorem collectCommit (h : m.Saving paths kinds P) : m.collectCommit.Saving paths kinds P := by
  by_cases hkind : kinds .ram
  · refine ⟨?_, fun hno => absurd hkind hno⟩
    unfold Machine.collectCommit
    split
    · rename_i htaken
      obtain ⟨-, rfl⟩ := Prod.mk.inj htaken
      exact ⟨h.bus.cartridge.of_ram hkind _ _, h.bus.storage⟩
    · exact h.bus
  · rw [collectCommit_of_unsaved (h.bus.cartridge.ram hkind).1]
    exact h

omit [Timeline τ] in
theorem collectAll (h : m.Saving paths kinds P) : m.collectAll.Saving paths kinds P := by
  by_cases hkind : kinds .ram
  · have hcollected := h.collectCommit
    refine ⟨?_, fun hno => absurd hkind hno⟩
    unfold Machine.collectAll
    dsimp only
    split
    · rename_i huncommitted
      unfold Cartridge.uncommitted at huncommitted
      split at huncommitted
      · obtain ⟨-, rfl⟩ := Prod.mk.inj huncommitted
        exact ⟨hcollected.bus.cartridge.of_ram hkind _ _, hcollected.bus.storage⟩
      · cases huncommitted
    · exact hcollected.bus
  · rw [collectAll_of_unsaved (h.bus.cartridge.ram hkind).1]
    exact h

section Kept

variable (hP : ∀ kind, kinds kind → ∀ s bytes, P s → P (s.save (paths.path kind) bytes).2)
include hP

omit [Timeline τ] in
theorem attemptSave (h : m.Saving paths kinds P) (force : Bool) :
    (m.attemptSave force).Saving paths kinds P := by
  unfold Machine.attemptSave
  rw [h.bus.cartridge.paths]
  cases hsaving : m.saving with
  | none => exact h
  | some snapshot =>
    have hkind : kinds .ram := by
      by_contra hno
      rw [h.saving hno] at hsaving
      cases hsaving
    refine ⟨⟨h.bus.cartridge, ?_⟩, fun hno => absurd hkind hno⟩
    unfold ExternalRam.trySave
    dsimp only
    split
    · rw [Host.storage_save]
      exact hP .ram hkind _ _ h.bus.storage
    · exact h.bus.storage

omit [Timeline τ] in
theorem trySaveRam (h : m.Saving paths kinds P) (force : Bool) :
    (m.trySaveRam force).2.Saving paths kinds P := by
  rw [trySaveRam_snd]
  split
  · exact h.collectAll.attemptSave hP force
  · exact h.attemptSave hP force

theorem saveClock (h : m.Saving paths kinds P) (always : Bool) :
    (m.carryOut (.saveClock always)).Saving paths kinds P :=
  ⟨⟨h.bus.cartridge.saveClock m.bus.host always,
    h.bus.cartridge.keeps_saveClock hP h.bus.storage always⟩, h.saving⟩

theorem step (h : m.Saving paths kinds P) : m.step.2.Saving paths kinds P := by
  refine ⟨?_, fun hno => (saving_step m).trans (h.saving hno)⟩
  refine step_invariant (P := (·.Saving paths kinds P)) ?_ ?_ ?_ h.bus
  · intro b hb
    rw [Bus.runDma_snd]
    exact ⟨hb.cartridge, hb.storage⟩
  · intro b b' hbecomes hb
    exact hbecomes.invariant (P := (·.Saving paths kinds P))
      (fun _ addr val hb => hb.write hP addr val) (fun _ hb => ⟨hb.cartridge, hb.storage⟩)
      (fun _ _ hb => ⟨hb.cartridge, hb.storage⟩) hb
  · exact fun b cycles hb => ⟨hb.cartridge, hb.storage⟩

theorem perform (h : m.Saving paths kinds P) (operation : Operation τ) :
    (m.perform operation).Saving paths kinds P := by
  cases operation with
  | write addr val => exact ⟨h.bus.write hP addr val, h.saving⟩
  | step => exact h.step hP
  | runFrame =>
    exact runFrame_invariant (P := (·.Saving paths kinds P)) (fun _ h => h.step hP)
      (fun _ h => h.collectCommit) h
  | runCycles cycles =>
    exact runCycles_invariant (P := (·.Saving paths kinds P)) (fun _ h => h.step hP)
      (fun _ h => h.collectCommit) h cycles
  | trySaveRam => exact h.trySaveRam hP false
  | press buttons => exact ⟨⟨h.bus.cartridge, h.bus.storage⟩, h.saving⟩
  | setTime calendar uptime => exact ⟨⟨h.bus.cartridge, h.bus.storage⟩, h.saving⟩

theorem carryOut (h : m.Saving paths kinds P) (errand : Errand τ) :
    (m.carryOut errand).Saving paths kinds P := by
  cases errand with
  | operate operation => exact h.perform hP operation
  | collectCommit => exact h.collectCommit
  | saveRam force => exact h.trySaveRam hP force
  | saveClock always => exact h.saveClock hP always
  | flush => exact (h.trySaveRam hP true).saveClock hP true

theorem carryOutAll (h : m.Saving paths kinds P) (errands : List (Errand τ)) :
    (m.carryOutAll errands).Saving paths kinds P := by
  -- errand by errand, in order
  induction errands generalizing m with
  | nil => exact h
  | cons errand rest ih => exact ih (h.carryOut hP errand)

end Kept

end Saving

/-- Whatever is done with a machine whose cartridge was loaded from a file, nothing happens to the
storage but that the files are saved that the cartridge saves. -/
theorem saving_ofFile {host host' : Host τ} {path : String} {c : Cartridge τ}
    (hload : Cartridge.ofFile host path = (.ok c, host'))
    (hP : ∀ kind, c.Saves kind → ∀ s bytes, P s →
      P (s.save (host.saveLocation path kind) bytes).2)
    (hhost : P host.storage) (boot : Option BootImage) (errands : List (Errand τ)) :
    ((create c host' boot).carryOutAll errands).Saving
      (Cartridge.savePaths host.saveFolder path) c.Saves P := by
  obtain ⟨hcartridge, hsaved, hno⟩ := Cartridge.savesOnly_ofFile hload
  have hkept : ∀ kind, c.Saves kind → ∀ s bytes, P s →
      P (s.save ((Cartridge.savePaths host.saveFolder path).path kind) bytes).2 := by
    intro kind hkind s bytes hs
    rw [Cartridge.path_savePaths]
    exact hP kind hkind s bytes hs
  have hstorage : P host'.storage := hcartridge.keeps_of_clock hkept hsaved hno hhost
  have hcreated : (create c host' boot).Saving (Cartridge.savePaths host.saveFolder path)
      c.Saves P := by
    cases boot with
    | none => exact ⟨⟨hcartridge, hstorage⟩, fun _ => rfl⟩
    | some image => exact ⟨⟨hcartridge, hstorage⟩, fun _ => rfl⟩
  exact hcreated.carryOutAll hkept errands

end Machine

end DotMatrix
