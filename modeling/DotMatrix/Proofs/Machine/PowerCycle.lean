import DotMatrix.Proofs.Cartridge.Loading
import DotMatrix.Proofs.Machine.Run

/-!
# External memory survives a power cycle

The newest contents of external memory are in one of four places: in the memory itself if it is
marked as modified, else in the snapshot that waits to be committed, else in the snapshot that
waits to be saved, else in the save file. `Safe` says so, every operation keeps it, and after a
flush only the save file is left (`ram_powerCycle`).
-/

namespace DotMatrix

open ExternalRam (reloaded)

variable {τ : Type}

/-- What does not change while a cartridge is in use: where its image is and what it holds, where
its saves go, and how large its external memory is. -/
structure Installation where
  path : String
  folder : Option String
  image : Option ByteArray
  size : Nat

namespace Installation

def paths (i : Installation) : SavePaths := Cartridge.savePaths i.folder i.path

/-- The paths that are loaded from. -/
def reads (i : Installation) : List String := [i.path, i.paths.ram, i.paths.clock]

/-- The paths that are saved to. -/
def saves (i : Installation) : List String := [i.paths.ram, i.paths.clock]

end Installation

/-! ## The invariant -/

/-- The newest contents of external memory outside the memory itself. -/
def newestSnapshot (i : Installation) (c : Cartridge τ) (host : Host τ)
    (saving : Option ExternalRam) : Array UInt8 :=
  match c.commit, saving with
  | some snapshot, _ => snapshot.bytes
  | none, some snapshot => snapshot.bytes
  | none, none => reloaded i.size (host.storage.contents i.paths.ram)

theorem newestSnapshot_of_commit {i : Installation} {c : Cartridge τ} {snapshot : ExternalRam}
    (h : c.commit = some snapshot) (host : Host τ) (saving : Option ExternalRam) :
    newestSnapshot i c host saving = snapshot.bytes := by
  unfold newestSnapshot
  rw [h]

theorem newestSnapshot_of_saving {i : Installation} {c : Cartridge τ} (h : c.commit = none)
    (host : Host τ) (snapshot : ExternalRam) :
    newestSnapshot i c host (some snapshot) = snapshot.bytes := by
  unfold newestSnapshot
  rw [h]

theorem newestSnapshot_of_file {i : Installation} {c : Cartridge τ} (h : c.commit = none)
    (host : Host τ) :
    newestSnapshot i c host none = reloaded i.size (host.storage.contents i.paths.ram) := by
  unfold newestSnapshot
  rw [h]

/-- The cartridge is installed on a storage that accepts everything, and unless its memory is
marked as modified the newest snapshot has its contents. -/
structure Safe (i : Installation) (c : Cartridge τ) (host : Host τ)
    (saving : Option ExternalRam) : Prop where
  paths : c.paths = some i.paths
  battery : c.capability.hasBattery = true
  size : c.ram.bytes.size = i.size
  folder : host.saveFolder = i.folder
  storage : host.storage.Accepts i.reads i.saves
  image : host.storage.contents i.path = i.image
  pending : ∀ snapshot, saving = some snapshot → snapshot.savePending = true
  newest : c.ram.modified = false → newestSnapshot i c host saving = c.ram.bytes

namespace Safe

variable {i : Installation} {c : Cartridge τ} {host : Host τ} {saving : Option ExternalRam}

theorem paths_ne (h : Safe i c host saving) :
    i.path ≠ i.paths.ram ∧ i.path ≠ i.paths.clock ∧ i.paths.ram ≠ i.paths.clock := by
  have hnodup : i.reads.Nodup := h.storage.distinct.of_map
  unfold Installation.reads at hnodup
  simp only [List.nodup_cons, List.mem_cons, List.not_mem_nil, or_false, not_or] at hnodup
  exact ⟨hnodup.1.1, hnodup.1.2, hnodup.2.1⟩

theorem of_storage (h : Safe i c host saving) {host' : Host τ}
    (hfolder : host'.saveFolder = host.saveFolder) (hstorage : host'.storage = host.storage) :
    Safe i c host' saving := by
  refine ⟨h.paths, h.battery, h.size, hfolder.trans h.folder, ?_, ?_, h.pending, ?_⟩
  · rw [hstorage]
    exact h.storage
  · rw [hstorage]
    exact h.image
  · unfold newestSnapshot
    rw [hstorage]
    exact h.newest

theorem saveClock (h : Safe i c host saving) (bytes : ByteArray) :
    Safe i c (host.save "RTC" i.paths.clock bytes).2 saving := by
  obtain ⟨log, hsave⟩ := host.save_snd "RTC" i.paths.clock bytes
  obtain ⟨-, himage, hram⟩ := h.paths_ne
  have hmem : i.paths.clock ∈ i.saves := by simp [Installation.saves]
  -- neither the image nor the file of external memory is the clock's file
  have hcontents : ∀ path ∈ i.reads, path ≠ i.paths.clock →
      (host.storage.save i.paths.clock bytes).2.contents path = host.storage.contents path := by
    intro path hpath hne
    rw [h.storage.contents_save hmem hpath, if_neg hne]
  rw [hsave]
  refine ⟨h.paths, h.battery, h.size, h.folder, h.storage.save hmem bytes, ?_, h.pending, ?_⟩
  · exact (hcontents _ (by simp [Installation.reads]) himage).trans h.image
  · unfold newestSnapshot
    rw [hcontents _ (by simp [Installation.reads]) hram]
    exact h.newest

/-- What a write can do to external memory keeps its newest contents. -/
theorem ramWritten (h : Safe i c host saving) {ram : ExternalRam} {commit : Option ExternalRam}
    (hwritten : c.RamWritten ram commit) {c' : Cartridge τ} (hram : c'.ram = ram)
    (hcommit : c'.commit = commit) (hpaths : c'.paths = c.paths)
    (hcapability : c'.capability = c.capability) : Safe i c' host saving := by
  have hbattery : c'.capability.hasBattery = true := by
    rw [hcapability]
    exact h.battery
  have hsize : c'.ram.bytes.size = c.ram.bytes.size := by
    rw [hram]
    exact hwritten.size_eq
  have hnewest : c'.ram.modified = false → newestSnapshot i c' host saving = c'.ram.bytes := by
    rw [hram]
    unfold newestSnapshot
    rw [hcommit]
    cases hwritten with
    | same => exact h.newest
    | modified ram _ hmodified =>
      -- the newest contents have moved into the memory itself
      intro hunmodified
      rw [hmodified] at hunmodified
      cases hunmodified
    -- and from there into the snapshot
    | committed hmodified => exact fun _ => rfl
  exact ⟨hpaths.trans h.paths, hbattery, hsize.trans h.size, h.folder, h.storage, h.image,
    h.pending, hnewest⟩

theorem written (h : Safe i c host saving) {c' : Cartridge τ} {host' : Host τ}
    (hwritten : c.Written host c' host') : Safe i c' host' saving := by
  have hcartridge := h.ramWritten hwritten.ram rfl rfl hwritten.paths hwritten.capability
  rcases hwritten.host with rfl | ⟨paths, bytes, hpaths, rfl⟩
  · exact hcartridge
  · obtain rfl := Option.some.inj (hpaths.symm.trans h.paths)
    exact hcartridge.saveClock bytes

end Safe

/-! ## Writes and steps -/

namespace Bus

/-- The cartridge on a bus and its host. -/
def SafeOn (i : Installation) (saving : Option ExternalRam) (b : Bus τ) : Prop :=
  Safe i b.cartridge b.host saving

variable [Timeline τ]

/-- A write reaches the cartridge or leaves it and its host alone. -/
theorem write_cartridge (b : Bus τ) (addr : UInt16) (val : UInt8) :
    ((b.write addr val).cartridge = b.cartridge ∧ (b.write addr val).host = b.host) ∨
      ((b.write addr val).cartridge = (b.cartridge.write b.host addr val).1 ∧
        (b.write addr val).host = (b.cartridge.write b.host addr val).2) := by
  have hwritten := b.written_write addr val
  generalize b.write addr val = b' at *
  cases hwritten with
  | cartridge => exact .inr ⟨rfl, rfl⟩
  | _ => exact .inl ⟨rfl, rfl⟩

variable {i : Installation} {saving : Option ExternalRam}

theorem SafeOn.write {b : Bus τ} (h : b.SafeOn i saving) (addr : UInt16) (val : UInt8) :
    (b.write addr val).SafeOn i saving := by
  unfold SafeOn at *
  rcases b.write_cartridge addr val with ⟨hcartridge, hhost⟩ | ⟨hcartridge, hhost⟩
  · rw [hcartridge, hhost]
    exact h
  · rw [hcartridge, hhost]
    exact h.written (b.cartridge.written_write b.host addr val)

theorem SafeOn.becomes {b b' : Bus τ} (hb : b.Becomes b') (h : b.SafeOn i saving) :
    b'.SafeOn i saving :=
  hb.invariant (fun _ addr val h => h.write addr val) (fun _ h => h) (fun _ _ h => h) h

omit [Timeline τ] in
theorem SafeOn.runDma {b : Bus τ} (h : b.SafeOn i saving) : b.runDma.2.SafeOn i saving := by
  rw [runDma_snd]
  exact h

omit [Timeline τ] in
theorem SafeOn.advance {b : Bus τ} (h : b.SafeOn i saving) (cycles : Nat) :
    (b.advance cycles).2.SafeOn i saving := h

end Bus

namespace Machine

variable {i : Installation}

def SafeIn (m : Machine τ) (i : Installation) : Prop := m.bus.SafeOn i m.saving

theorem SafeIn.step [Timeline τ] {m : Machine τ} (h : m.SafeIn i) : m.step.2.SafeIn i := by
  unfold SafeIn
  rw [saving_step]
  exact step_invariant (fun _ hb => hb.runDma) (fun _ _ hb h => h.becomes hb)
    (fun _ cycles hb => hb.advance cycles) h

/-! ## Snapshots on their way -/

theorem SafeIn.collectCommit {m : Machine τ} (h : m.SafeIn i) : m.collectCommit.SafeIn i := by
  unfold Machine.collectCommit
  split
  · rename_i snapshot cartridge htaken
    obtain ⟨hcommit, rfl⟩ := Prod.mk.inj htaken
    refine ⟨h.paths, h.battery, h.size, h.folder, h.storage, h.image, ?_, fun hunmodified => ?_⟩
    · rintro _ ⟨⟩
      rfl
    · -- the snapshot that waited to be committed replaces the one that waited to be saved
      exact (newestSnapshot_of_commit hcommit _ _).symm.trans (h.newest hunmodified)
  · exact h

theorem commit_collectCommit (m : Machine τ) : m.collectCommit.bus.cartridge.commit = none := by
  unfold Machine.collectCommit
  split
  · rename_i htaken
    obtain ⟨-, rfl⟩ := Prod.mk.inj htaken
    rfl
  · rename_i htaken
    exact (Prod.mk.inj htaken).1

/-- When everything has been picked up, nothing new is left in the memory itself. -/
theorem SafeIn.collectAll {m : Machine τ} (h : m.SafeIn i) :
    m.collectAll.SafeIn i ∧ m.collectAll.bus.cartridge.commit = none ∧
      m.collectAll.bus.cartridge.ram.modified = false := by
  have hcollected := h.collectCommit
  have hcommit := m.commit_collectCommit
  unfold Machine.collectAll
  dsimp only
  split
  · rename_i snapshot cartridge huncommitted
    unfold Cartridge.uncommitted at huncommitted
    split at huncommitted
    · obtain ⟨hsnapshot, rfl⟩ := Prod.mk.inj huncommitted
      obtain rfl := Option.some.inj hsnapshot
      refine ⟨⟨hcollected.paths, hcollected.battery, hcollected.size, hcollected.folder,
        hcollected.storage, hcollected.image, ?_, fun _ => ?_⟩, hcommit, rfl⟩
      · rintro _ ⟨⟩
        rfl
      · exact newestSnapshot_of_saving hcommit _ _
    · cases huncommitted
  · rename_i hnothing
    -- a battery keeps the memory, so nothing was picked up because nothing is modified
    refine ⟨hcollected, hcommit, ?_⟩
    cases hmodified : m.collectCommit.bus.cartridge.ram.modified with
    | false => rfl
    | true =>
      unfold Cartridge.uncommitted at hnothing
      rw [hmodified, hcollected.battery] at hnothing
      cases hnothing

def attemptSave (m : Machine τ) (force : Bool) : Machine τ :=
  match m.bus.cartridge.paths, m.saving with
  | none, _ => { m with saving := none }
  | some _, none => m
  | some paths, some ram =>
    let (_, ram, host) := ram.trySave m.bus.host paths.ram force
    { m with
      bus := { m.bus with host }
      saving := if ram.savePending then some ram else none }

theorem trySaveRam_snd (m : Machine τ) (force : Bool) :
    (m.trySaveRam force).2 = attemptSave (if force then m.collectAll else m) force := by
  unfold Machine.trySaveRam attemptSave
  dsimp only
  generalize (if force then m.collectAll else m) = m'
  cases m'.bus.cartridge.paths <;> cases m'.saving <;> rfl

theorem cartridge_attemptSave (m : Machine τ) (force : Bool) :
    (m.attemptSave force).bus.cartridge = m.bus.cartridge := by
  unfold attemptSave
  cases m.bus.cartridge.paths <;> cases m.saving <;> rfl

theorem due_of_pending {snapshot : ExternalRam} (h : snapshot.savePending = true) (uptime : Nat) :
    snapshot.due uptime true = true := by
  unfold ExternalRam.savePending at h
  obtain ⟨requested, hrequested⟩ := Option.isSome_iff_exists.1 h
  unfold ExternalRam.due
  rw [hrequested]
  rfl

/-- Saving a snapshot of the newest contents puts them into the save file. -/
theorem SafeIn.save {m : Machine τ} (h : m.SafeIn i) {snapshot : ExternalRam}
    (hsaving : m.saving = some snapshot) :
    Safe i m.bus.cartridge
      (m.bus.host.save "cartridge RAM" i.paths.ram ⟨snapshot.bytes⟩).2 none := by
  obtain ⟨log, hsave⟩ := m.bus.host.save_snd "cartridge RAM" i.paths.ram ⟨snapshot.bytes⟩
  have hmem : i.paths.ram ∈ i.saves := by simp [Installation.saves]
  have hcontents : ∀ path ∈ i.reads, (m.bus.host.storage.save i.paths.ram
      ⟨snapshot.bytes⟩).2.contents path =
        if path = i.paths.ram then some ⟨snapshot.bytes⟩ else m.bus.host.storage.contents path :=
    fun path hpath => h.storage.contents_save hmem hpath _
  rw [hsave]
  refine ⟨h.paths, h.battery, h.size, h.folder, h.storage.save hmem _, ?_, ?_, ?_⟩
  · refine (hcontents _ (by simp [Installation.reads])).trans ?_
    rw [if_neg h.paths_ne.1]
    exact h.image
  · intro _ hnone
    cases hnone
  · intro hunmodified
    have hnewest := h.newest hunmodified
    -- a snapshot that waits to be committed is newer than the one that was saved
    cases hcommit : m.bus.cartridge.commit with
    | some committed =>
      rw [newestSnapshot_of_commit hcommit] at hnewest ⊢
      exact hnewest
    | none =>
      rw [hsaving, newestSnapshot_of_saving hcommit] at hnewest
      rw [newestSnapshot_of_file hcommit, hcontents _ (by simp [Installation.reads]), if_pos rfl,
        hnewest, ← h.size]
      exact ExternalRam.reloaded_save _

theorem SafeIn.attemptSave {m : Machine τ} (h : m.SafeIn i) (force : Bool) :
    (m.attemptSave force).SafeIn i ∧ (force = true → (m.attemptSave force).saving = none) := by
  unfold Machine.attemptSave
  rw [show m.bus.cartridge.paths = some i.paths from h.paths]
  cases hsaving : m.saving with
  | none => exact ⟨h, fun _ => hsaving⟩
  | some snapshot =>
    have hpending := h.pending snapshot hsaving
    have hsame : m.bus.SafeOn i (some snapshot) := hsaving ▸ h
    dsimp only
    unfold ExternalRam.trySave
    cases hdue : snapshot.due m.bus.host.uptime force with
    -- it goes on to wait, which a forced save does not allow
    | false =>
      simp only [Bool.false_eq_true, if_false, if_pos hpending]
      refine ⟨hsame, ?_⟩
      rintro rfl
      rw [due_of_pending hpending] at hdue
      cases hdue
    | true =>
      simp only [if_true]
      exact ⟨h.save hsaving, fun _ => rfl⟩

theorem SafeIn.trySaveRam {m : Machine τ} (h : m.SafeIn i) (force : Bool) :
    (m.trySaveRam force).2.SafeIn i := by
  rw [trySaveRam_snd]
  split
  · exact (h.collectAll.1.attemptSave force).1
  · exact (h.attemptSave force).1

/-- A forced save leaves nothing new anywhere but in the save file. -/
theorem SafeIn.forceSave {m : Machine τ} (h : m.SafeIn i) :
    (m.trySaveRam true).2.SafeIn i ∧ (m.trySaveRam true).2.saving = none ∧
      (m.trySaveRam true).2.bus.cartridge.commit = none ∧
      (m.trySaveRam true).2.bus.cartridge.ram.modified = false := by
  obtain ⟨hcollected, hcommit, hunmodified⟩ := h.collectAll
  obtain ⟨hsafe, hsaved⟩ := hcollected.attemptSave true
  have hforced : (m.trySaveRam true).2 = m.collectAll.attemptSave true := m.trySaveRam_snd true
  rw [hforced, cartridge_attemptSave]
  exact ⟨hsafe, hsaved rfl, hcommit, hunmodified⟩

/-- After a flush the save file has the contents of external memory. -/
theorem SafeIn.flush [Timeline τ] {m : Machine τ} (h : m.SafeIn i) :
    m.flush.SafeIn i ∧
      reloaded i.size (m.flush.bus.host.storage.contents i.paths.ram) =
        m.bus.cartridge.ram.bytes := by
  obtain ⟨hsafe, hsaving, hcommit, hunmodified⟩ := h.forceSave
  -- the clock is saved last, and that changes the controller and the clock's file only
  have hflushed : m.flush.SafeIn i :=
    Safe.written hsafe (Cartridge.written_saveClock _ _
      (m.trySaveRam true).2.bus.cartridge.controller true)
  obtain ⟨controller, hclock⟩ := (Cartridge.clockSaved_saveClock
    (m.trySaveRam true).2.bus.cartridge (m.trySaveRam true).2.bus.host true).cartridge
  have hcartridge : m.flush.bus.cartridge =
      { (m.trySaveRam true).2.bus.cartridge with controller } := hclock
  have hnewest := hflushed.newest (by rw [hcartridge]; exact hunmodified)
  rw [show m.flush.saving = none from hsaving,
    newestSnapshot_of_file (by rw [hcartridge]; exact hcommit)] at hnewest
  exact ⟨hflushed, hnewest.trans (meanwhile_flush m).bus.cartridge.contents⟩

/-! ## Sequences of operations -/

/-- What can happen to a machine that is in use. -/
inductive Operation (τ : Type) where
  | write (addr : UInt16) (val : UInt8)
  | step
  | runFrame
  | runCycles (cycles : Nat)
  /-- Save what is due. -/
  | trySaveRam
  | press (buttons : Buttons)
  /-- The host's clocks go on, or are set. -/
  | setTime (calendar : τ) (uptime : Nat)

variable [Timeline τ]

def perform (m : Machine τ) : Operation τ → Machine τ
  | .write addr val => { m with bus := m.bus.write addr val }
  | .step => m.step.2
  | .runFrame => m.runFrame.2
  | .runCycles cycles => (m.runCycles cycles).2
  | .trySaveRam => (m.trySaveRam false).2
  | .press buttons =>
    { m with bus := { m.bus with joypad :=
      { m.bus.joypad with panel := m.bus.joypad.panel.publish buttons } } }
  | .setTime calendar uptime =>
    { m with bus := { m.bus with host := { m.bus.host with calendar, uptime } } }

/-- Operations one after another. -/
def performAll (m : Machine τ) (operations : List (Operation τ)) : Machine τ :=
  operations.foldl perform m

theorem SafeIn.perform {m : Machine τ} (h : m.SafeIn i) (operation : Operation τ) :
    (m.perform operation).SafeIn i := by
  cases operation with
  | write addr val => exact Bus.SafeOn.write h addr val
  | step => exact h.step
  | runFrame =>
    exact runFrame_invariant (P := (·.SafeIn i)) (fun _ h => h.step) (fun _ h => h.collectCommit) h
  | runCycles cycles =>
    exact runCycles_invariant (P := (·.SafeIn i)) (fun _ h => h.step) (fun _ h => h.collectCommit) h
      cycles
  | trySaveRam => exact h.trySaveRam false
  | press buttons => exact h
  | setTime calendar uptime => exact Safe.of_storage h rfl rfl

theorem SafeIn.performAll {m : Machine τ} (h : m.SafeIn i) (operations : List (Operation τ)) :
    (m.performAll operations).SafeIn i := by
  -- the invariant goes through the operations in order
  induction operations generalizing m with
  | nil => exact h
  | cons operation rest ih => exact ih (h.perform operation)

end Machine

/-! ## Loading and loading again -/

section PowerCycle

variable [Timeline τ]

def Installation.ofHost (host : Host τ) (path : String) (size : Nat) : Installation :=
  ⟨path, host.saveFolder, host.storage.contents path, size⟩

/-- A fresh cartridge has its external memory restored from the save file. -/
theorem bytes_restore {host : Host τ} {path : String} {fresh : Cartridge τ} {size : Nat}
    (hfresh : fresh.ram = .create size) (hbattery : fresh.capability.hasBattery = true)
    (hstorage : host.storage.Accepts (Installation.ofHost host path size).reads
      (Installation.ofHost host path size).saves) :
    (fresh.restore host path).1.ram.bytes =
        reloaded size (host.storage.contents (Cartridge.savePaths host.saveFolder path).ram) ∧
      (fresh.restore host path).1.ram.modified = false := by
  rw [(fresh.restored_restore host path).ram]
  refine Cartridge.ram_restoreRam hfresh hbattery (hstorage.load ?_ size)
  simp [Installation.reads, Installation.paths, Installation.ofHost]

/-- A cartridge that was loaded on a storage that accepts everything is installed, and its memory
is as its save file has it. -/
theorem safe_ofFile {host host' : Host τ} {path : String} {c : Cartridge τ}
    (hload : Cartridge.ofFile host path = (.ok c, host'))
    (hbattery : c.capability.hasBattery = true)
    (hstorage : host.storage.Accepts (Installation.ofHost host path c.capability.ramSize).reads
      (Installation.ofHost host path c.capability.ramSize).saves) :
    Safe (.ofHost host path c.capability.ramSize) c host' none := by
  obtain ⟨image, fresh, -, hbytes, rfl, log, rfl⟩ := Cartridge.ofFile_ok hload
  obtain ⟨-, hfresh, hcommit, -⟩ := Cartridge.ofBytes_ok hbytes
  have hrestored := fresh.restored_restore host path
  rw [hrestored.capability] at *
  obtain ⟨hram, hunmodified⟩ := bytes_restore hfresh hbattery hstorage
  have hcommit' := hrestored.commit.trans hcommit
  have hhost : Safe (.ofHost host path fresh.capability.ramSize) (fresh.restore host path).1 host
      none := by
    refine ⟨hrestored.paths, ?_, ?_, rfl, hstorage, rfl, ?_, fun _ => ?_⟩
    · rw [hrestored.capability]
      exact hbattery
    · rw [hram]
      exact ExternalRam.size_reloaded _ _
    · intro _ hnone
      cases hnone
    · rw [newestSnapshot_of_file hcommit', hram]
      rfl
  -- restoring the clock may have saved it
  rcases hrestored.storage with hsame | ⟨bytes, hsave⟩
  · exact hhost.of_storage hrestored.folder hsame
  · exact (hhost.saveClock bytes).of_storage
      (hrestored.folder.trans (host.saveFolder_save _ _ _).symm)
      (hsave.trans (host.storage_save _ _ _).symm)

/-- A cartridge that is installed can be loaded again, and then has what the save file has. -/
theorem Safe.ofFile {i : Installation} {c : Cartridge τ} {host : Host τ}
    {saving : Option ExternalRam} (h : Safe i c host saving) {image : ByteArray}
    {fresh : Cartridge τ} {now : τ}
    (himage : i.image.map (·.extract 0 Cartridge.maxImageSize) = some image)
    (hbytes : Cartridge.ofBytes now image = .ok fresh)
    (hbattery : fresh.capability.hasBattery = true) (hsize : fresh.capability.ramSize = i.size) :
    ∃ c' host', Cartridge.ofFile host i.path = (.ok c', host') ∧
      c'.ram.bytes = reloaded i.size (host.storage.contents i.paths.ram) := by
  obtain ⟨-, -, -, hlater⟩ := Cartridge.ofBytes_ok hbytes
  obtain ⟨again, hagain, hcapability⟩ := hlater host.calendar
  obtain ⟨-, hram, -, -⟩ := Cartridge.ofBytes_ok hagain
  have hload : host.storage.load i.path Cartridge.maxImageSize = .ok (some image) := by
    rw [h.storage.load (by simp [Installation.reads]), h.image, himage]
  obtain ⟨host', hfile⟩ := Cartridge.ofFile_of_load hload hagain
  refine ⟨_, host', hfile, ?_⟩
  rw [hcapability, hsize] at hram
  have hpaths : Cartridge.savePaths host.saveFolder i.path = i.paths := by
    rw [h.folder]
    rfl
  have hstorage : host.storage.Accepts (Installation.ofHost host i.path i.size).reads
      (Installation.ofHost host i.path i.size).saves := by
    unfold Installation.reads Installation.saves Installation.paths Installation.ofHost
    dsimp only
    rw [hpaths]
    exact h.storage
  have hrestored := (bytes_restore hram (by rw [hcapability]; exact hbattery) hstorage).1
  rw [hpaths] at hrestored
  exact hrestored

/-- External memory that a battery keeps survives a power cycle: whatever is done with a machine,
when it is flushed and its cartridge is loaded again, external memory is as it was. -/
theorem ram_powerCycle {host host' : Host τ} {path : String} {c : Cartridge τ}
    (hload : Cartridge.ofFile host path = (.ok c, host'))
    (hbattery : c.capability.hasBattery = true)
    (hstorage : host.storage.Accepts
      [path, host.saveLocation path .ram, host.saveLocation path .clock]
      [host.saveLocation path .ram, host.saveLocation path .clock])
    (boot : Option BootImage) (operations : List (Machine.Operation τ)) (calendar : τ)
    (uptime : Nat) :
    let m := (Machine.create c host' boot).performAll operations
    ∃ c' host'', Cartridge.ofFile { m.flush.bus.host with calendar, uptime } path =
        (.ok c', host'') ∧ c'.ram.bytes = m.bus.cartridge.ram.bytes := by
  intro m
  have hsafe := safe_ofFile hload hbattery hstorage
  have hcreate : (Machine.create c host' boot).SafeIn (.ofHost host path c.capability.ramSize) := by
    cases boot with
    | none => exact hsafe
    | some image => exact hsafe
  obtain ⟨hflushed, hfile⟩ := (hcreate.performAll operations).flush
  have hlater : Safe (.ofHost host path c.capability.ramSize) m.flush.bus.cartridge
      { m.flush.bus.host with calendar, uptime } m.flush.saving :=
    Safe.of_storage hflushed rfl rfl
  -- the same image is loaded again, and makes the same cartridge but for the time
  obtain ⟨image, fresh, himage, hbytes, rfl, -⟩ := Cartridge.ofFile_ok hload
  have hcapability := (fresh.restored_restore host path).capability
  rw [hstorage.load (by simp)] at himage
  obtain ⟨c', host'', hagain, hram⟩ := hlater.ofFile (Except.ok.inj himage) hbytes
    (hcapability ▸ hbattery) (congrArg Capability.ramSize hcapability.symm)
  exact ⟨c', host'', hagain, hram.trans hfile⟩

end PowerCycle

/-- The cartridge with the image survives power cycles. -/
theorem ram_powerCycle_batteryImage :
    ∃ c host', Cartridge.ofFile (imageHost batteryImage) "game.gb" = (.ok c, host') ∧
      c.capability.ramSize = 0x2000 ∧
      ∀ (boot : Option BootImage) (operations : List (Machine.Operation Float)),
        let m := (Machine.create c host' boot).performAll operations
        ∃ c' host'', Cartridge.ofFile m.flush.bus.host "game.gb" = (.ok c', host'') ∧
          c'.ram.bytes = m.bus.cartridge.ram.bytes := by
  obtain ⟨fresh, hbytes, hcapability⟩ := Cartridge.ofBytes_of_header (0 : Float)
    ofHeader_batteryImage rfl (Nat.le_of_eq size_batteryImage.symm)
  have hload := load_imageHost (show batteryImage.size ≤ Cartridge.maxImageSize by
    rw [size_batteryImage]; decide)
  obtain ⟨host', hfile⟩ := Cartridge.ofFile_of_load hload hbytes
  have hrestored :=
    (fresh.restored_restore (imageHost batteryImage) "game.gb").capability.trans hcapability
  refine ⟨_, host', hfile, by rw [hrestored], fun boot operations => ?_⟩
  have hsaves : (imageHost batteryImage).saveLocation "game.gb" .ram = "game.sav" ∧
      (imageHost batteryImage).saveLocation "game.gb" .clock = "game.rtc" := by decide +kernel
  have hstorage : (imageHost batteryImage).storage.Accepts ["game.gb", "game.sav", "game.rtc"]
      ["game.sav", "game.rtc"] :=
    Storage.accepts_table rfl (by simp) (by decide) (by simp) (by simp)
  rw [← hsaves.1, ← hsaves.2] at hstorage
  exact ram_powerCycle hfile (by rw [hrestored]) hstorage boot operations
    ((Machine.create (fresh.restore (imageHost batteryImage) "game.gb").1 host' boot).performAll
      operations).flush.bus.host.calendar
    ((Machine.create (fresh.restore (imageHost batteryImage) "game.gb").1 host' boot).performAll
      operations).flush.bus.host.uptime

end DotMatrix
