import DotMatrix.Proofs.Cartridge.Acceptance
import DotMatrix.Proofs.Machine.Saving
import DotMatrix.Proofs.Storage.Consistent

/-!
# The image and the save files

The save files of an image are written beside it or in the save folder, under its name with another
extension. An image that has the extension of a save file already, in the folder for these, is what
is saved to (`Storage.Overlays`): the contents of external memory or the time take the place of the
program. All other images are safe, whatever is done with the machine (`saves_beside_image`).
-/

namespace DotMatrix

theorem RealTimeClock.size_toBytes (k : RealTimeClock Float) (now : Float) :
    (k.toBytes now).size = fileSize := by
  have hencoded : (Timeline.encode (k.persistedStart now)).length = 8 := rfl
  unfold toBytes
  rw [ByteArray.size, List.size_toArray, List.length_append, hencoded]
  rfl

/-! ## Images that were loaded -/

namespace Cartridge

variable {τ : Type} [Timeline τ]

/-- The image file of a cartridge: it is found at a path that ends in a name, and has a header. -/
structure ImageFile (host : Host τ) (home : Location) (path : String) (file : ByteArray) :
    Prop where
  contents : host.storage.contents path = some file
  find : host.storage.find home path = .ok (host.storage.target path)
  header : headerEnd ≤ file.size
  names : ∃ folder name, Path.Names path.toList folder name

theorem imageFile_ofFile {host host' : Host τ} {home : Location} {path : String} {c : Cartridge τ}
    (hmedium : host.storage.medium = .tree home) (hconsistent : host.storage.Consistent)
    (hload : ofFile host path = (.ok c, host')) : ∃ file, ImageFile host home path file := by
  obtain ⟨image, fresh, hloaded, hbytes, -⟩ := ofFile_ok hload
  obtain ⟨file, hread, rfl⟩ := (Storage.load_eq_some_iff (by decide)).1 hloaded
  obtain ⟨hfind, hcontents⟩ := Storage.read_tree_ok hmedium hread
  obtain ⟨capability, -, hheader, -⟩ := ofBytes_eq_ok_iff.1 hbytes
  have hsize := (Capability.declares_of_ofHeader hheader).size
  rw [ByteArray.size_extract] at hsize
  exact ⟨file, hcontents, hfind, by omega, Storage.names_of_find hconsistent hfind hcontents⟩

/-! ## A write to external memory -/

/-- With external memory switched on and its first bank selected, the window begins with the first
cell. -/
theorem cell?_opened (c : Cartridge τ) (now : τ) :
    ((c.writeRegister now 0x0000 0x0A).writeRegister now 0x4000 0x00).cell? 0xA000 = some 0 := by
  have hon : enablesRam 0x0A = true := by decide
  have hwindow : InWindow 0xA000 := by decide
  unfold cell?
  cases hcontroller : c.controller with
  | fixed => simp [writeRegister, hcontroller, hwindow, ramOn, ramBank?, ramCell, ramRepeats]
  | mbc1 m => simp [writeRegister, hcontroller, hwindow, hon, ramOn, ramBank?, ramCell, ramRepeats]
  | mbc3 m =>
    simp [writeRegister, hcontroller, hwindow, hon, ramOn, ramBank?, ramCell, ramRepeats,
      Mbc3.selection]

/-- Memory that a battery keeps is to be saved once a cell of it has changed. -/
theorem unsaved?_write_cell {c : Cartridge τ} {addr : UInt16} {pos : Nat}
    (hcell : c.cell? addr = some pos) (hbattery : c.capability.hasBattery = true)
    (hpos : pos < c.ram.bytes.size) {val : UInt8} (hne : c.ram.bytes[pos]? ≠ some val)
    (host : Host τ) :
    ∃ bytes, (c.write host addr val).1.unsaved? = some bytes ∧ bytes[pos]? = some val := by
  rw [Array.getElem?_eq_getElem hpos] at hne
  have hram : c.ram.write pos val =
      { c.ram with bytes := c.ram.bytes.set pos val, modified := true } := by
    unfold ExternalRam.write
    rw [dif_pos hpos, if_neg fun heq => hne (congrArg some heq)]
  refine ⟨c.ram.bytes.set pos val, ?_, Array.getElem?_set_self hpos⟩
  rw [write_of_window (cell?_eq_some hcell).1, (shows_of_cell hcell).write]
  unfold unsaved?
  rw [hram, hbattery]
  rfl

end Cartridge

namespace Machine

theorem exists_other_byte (a b : Option UInt8) : ∃ val, a ≠ some val ∧ b ≠ some val := by
  by_contra hall
  have hnone : ∀ val, ¬(a ≠ some val ∧ b ≠ some val) := fun val h => hall ⟨val, h⟩
  have h0 := hnone 0
  have h1 := hnone 1
  have h2 := hnone 2
  grind

section Image

variable {host host' : Host Float} {home : Location} {path : String} {c : Cartridge Float}
  (hmedium : host.storage.medium = .tree home) (hload : Cartridge.ofFile host path = (.ok c, host'))
include hmedium hload

/-- An image that no save file overlays is left alone, whatever is done. -/
theorem image_untouched {folder : List (List Char)} {name : List Char}
    (hnames : Path.Names path.toList folder name)
    (hspared : ∀ kind, c.Saves kind → ¬host.storage.Overlays host.saveFolder path kind)
    (boot : Option BootImage) (errands : List (Errand Float)) :
    host.storage.Untouched ((create c host' boot).carryOutAll errands).bus.host.storage path := by
  refine (saving_ofFile (P := (host.storage.Untouched · path)) hload ?_ (.refl _ _) boot
    errands).bus.storage
  exact fun kind hkind s bytes hs => hs.save hmedium hnames (hspared kind hkind) bytes

/-- The errands of a program that changes the first byte of external memory. -/
def openAndWrite (val : UInt8) : List (Errand Float) :=
  [.operate (.write 0x0000 0x0A), .operate (.write 0x4000 0x00), .operate (.write 0xA000 val)]

omit hmedium hload in
theorem unsaved?_openAndWrite {m : Machine Float}
    (hbattery : m.bus.cartridge.capability.hasBattery = true)
    (hsize : 0 < m.bus.cartridge.ram.bytes.size) {val : UInt8}
    (hne : m.bus.cartridge.ram.bytes[0]? ≠ some val) :
    ∃ bytes, (m.carryOutAll (openAndWrite val)).bus.cartridge.unsaved? = some bytes ∧
      bytes[0]? = some val := by
  have hwritten : (m.carryOutAll (openAndWrite val)).bus.cartridge =
      (((m.bus.cartridge.writeRegister m.bus.host.calendar 0x0000 0x0A).writeRegister
        m.bus.host.calendar 0x4000 0x00).write m.bus.host 0xA000 val).1 := rfl
  have hcell := m.bus.cartridge.cell?_opened m.bus.host.calendar
  have hcapability := ((m.bus.cartridge.writeRegister m.bus.host.calendar 0x0000
    0x0A).written_writeRegister m.bus.host 0x4000 0x00).capability.trans
      (m.bus.cartridge.written_writeRegister m.bus.host 0x0000 0x0A).capability
  have hbytes := ((m.bus.cartridge.writeRegister m.bus.host.calendar 0x0000
    0x0A).bytes_writeRegister m.bus.host.calendar 0x4000 0x00).trans
      (m.bus.cartridge.bytes_writeRegister m.bus.host.calendar 0x0000 0x0A)
  rw [hwritten]
  generalize (m.bus.cartridge.writeRegister m.bus.host.calendar 0x0000 0x0A).writeRegister
    m.bus.host.calendar 0x4000 0x00 = opened at *
  rw [← hbytes] at hsize hne
  exact Cartridge.unsaved?_write_cell hcell (hcapability ▸ hbattery) hsize hne m.bus.host

/-- An image that a save file overlays is lost when that file is saved, and it can be. -/
theorem exists_errands_overwriting {file : ByteArray} {kind : SaveKind}
    (hconsistent : host.storage.Consistent) (himage : Cartridge.ImageFile host home path file)
    (hkind : c.Saves kind)
    (hfind : host.storage.find home (host.saveLocation path kind) = .ok (host.storage.target path))
    (boot : Option BootImage) :
    ∃ errands, ((create c host' boot).carryOutAll errands).bus.host.storage.contents path ≠
      host.storage.contents path := by
  have hkept : ∀ kind, c.Saves kind → ∀ s bytes, host.storage.Retains s path →
      host.storage.Retains (s.save (host.saveLocation path kind) bytes).2 path :=
    fun _ _ _ bytes h => h.save hmedium _ bytes
  have hstart : host.storage.Retains host.storage path :=
    ⟨hconsistent, ⟨rfl, fun _ h => h⟩, file, himage.contents⟩
  have hsaving := saving_ofFile hload hkept hstart boot
  have hcreated : (create c host' boot).bus.cartridge = c := by cases boot <;> rfl
  generalize create c host' boot = m at *
  subst hcreated
  cases kind with
  | ram =>
    obtain ⟨hbattery, hsize⟩ := hkind
    obtain ⟨val, hne, hother⟩ := exists_other_byte m.bus.cartridge.ram.bytes[0]? file.data[0]?
    obtain ⟨bytes, hunsaved, hbyte⟩ :=
      unsaved?_openAndWrite hbattery (Nat.pos_of_ne_zero hsize) hne
    have haccepts := (hsaving (openAndWrite val)).bus.storage.save_found hmedium hfind ⟨bytes⟩
    have hsaved := (forced_save_of_unsaved (hsaving _).bus.cartridge.paths hunsaved haccepts).2
    have hlast : m.carryOutAll (openAndWrite val ++ [.saveRam true]) =
        ((m.carryOutAll (openAndWrite val)).trySaveRam true).2 := List.foldl_append
    rw [← hlast] at hsaved
    refine ⟨openAndWrite val ++ [.saveRam true], fun hsame => hother ?_⟩
    have hcontents := (hsaving (openAndWrite val ++ [.saveRam true])).bus.storage.contents_found
      hmedium hfind
    rw [hsame, himage.contents] at hcontents
    obtain rfl := Option.some.inj (hcontents.symm.trans hsaved)
    exact hbyte
  | clock =>
    obtain ⟨k, hclock⟩ := Option.isSome_iff_exists.1 hkind
    have hbus : m.bus.Saving _ _ _ := (hsaving []).bus
    have haccepts := hbus.storage.save_found hmedium hfind (k.toBytes m.bus.host.calendar)
    have hlocation : (Cartridge.savePaths host.saveFolder path).clock =
        host.saveLocation path .clock := rfl
    have hsaved : (m.carryOutAll [.saveClock true]).bus.host =
        (m.bus.cartridge.saveClock m.bus.host true).2 := rfl
    rw [Cartridge.snd_saveClock_always hclock hbus.cartridge.paths, hlocation] at hsaved
    refine ⟨[.saveClock true], fun hsame => ?_⟩
    rw [himage.contents, hsaved, Host.storage_save,
      ← (hbus.storage.save hmedium _ _).contents_found hmedium hfind,
      Storage.contents_save haccepts, if_pos rfl] at hsame
    -- a time is shorter than a header
    have hsize := congrArg ByteArray.size (Option.some.inj hsame)
    have hheader := himage.header
    rw [← hsize, RealTimeClock.size_toBytes] at hheader
    exact absurd hheader (by decide)

end Image

/-- Where the save files of an image go that was loaded from a tree. Unless its file name has a dot
for a stem, the two go to different places, and to the place of the image only if the image has the
extension and is in the folder of such a file. With that stem the two have one path, which no save
is accepted at. If no save file that the cartridge saves overlays the image, then nothing is ever
saved where the image is. But if one does, a program can have the image overwritten, without a save
folder always and with one whenever the path through it can be followed. -/
theorem saves_beside_image {host host' : Host Float} {home : Location} {path : String}
    {c : Cartridge Float} (hmedium : host.storage.medium = .tree home)
    (hconsistent : host.storage.Consistent) (hload : Cartridge.ofFile host path = (.ok c, host')) :
    let place kind := host.storage.target (host.saveLocation path kind)
    let after boot errands := ((create c host' boot).carryOutAll errands).bus.host.storage
    (Path.stem? path ≠ some "." → place .ram ≠ place .clock ∧
      ∀ kind, place kind = host.storage.target path ↔
        host.storage.Overlays host.saveFolder path kind) ∧
    (Path.stem? path = some "." →
      host.saveLocation path .ram = host.saveLocation path .clock ∧
      ∀ kind (s : Storage) bytes, s.medium = .tree home →
        (s.save (host.saveLocation path kind) bytes).1 ≠ .ok ()) ∧
    ((∀ kind, c.Saves kind → ¬host.storage.Overlays host.saveFolder path kind) →
      ∀ boot errands, host.storage.Untouched (after boot errands) path) ∧
    ∀ kind, c.Saves kind → host.storage.Overlays host.saveFolder path kind →
      host.saveFolder = none ∨
        (∃ loc, host.storage.find home (host.saveLocation path kind) = .ok loc) →
      ∀ boot, ∃ errands, (after boot errands).contents path ≠ host.storage.contents path := by
  intro place after
  obtain ⟨file, himage⟩ := Cartridge.imageFile_ofFile hmedium hconsistent hload
  obtain ⟨folder, name, hnames⟩ := himage.names
  refine ⟨fun hstem => ⟨?_, fun kind => ?_⟩, fun hstem => ?_, fun hspared boot errands => ?_,
    fun kind hkind hoverlays hreached boot => ?_⟩
  · exact Storage.target_ram_ne_target_clock hmedium hnames hstem host.saveFolder
  · exact Storage.target_saveLocation_eq_iff hmedium hnames hstem host.saveFolder kind
  · exact Storage.saveLocation_of_dot hmedium hnames hstem host.saveFolder
  · exact image_untouched hmedium hload hnames hspared boot errands
  · refine exists_errands_overwriting hmedium hload hconsistent himage hkind ?_ boot
    rcases hreached with hnone | ⟨loc, hfind⟩
    · have hsame : host.saveLocation path kind = path := by
        unfold Host.saveLocation
        rw [hnone] at hoverlays ⊢
        exact Storage.saveLocation_of_overlays hnames hoverlays
      rw [hsame]
      exact himage.find
    · rw [hfind, Storage.follow_of_find hfind, ← Storage.target_tree hmedium]
      exact congrArg Except.ok
        ((Storage.target_saveLocation_eq_iff hmedium hnames hoverlays.stem _ kind).2 hoverlays)

/-! ## An image with either name -/

/-- A host with one image in the working folder, which is the root. -/
def treeHost (name : String) : Host Float :=
  ⟨(Storage.emptyTree []).put [name] batteryImage, none, 0, 0, []⟩

theorem load_treeHost {name : String}
    (hplace : (Storage.emptyTree []).findPlace [] name = .ok [name]) :
    (treeHost name).storage.load name Cartridge.maxImageSize = .ok (some batteryImage) := by
  obtain ⟨hfind, hfree⟩ := Storage.find_of_findPlace hplace
  have hfound : (treeHost name).storage.find [] name = .ok [name] :=
    (Storage.extends_put hfree batteryImage).find hfind
  have htarget : (treeHost name).storage.target name = [name] :=
    (Storage.follow_of_find hfound).symm
  have hcontents : (treeHost name).storage.contents name = some batteryImage := by
    unfold Storage.contents
    rw [htarget]
    exact (Storage.fileAt?_put _ _ _ _).trans (if_pos rfl)
  rw [Storage.load_of_find rfl (htarget.symm ▸ hfound), hcontents]
  dsimp only
  rw [extract_whole (by rw [size_batteryImage]; decide)]

/-- The image makes a cartridge that saves both of its files. -/
theorem ofFile_treeHost {name : String}
    (hplace : (Storage.emptyTree []).findPlace [] name = .ok [name]) :
    (treeHost name).storage.Consistent ∧
      ∃ c host', Cartridge.ofFile (treeHost name) name = (.ok c, host') ∧ ∀ kind, c.Saves kind := by
  refine ⟨(Storage.consistent_emptyTree []).put hplace batteryImage, ?_⟩
  obtain ⟨fresh, hbytes, hcapability⟩ := Cartridge.ofBytes_of_header (0 : Float)
    ofHeader_batteryImage rfl (Nat.le_of_eq size_batteryImage.symm)
  obtain ⟨host', hfile⟩ := Cartridge.ofFile_of_load (load_treeHost hplace) hbytes
  have hrestored := fresh.restored_restore (treeHost name) name
  refine ⟨_, host', hfile, fun kind => ?_⟩
  cases kind with
  | ram =>
    obtain ⟨-, hram, -⟩ := Cartridge.ofBytes_ok hbytes
    refine ⟨by rw [hrestored.capability, hcapability], ?_⟩
    rw [hrestored.ram, Cartridge.size_restoreRam, hram, hcapability]
    simp [ExternalRam.create]
  | clock =>
    show Option.isSome _ = true
    rw [(fresh.clock?_restore (treeHost name) name).1, Cartridge.isSome_clock?_of_ofBytes hbytes,
      hcapability]
    rfl

/-- Beside an image with a name of its own both files are kept, whatever is done. -/
theorem saves_beside_image_gb :
    ∃ c host', Cartridge.ofFile (treeHost "game.gb") "game.gb" = (.ok c, host') ∧
      (treeHost "game.gb").storage.target ((treeHost "game.gb").saveLocation "game.gb" .ram) ≠
        (treeHost "game.gb").storage.target ((treeHost "game.gb").saveLocation "game.gb" .clock) ∧
      ∀ boot errands, (treeHost "game.gb").storage.Untouched
        ((create c host' boot).carryOutAll errands).bus.host.storage "game.gb" := by
  obtain ⟨hconsistent, c, host', hload, -⟩ :=
    ofFile_treeHost (show (Storage.emptyTree []).findPlace [] "game.gb" = .ok ["game.gb"] from rfl)
  obtain ⟨hapart, -, huntouched, -⟩ := saves_beside_image rfl hconsistent hload
  refine ⟨c, host', hload, (hapart (by decide +kernel)).1, huntouched fun kind _ hoverlays => ?_⟩
  have hextension : Path.extension? "game.gb" = some "gb" := by decide +kernel
  cases kind <;> exact absurd (hextension.symm.trans hoverlays.extension) (by decide)

/-- An image whose name ends like a save file's can be overwritten. -/
theorem image_overwritten_sav :
    ¬ ∀ (host host' : Host Float) (home : Location) (path : String) (c : Cartridge Float),
      host.storage.medium = .tree home → host.storage.Consistent →
      Cartridge.ofFile host path = (.ok c, host') →
      ∀ boot errands, ((create c host' boot).carryOutAll errands).bus.host.storage.contents path =
        host.storage.contents path := by
  intro hall
  obtain ⟨hconsistent, c, host', hload, hsaves⟩ := ofFile_treeHost
    (show (Storage.emptyTree []).findPlace [] "game.sav" = .ok ["game.sav"] from rfl)
  have hmedium : (treeHost "game.sav").storage.medium = .tree [] := rfl
  obtain ⟨file, himage⟩ := Cartridge.imageFile_ofFile hmedium hconsistent hload
  have hlocation : (treeHost "game.sav").saveLocation "game.sav" .ram = "game.sav" := by
    decide +kernel
  obtain ⟨errands, hlost⟩ := exists_errands_overwriting hmedium hload hconsistent himage
    (hsaves .ram) (hlocation.symm ▸ himage.find) none
  exact hlost (hall _ _ _ _ c hmedium hconsistent hload none errands)

end Machine

end DotMatrix
