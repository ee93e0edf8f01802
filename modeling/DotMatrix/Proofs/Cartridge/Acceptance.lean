import DotMatrix.Proofs.Cartridge.Loading
import DotMatrix.Proofs.Storage.SavePaths

/-!
# Which images make a cartridge

An image is taken exactly if it has all that `Supported` lists, and what is wrong with another is
the first of its `objections`. Loading from a file asks no more than that of the first bytes of the
file, and nothing at all of the save files. When it fails the host is as it was; when it succeeds,
external memory is as `kept` says and its save file is left alone (`loads_supported_images`).
-/

namespace DotMatrix

/-! ## Objections -/

/-- The numbers of banks that a header can declare, under their codes. -/
def bankTable : List (UInt8 × Nat) :=
  [(0x00, 2), (0x01, 4), (0x02, 8), (0x03, 16), (0x04, 32), (0x05, 64), (0x06, 128), (0x07, 256),
    (0x52, 72), (0x53, 80), (0x54, 96)]

/-- The types of cartridges that there is a controller for. -/
def supportedTypes : List UInt8 :=
  [0x00, 0x01, 0x02, 0x03, 0x08, 0x09, 0x0F, 0x10, 0x11, 0x12, 0x13]

/-- The image has a whole header with codes that mean something, and all banks that it declares. -/
structure Supported (image : ByteArray) : Prop where
  header : 0x150 ≤ image.size
  type : imageByte image 0x147 ∈ supportedTypes
  ram : imageByte image 0x149 ≤ 5
  banks : ∃ banks, bankTable.lookup (imageByte image 0x148) = some banks ∧
    banks * 0x4000 ≤ image.size

/-- What can be said against an image, whether it applies, and with which error. -/
def objections (image : ByteArray) : List (Bool × CartridgeError) :=
  let type := imageByte image 0x147
  let romCode := imageByte image 0x148
  let ramCode := imageByte image 0x149
  let expected := (bankTable.lookup romCode).getD 0 * 0x4000
  [(image.size < 0x150, .truncated image.size),
    (Family.ofType? type = none, .unknownType type),
    (bankTable.lookup romCode = none, .invalidRomSize romCode),
    (5 < ramCode, .invalidRamSize ramCode),
    (type ∉ supportedTypes, .unsupported type ((Family.ofType? type).getD .special)),
    (image.size < expected, .shortImage expected image.size)]

def firstObjection (image : ByteArray) : Option CartridgeError :=
  ((objections image).find? (·.1)).map (·.2)

/-- There is a controller of this family. -/
def Family.controlled : Family → Bool
  | romOnly | mbc1 | mbc3 => true
  | _ => false

theorem Family.controlled_ofType? (type : UInt8) :
    (ofType? type).any controlled = supportedTypes.contains type :=
  forall_byte (P := fun type => (ofType? type).any controlled = supportedTypes.contains type)
    (by decide +kernel) type

theorem Capability.romBanks?_eq_lookup (code : UInt8) : romBanks? code = bankTable.lookup code :=
  forall_byte (P := fun code => romBanks? code = bankTable.lookup code) (by decide +kernel) code

theorem Capability.ramSize?_eq_none_iff (code : UInt8) : ramSize? code = none ↔ 5 < code :=
  forall_byte (P := fun code => ramSize? code = none ↔ 5 < code) (by decide +kernel) code

theorem firstObjection_eq_none_iff {image : ByteArray} :
    firstObjection image = none ↔ Supported image := by
  have hknown := Family.controlled_ofType? (imageByte image 0x147)
  simp only [firstObjection, objections, Option.map_eq_none_iff, List.find?_eq_none,
    List.forall_mem_cons, decide_eq_true_eq, Nat.not_lt, UInt8.not_lt]
  constructor
  · rintro ⟨hheader, -, hbanks, hram, htype, hsize, -⟩
    obtain ⟨banks, hbanks⟩ := Option.ne_none_iff_exists'.1 hbanks
    rw [hbanks] at hsize
    exact ⟨hheader, Classical.not_not.1 htype, hram, banks, hbanks, hsize⟩
  · rintro ⟨hheader, htype, hram, banks, hbanks, hsize⟩
    refine ⟨hheader, fun hunknown => ?_, by simp [hbanks], hram, not_not_intro htype, ?_, nofun⟩
    · rw [hunknown, List.contains_iff_mem.2 htype] at hknown
      cases hknown
    · rw [hbanks]
      exact hsize

/-! ## Headers -/

/-- What a header that can be read says. -/
structure Declares (image : ByteArray) (capability : Capability) : Prop where
  size : headerEnd ≤ image.size
  cartType : capability.cartType = imageByte image 0x147
  family : Family.ofType? (imageByte image 0x147) = some capability.family
  romBanks : Capability.romBanks? (imageByte image 0x148) = some capability.romBanks
  ram : Capability.ramSize? (imageByte image 0x149) ≠ none

theorem Capability.declares_of_ofHeader {image : ByteArray} {capability : Capability}
    (h : ofHeader image = .ok capability) : Declares image capability := by
  unfold ofHeader at h
  split at h
  · cases h
  · rename_i hsize
    dsimp only at h
    split at h
    · cases h
    · rename_i family hfamily
      split at h
      · cases h
      · rename_i banks hbanks
        split at h
        · cases h
        · rename_i ramSize hram
          cases h
          exact ⟨Nat.not_lt.1 hsize, rfl, hfamily, hbanks, by simp [hram]⟩

theorem firstObjection_of_ofHeader {image : ByteArray} {e : CartridgeError}
    (h : Capability.ofHeader image = .error e) : firstObjection image = some e := by
  unfold Capability.ofHeader at h
  split at h
  · rename_i hsize
    cases h
    have hshort : image.size < 0x150 := hsize
    simp [firstObjection, objections, hshort]
  · rename_i hsize
    have hwhole : ¬ image.size < 0x150 := hsize
    dsimp only at h
    split at h
    · rename_i hfamily
      cases h
      simp [firstObjection, objections, hwhole, hfamily]
    · rename_i family hfamily
      split at h
      · rename_i hbanks
        cases h
        rw [Capability.romBanks?_eq_lookup] at hbanks
        simp [firstObjection, objections, hwhole, hfamily, hbanks]
      · rename_i banks hbanks
        split at h
        · rename_i hram
          cases h
          rw [Capability.romBanks?_eq_lookup] at hbanks
          rw [Capability.ramSize?_eq_none_iff] at hram
          simp [firstObjection, objections, hwhole, hfamily, hbanks, hram]
        · cases h

theorem Declares.firstObjection_eq {image : ByteArray} {capability : Capability}
    (h : Declares image capability) :
    firstObjection image =
      if capability.family.controlled = false then
        some (.unsupported capability.cartType capability.family)
      else if image.size < capability.romBanks * romBankSize then
        some (.shortImage (capability.romBanks * romBankSize) image.size)
      else none := by
  have hwhole : ¬ image.size < 0x150 := Nat.not_lt.2 h.size
  have hbanks := h.romBanks
  rw [Capability.romBanks?_eq_lookup] at hbanks
  have hram := mt (Capability.ramSize?_eq_none_iff _).2 h.ram
  have htype := Family.controlled_ofType? (imageByte image 0x147)
  rw [h.family, Option.any_some] at htype
  rw [h.cartType]
  simp only [firstObjection, objections]
  rw [List.find?_cons_of_neg (by simpa using hwhole), List.find?_cons_of_neg (by simp [h.family]),
    List.find?_cons_of_neg (by simp [hbanks]), List.find?_cons_of_neg (by simpa using hram),
    htype, hbanks, h.family]
  by_cases hsupported : imageByte image 0x147 ∈ supportedTypes
  · rw [List.find?_cons_of_neg (by simpa using hsupported), if_neg (by simpa using hsupported)]
    have hsize : romBankSize = 0x4000 := rfl
    by_cases hshort : image.size < capability.romBanks * 0x4000
    · rw [List.find?_cons_of_pos (by simpa using hshort), hsize, if_pos hshort]
      rfl
    · rw [List.find?_cons_of_neg (by simpa using hshort), hsize, if_neg hshort]
      rfl
  · rw [List.find?_cons_of_pos (by simpa using hsupported), if_pos (by simpa using hsupported)]
    rfl

namespace Storage

/-! ## Files -/

/-- A load of a byte or more gives the first bytes of what there is to read. -/
theorem load_eq_some_iff {s : Storage} {path : String} {limit : Nat} (hlimit : limit ≠ 0)
    {bytes : ByteArray} :
    s.load path limit = .ok (some bytes) ↔
      ∃ file, s.read path = .ok file ∧ file.extract 0 limit = bytes := by
  unfold load read
  cases s.medium with
  | table unreadable unwritable =>
    dsimp only
    split
    · simp
    · cases s.fileAt? [path] <;> simp
  | tree home =>
    dsimp only
    cases hfind : s.find home path with
    | error cause =>
      have hfails : ¬ ∃ file, (Except.error cause : Except StorageError ByteArray) = .ok file ∧
          file.extract 0 limit = bytes := by simp
      refine ⟨fun h => ?_, fun h => absurd h hfails⟩
      split at h
      · cases h
      · cases h
      · rename_i hfound
        cases hfound
    | ok loc =>
      simp only [bind, Except.bind]
      cases s.fileAt? loc with
      | some file => simp [pure, Except.pure]
      | none =>
        -- a folder can be opened, and a file that is not there is no error, but neither is read
        cases s.isFolder loc <;> simp [hlimit, throw, throwThe, MonadExceptOf.throw]

/-- External memory as its save file has it: the first bytes of the file, if it can be read and has
that many, and zeros otherwise. -/
def kept (s : Storage) (path : String) (size : Nat) : Array UInt8 :=
  match s.read path with
  | .ok file => if size ≤ file.size then file.data.extract 0 size else Array.replicate size 0
  | .error _ => Array.replicate size 0

/-- It takes no more than a load of that many bytes to tell. -/
theorem kept_of_load {s : Storage} {path : String} {size : Nat} (hsize : size ≠ 0)
    {bytes : ByteArray} (h : s.load path size = .ok (some bytes)) :
    s.kept path size =
      if size ≤ bytes.size then bytes.data.extract 0 size else Array.replicate size 0 := by
  obtain ⟨file, hread, rfl⟩ := (load_eq_some_iff hsize).1 h
  have hlong : size ≤ (file.extract 0 size).size ↔ size ≤ file.size := by
    rw [ByteArray.size_extract]
    omega
  unfold kept
  simp only [hread, hlong]
  split
  · rw [ByteArray.data_extract, Array.extract_extract, Nat.zero_add, Nat.zero_add, Nat.min_self]
  · rfl

theorem kept_of_not_load {s : Storage} {path : String} {size : Nat} (hsize : size ≠ 0)
    (h : ∀ bytes, s.load path size ≠ .ok (some bytes)) :
    s.kept path size = Array.replicate size 0 := by
  unfold kept
  split
  · rename_i file hread
    exact absurd ((load_eq_some_iff hsize).2 ⟨file, hread, rfl⟩) (h _)
  · rfl

end Storage

namespace Cartridge

variable {τ : Type} [Timeline τ]

/-! ## Images -/

theorem controller?_eq_none_iff (capability : Capability) (now : τ) :
    controller? capability now = none ↔ capability.family.controlled = false := by
  unfold controller?
  cases capability.family <;> simp [Family.controlled]

/-- The error is the first objection, and without one there is no error. -/
theorem ofBytes_outcome (now : τ) (image : ByteArray) :
    match firstObjection image with
    | some e => ofBytes now image = .error e
    | none => ∃ c, ofBytes now image = .ok c := by
  cases hheader : Capability.ofHeader image with
  | error e =>
    rw [firstObjection_of_ofHeader hheader]
    unfold ofBytes
    rw [hheader]
    rfl
  | ok capability =>
    rw [(Capability.declares_of_ofHeader hheader).firstObjection_eq]
    cases hcontroller : controller? capability now with
    | none =>
      rw [if_pos ((controller?_eq_none_iff capability now).1 hcontroller)]
      unfold ofBytes
      simp only [hheader, bind, Except.bind, hcontroller]
      rfl
    | some controller =>
      have hcontrolled := mt (controller?_eq_none_iff capability now).2 (by simp [hcontroller])
      rw [if_neg hcontrolled]
      by_cases hshort : image.size < capability.romBanks * romBankSize
      · rw [if_pos hshort]
        unfold ofBytes
        simp only [hheader, bind, Except.bind, hcontroller, if_pos hshort]
        rfl
      · rw [if_neg hshort]
        obtain ⟨c, hc, -⟩ :=
          ofBytes_of_header now hheader (by rw [hcontroller]; rfl) (Nat.not_lt.1 hshort)
        exact ⟨c, hc⟩

theorem ofBytes_eq_error_iff {now : τ} {image : ByteArray} {e : CartridgeError} :
    ofBytes now image = .error e ↔ firstObjection image = some e := by
  have houtcome := ofBytes_outcome now image
  cases hobjection : firstObjection image with
  | none =>
    rw [hobjection] at houtcome
    obtain ⟨c, hc⟩ := houtcome
    simp [hc]
  | some first =>
    rw [hobjection] at houtcome
    have hfirst : ofBytes now image = .error first := houtcome
    simp [hfirst]

theorem exists_ofBytes_iff {now : τ} {image : ByteArray} :
    (∃ c, ofBytes now image = .ok c) ↔ Supported image := by
  have houtcome := ofBytes_outcome now image
  rw [← firstObjection_eq_none_iff]
  cases hobjection : firstObjection image with
  | none =>
    rw [hobjection] at houtcome
    exact ⟨fun _ => rfl, fun _ => houtcome⟩
  | some first =>
    rw [hobjection] at houtcome
    have hfirst : ofBytes now image = .error first := houtcome
    simp [hfirst]

/-! ## Saves -/

omit [Timeline τ] in
/-- Fresh memory becomes what its save file has, if a battery keeps it. -/
theorem bytes_restoreRam {c : Cartridge τ} {size : Nat} (hfresh : c.ram = .create size)
    (host : Host τ) (path : String) :
    (c.restoreRam host path).1.ram.bytes =
      if c.capability.hasBattery then host.storage.kept path size else Array.replicate size 0 := by
  have hzeros : c.ram.bytes = Array.replicate size 0 := congrArg ExternalRam.bytes hfresh
  have hsize : c.ram.size = size := by
    rw [ExternalRam.size, hzeros, Array.size_replicate]
  unfold restoreRam
  dsimp only
  rw [hsize]
  cases hbattery : c.capability.hasBattery with
  | false =>
    rw [if_neg (by simp), if_neg (by simp)]
    exact hzeros
  | true =>
    rw [if_pos rfl]
    by_cases hzero : size = 0
    · subst hzero
      rw [if_neg (by simp), hzeros]
      unfold Storage.kept
      split <;> simp
    · rw [if_pos (by simpa using hzero)]
      split
      · rename_i bytes hload
        rw [Storage.kept_of_load hzero hload]
        split
        · rename_i hlong
          have hdata : (bytes.data.extract 0 size).size = size := by
            rw [Array.size_extract]
            exact Nat.min_eq_left hlong
          show bytes.data.extract 0 c.ram.bytes.size ++ _ = _
          rw [hzeros, Array.size_replicate, hdata]
          simp
        · exact hzeros
      -- neither a file that is missing nor one that cannot be read is anything to go by
      · rename_i hload
        rw [Storage.kept_of_not_load hzero (by simp [hload])]
        exact hzeros
      · rename_i hload
        rw [Storage.kept_of_not_load hzero (by simp [hload])]
        exact hzeros

/-! ## Loading -/

/-- Loading fails, and leaves the host as it was, or restores what an image makes. -/
theorem ofFile_cases (host : Host τ) (path : String) :
    (∃ e, ofFile host path = (.error e, host) ∧
        ∀ file, host.storage.read path = .ok file → ¬ Supported (file.extract 0 0x800000)) ∨
      ∃ file fresh log, host.storage.read path = .ok file ∧
        ofBytes host.calendar (file.extract 0 0x800000) = .ok fresh ∧
        ofFile host path =
          (.ok (fresh.restore host path).1, { (fresh.restore host path).2 with log }) := by
  have hmax : maxImageSize = 0x800000 := by decide
  have hload : ∀ image, host.storage.load path 0x800000 = .ok (some image) ↔
      ∃ file, host.storage.read path = .ok file ∧ file.extract 0 0x800000 = image :=
    fun _ => Storage.load_eq_some_iff (by decide)
  unfold ofFile
  rw [hmax]
  split
  · rename_i e hfails
    refine .inl ⟨_, rfl, fun file hread => ?_⟩
    cases hfails.symm.trans ((hload _).2 ⟨file, hread, rfl⟩)
  · rename_i hfails
    refine .inl ⟨_, rfl, fun file hread => ?_⟩
    cases hfails.symm.trans ((hload _).2 ⟨file, hread, rfl⟩)
  · rename_i image hloads
    obtain ⟨file, hread, rfl⟩ := (hload image).1 hloads
    cases hbytes : ofBytes host.calendar (file.extract 0 0x800000) with
    | error e =>
      refine .inl ⟨e, rfl, fun other hother hsupported => ?_⟩
      obtain rfl := Except.ok.inj (hread.symm.trans hother)
      have hmade : ∃ c, ofBytes host.calendar (file.extract 0 0x800000) = .ok c :=
        exists_ofBytes_iff.2 hsupported
      obtain ⟨c, hc⟩ := hmade
      rw [hbytes] at hc
      cases hc
    | ok fresh => exact .inr ⟨file, fresh, _, hread, hbytes, rfl⟩

/-- A byte sequence makes a cartridge exactly if it is an image that is supported, and else the
error is the first objection to it. Loading from a file fails exactly if the file cannot be read or
its first eight megabytes are no such image, and then the host is as it was, whatever there is
for save files. When it succeeds, the cartridge is as its header says, external memory is what a
battery has kept and zeros otherwise, and nothing is saved at the place of that memory. -/
theorem loads_supported_images (host : Host τ) (path : String) :
    (∀ (now : τ) (image : ByteArray),
      ((∃ c, ofBytes now image = .ok c) ↔ Supported image) ∧
        ∀ e, ofBytes now image = .error e ↔ firstObjection image = some e) ∧
    (host.saveLocation path .ram ≠ host.saveLocation path .clock →
      let outcome := (ofFile host path).1
      let after := (ofFile host path).2
      ((∃ e, outcome = .error e) ↔
        ∀ file, host.storage.read path = .ok file → ¬ Supported (file.extract 0 0x800000)) ∧
      (∀ e, outcome = .error e → after = host) ∧
      ∀ c, outcome = .ok c →
        (∃ file, host.storage.read path = .ok file ∧
          Capability.ofHeader (file.extract 0 0x800000) = .ok c.capability) ∧
        c.ram.bytes =
          (if c.capability.hasBattery then
            host.storage.kept (host.saveLocation path .ram) c.capability.ramSize
          else Array.replicate c.capability.ramSize 0) ∧
        after.storage.contents (host.saveLocation path .ram) =
          host.storage.contents (host.saveLocation path .ram) ∧
        (after.storage.journal = host.storage.journal ∨
          ∃ bytes, after.storage.journal =
            (host.saveLocation path .clock, bytes) :: host.storage.journal)) := by
  refine ⟨fun now image => ⟨exists_ofBytes_iff, fun e => ofBytes_eq_error_iff⟩, fun hpaths => ?_⟩
  have htargets := host.storage.target_saveLocation_ne hpaths
  rcases ofFile_cases host path with
    ⟨e, hfile, hrejected⟩ | ⟨file, fresh, log, hread, hbytes, hfile⟩
  · rw [hfile]
    refine ⟨⟨fun _ => hrejected, fun _ => ⟨e, rfl⟩⟩, fun _ _ => rfl, fun c hc => ?_⟩
    cases hc
  · have hrestored := fresh.restored_restore host path
    rw [hfile]
    refine ⟨⟨fun ⟨e, he⟩ => ?_, fun hrejected => ?_⟩, fun e he => ?_, fun c hc => ?_⟩
    · cases he
    · exact absurd (exists_ofBytes_iff.1 ⟨fresh, hbytes⟩) (hrejected file hread)
    · cases he
    · obtain rfl := Except.ok.inj hc
      obtain ⟨capability, controller, hheader, -, -, hfresh⟩ := ofBytes_eq_ok_iff.1 hbytes
      have hcapability : fresh.capability = capability := by rw [hfresh]
      have hram : fresh.ram = .create capability.ramSize := by rw [hfresh]
      have hbytes := bytes_restoreRam hram host (host.saveLocation path .ram)
      rw [hcapability] at hbytes
      have hrestore : (fresh.restore host path).1.capability = capability :=
        hrestored.capability.trans hcapability
      rw [hrestore]
      refine ⟨⟨file, hread, hheader⟩, (congrArg ExternalRam.bytes hrestored.ram).trans hbytes, ?_⟩
      show (fresh.restore host path).2.storage.contents _ = _ ∧
        ((fresh.restore host path).2.storage.journal = _ ∨ _)
      rcases hrestored.storage with hsame | ⟨bytes, hsave⟩
      · rw [hsame]
        exact ⟨rfl, .inl rfl⟩
      · rw [hsave]
        exact ⟨Storage.contents_save_of_ne htargets bytes,
          (host.storage.journal_save _ bytes).imp_right fun hjournal => ⟨bytes, hjournal⟩⟩

/-- The image lies beside a save file that is longer than it has to be, and the file of the clock
can be neither read nor written. -/
def savedHost : Host Float :=
  let saved : ByteArray := ⟨Array.replicate 0x3000 0x5A⟩
  { imageHost batteryImage with
    storage :=
      ⟨.table ["game.rtc"] ["game.rtc"], [(["game.gb"], batteryImage), (["game.sav"], saved)], [],
        []⟩ }

theorem supported_batteryImage : Supported batteryImage := by
  have hbyte := fun i (h : i < 0x8000) => imageByte_batteryImage h
  refine ⟨?_, ?_, ?_, 2, ?_, ?_⟩
  · rw [size_batteryImage]
    decide
  · rw [hbyte 0x147 (by decide)]
    decide
  · rw [hbyte 0x149 (by decide)]
    decide
  · rw [hbyte 0x148 (by decide)]
    decide
  · exact Nat.le_of_eq size_batteryImage.symm

/-- What the clock's file does cannot keep the cartridge from being loaded, and external memory is
the first part of its own file, which stays. An image without a header is not taken. -/
theorem loads_supported_images_savedHost :
    ∃ c, (ofFile savedHost "game.gb").1 = .ok c ∧ c.ram.bytes = Array.replicate 0x2000 0x5A ∧
      (ofFile savedHost "game.gb").2.storage.contents "game.sav" =
        some ⟨Array.replicate 0x3000 0x5A⟩ ∧
      ofBytes (0 : Float) .empty = .error (.truncated 0) := by
  obtain ⟨himages, hfiles⟩ := loads_supported_images savedHost "game.gb"
  have hpaths : savedHost.saveLocation "game.gb" .ram = "game.sav" ∧
      savedHost.saveLocation "game.gb" .clock = "game.rtc" := by decide +kernel
  rw [hpaths.1, hpaths.2] at hfiles
  obtain ⟨hfails, -, hloads⟩ := hfiles (by decide)
  have hread : savedHost.storage.read "game.gb" = .ok batteryImage := rfl
  have hsaved : savedHost.storage.read "game.sav" = .ok ⟨Array.replicate 0x3000 0x5A⟩ := rfl
  have hwhole : batteryImage.extract 0 0x800000 = batteryImage :=
    extract_whole (by rw [size_batteryImage]; decide)
  cases houtcome : (ofFile savedHost "game.gb").1 with
  | error e =>
    refine absurd (hfails.1 ⟨e, houtcome⟩ batteryImage hread) (not_not_intro ?_)
    rw [hwhole]
    exact supported_batteryImage
  | ok c =>
    obtain ⟨⟨file, hfile, hheader⟩, hram, hcontents, -⟩ := hloads c houtcome
    obtain rfl := Except.ok.inj (hread.symm.trans hfile)
    rw [hwhole, ofHeader_batteryImage] at hheader
    refine ⟨c, rfl, ?_, hcontents, ((himages 0 .empty).2 _).2 rfl⟩
    rw [hram, ← Except.ok.inj hheader]
    unfold Storage.kept
    rw [hsaved]
    simp [ByteArray.size]

end Cartridge

end DotMatrix
