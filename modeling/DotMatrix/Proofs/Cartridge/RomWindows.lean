import DotMatrix.Proofs.Cartridge.Loading
import DotMatrix.Proofs.Cartridge.RamCells

/-!
# The two windows of program memory

The lower window shows the first bank of the image, the upper one the bank that the controller
selects. The number of that bank comes from up to three registers and wraps around at the number
of banks that the header gives; that it is never zero and always below that number, and that an
image holds all its banks, makes every read in the windows find a byte of the image
(`windows_show_image`).
-/

namespace DotMatrix

/-! ## The number of banks -/

theorem Capability.two_le_of_romBanks? {code : UInt8} {banks : Nat}
    (h : romBanks? code = some banks) : 2 ≤ banks := by
  unfold romBanks? at h
  dsimp only at h
  split at h
  · obtain rfl := Option.some.inj h
    rw [Nat.one_shiftLeft, Nat.pow_succ]
    have := Nat.two_pow_pos code.toNat
    omega
  · -- the other codes name three numbers
    split at h
    · obtain rfl := Option.some.inj h
      decide
    · split at h
      · obtain rfl := Option.some.inj h
        decide
      · split at h
        · obtain rfl := Option.some.inj h
          decide
        · cases h

theorem Capability.romBanks?_of_ofHeader {image : ByteArray} {capability : Capability}
    (h : ofHeader image = .ok capability) : ∃ code, romBanks? code = some capability.romBanks := by
  unfold ofHeader at h
  split at h
  · cases h
  · dsimp only at h
    split at h
    · cases h
    · split at h
      · cases h
      · rename_i banks hbanks
        split at h
        · cases h
        · obtain rfl := Except.ok.inj h
          exact ⟨_, hbanks⟩

theorem Capability.two_le_romBanks {image : ByteArray} {capability : Capability}
    (h : ofHeader image = .ok capability) : 2 ≤ capability.romBanks := by
  obtain ⟨code, hcode⟩ := romBanks?_of_ofHeader h
  exact two_le_of_romBanks? hcode

theorem wrapBank_pos (bank count : Nat) : 1 ≤ wrapBank bank count := by
  unfold wrapBank
  split
  · exact Nat.le_refl 1
  · rename_i hzero
    exact Nat.one_le_iff_ne_zero.2 hzero

theorem wrapBank_lt (bank : Nat) {count : Nat} (h : 2 ≤ count) : wrapBank bank count < count := by
  unfold wrapBank
  split
  · exact h
  · exact Nat.mod_lt _ (by omega)

/-! ## The kind of controller -/

/-- The family that a controller belongs to. -/
def Controller.family {τ : Type} : Controller τ → Family
  | .fixed => .romOnly
  | .mbc1 _ => .mbc1
  | .mbc3 _ => .mbc3

namespace Cartridge

variable {τ : Type}

theorem family_of_controller? [Timeline τ] {capability : Capability} {now : τ}
    {controller : Controller τ} (h : controller? capability now = some controller) :
    controller.family = capability.family := by
  unfold controller? at h
  split at h
  · rename_i hfamily
    obtain rfl := Option.some.inj h
    exact hfamily.symm
  · rename_i hfamily
    obtain rfl := Option.some.inj h
    exact hfamily.symm
  · rename_i hfamily
    obtain rfl := Option.some.inj h
    exact hfamily.symm
  · cases h

variable [Timeline τ]

theorem family_saveClock (c : Cartridge τ) (host : Host τ) (always : Bool) :
    (c.saveClock host always).1.controller.family = c.controller.family := by
  unfold saveClock
  split
  · rename_i hcontroller hpaths
    split
    · rfl
    · dsimp only
      split
      · rw [hcontroller]
        rfl
      · rfl
  · rfl

theorem family_writeRegister (c : Cartridge τ) (now : τ) (addr : UInt16) (val : UInt8) :
    (c.writeRegister now addr val).controller.family = c.controller.family := by
  unfold writeRegister
  split <;> rename_i hcontroller
  · rfl
  -- each register of a controller leaves its kind alone
  all_goals
    rw [hcontroller]
    split
    · dsimp only
      split
      · rw [controller_commitRam]
        rfl
      · rfl
    · split
      · rfl
      · split <;> rfl

theorem family_writeExternal (c : Cartridge τ) (host : Host τ) (offset : Nat) (val : UInt8) :
    (c.writeExternal host offset val).1.controller.family = c.controller.family := by
  unfold writeExternal
  split <;> rename_i hcontroller
  · rfl
  · split <;> rfl
  · split
    · rfl
    · split
      · rfl
      -- a register of the clock was written, and its start time may have been saved
      · dsimp only
        rw [family_saveClock, hcontroller]
        rfl
      · rfl

theorem family_write (c : Cartridge τ) (host : Host τ) (addr : UInt16) (val : UInt8) :
    (c.write host addr val).1.controller.family = c.controller.family := by
  unfold write
  split
  · exact family_writeRegister c _ addr val
  · split
    · exact family_writeExternal c host _ val
    · rfl

/-! ## Writes -/

/-- The same program memory, seen through a controller of the same kind. -/
structure SameProgram (c c' : Cartridge τ) : Prop where
  rom : c'.rom = c.rom
  capability : c'.capability = c.capability
  family : c'.controller.family = c.controller.family

theorem sameProgram_after (c : Cartridge τ) (w : BusWrite τ) : c.SameProgram (c.after w) := by
  have hwritten := written_write c w.host w.addr w.val
  exact ⟨hwritten.rom, hwritten.capability, family_write c w.host w.addr w.val⟩

theorem sameProgram_afterAll (c : Cartridge τ) (ws : List (BusWrite τ)) :
    c.SameProgram (c.afterAll ws) := by
  -- write by write, from the first
  induction ws generalizing c with
  | nil => exact ⟨rfl, rfl, rfl⟩
  | cons w ws ih =>
    have hfirst := sameProgram_after c w
    have hrest := ih (c.after w)
    exact ⟨hrest.rom.trans hfirst.rom, hrest.capability.trans hfirst.capability,
      hrest.family.trans hfirst.family⟩

/-! ## Reads -/

omit [Timeline τ] in
theorem imageByte_of_lt {image : ByteArray} {i : Nat} (h : i < image.size) :
    imageByte image i = image[i] :=
  dif_pos h

omit [Timeline τ] in
/-- A bank that the image holds all of is seen byte by byte. -/
theorem romByte_of_bank (c : Cartridge τ) {bank : Nat} (addr : UInt16)
    (h : (bank + 1) * romBankSize ≤ c.rom.size) :
    ∃ hpos : bank * romBankSize + addr.toNat % romBankSize < c.rom.size,
      c.romByte bank addr = c.rom[bank * romBankSize + addr.toNat % romBankSize] := by
  have hmod := Nat.mod_lt addr.toNat (show 0 < romBankSize by decide)
  have hpos : bank * romBankSize + addr.toNat % romBankSize < c.rom.size := by
    rw [Nat.add_mul, Nat.one_mul] at h
    omega
  exact ⟨hpos, imageByte_of_lt hpos⟩

omit [Timeline τ] in
theorem read_lower (c : Cartridge τ) {addr : UInt16} (h : addr < 0x4000) :
    c.read addr = c.romByte 0 addr :=
  if_pos h

omit [Timeline τ] in
theorem read_upper (c : Cartridge τ) {addr : UInt16} (hlo : 0x4000 ≤ addr) (hhi : addr < 0x8000) :
    c.read addr = c.romByte (c.currentBank?.getD 1) addr := by
  have hnot : ¬addr < 0x4000 := by
    rw [UInt16.lt_iff_toNat_lt]
    exact Nat.not_lt.2 (UInt16.le_iff_toNat_le.1 hlo)
  unfold read
  rw [if_neg hnot, if_pos hhi]

omit [Timeline τ] in
/-- The bank in the upper window: the second one without a controller, and else the one that the
controller gives, which wraps around. -/
theorem upperBank_cases (c : Cartridge τ) :
    (c.controller.family = .romOnly ∧ c.currentBank? = none) ∨
      ((c.controller.family = .mbc1 ∨ c.controller.family = .mbc3) ∧
        ∃ bank, c.currentBank? = some (wrapBank bank c.capability.romBanks)) := by
  unfold currentBank?
  cases c.controller with
  | fixed => exact .inl ⟨rfl, rfl⟩
  | mbc1 m => exact .inr ⟨.inl rfl, _, rfl⟩
  | mbc3 m => exact .inr ⟨.inr rfl, _, rfl⟩

/-- What an image that makes a cartridge is known to have: a controller of the header's family, two
banks at least, and all the banks of its header. -/
theorem image_of_ofBytes {now : τ} {image : ByteArray} {c : Cartridge τ}
    (h : ofBytes now image = .ok c) :
    c.rom = image ∧ c.controller.family = c.capability.family ∧ 2 ≤ c.capability.romBanks ∧
      c.capability.romBanks * romBankSize ≤ image.size := by
  obtain ⟨capability, controller, hheader, hcontroller, hsize, rfl⟩ := ofBytes_eq_ok_iff.1 h
  exact ⟨rfl, family_of_controller? hcontroller, Capability.two_le_romBanks hheader, hsize⟩

/-- Whatever is written to a cartridge, its image stays as it is, the lower window shows the first
bank, and the upper window shows one other bank of the image: the second one if there is no
controller, and the one that the controller names if there is. -/
theorem windows_show_image {now : τ} {image : ByteArray} {c : Cartridge τ}
    (h : ofBytes now image = .ok c) (ws : List (BusWrite τ)) :
    let c' := c.afterAll ws
    c'.rom = image ∧
    (∀ addr : UInt16, addr < 0x4000 →
      ∃ hpos : addr.toNat < image.size, c'.read addr = image[addr.toNat]) ∧
    ∃ bank, 1 ≤ bank ∧ bank < c.capability.romBanks ∧
      (c.capability.family = .romOnly ∧ c'.currentBank? = none ∧ bank = 1 ∨
        (c.capability.family = .mbc1 ∨ c.capability.family = .mbc3) ∧
          c'.currentBank? = some bank) ∧
      ∀ addr : UInt16, 0x4000 ≤ addr → addr < 0x8000 →
        ∃ hpos : bank * 0x4000 + addr.toNat % 0x4000 < image.size,
          c'.read addr = image[bank * 0x4000 + addr.toNat % 0x4000] := by
  intro c'
  obtain ⟨himage, hfamily, htwo, hsize⟩ := image_of_ofBytes h
  have hsame := sameProgram_afterAll c ws
  have hrom : c'.rom = image := hsame.rom.trans himage
  have hkind : c'.controller.family = c.capability.family := hsame.family.trans hfamily
  -- all the bytes of a bank below the count are there
  have hholds : ∀ bank < c.capability.romBanks, (bank + 1) * romBankSize ≤ c'.rom.size := by
    intro bank hbank
    rw [hrom]
    exact Nat.le_trans (Nat.mul_le_mul_right romBankSize hbank) hsize
  refine ⟨hrom, fun addr haddr => ?_, ?_⟩
  · obtain ⟨hpos, hbyte⟩ := c'.romByte_of_bank addr (hholds 0 (by omega))
    have hoffset : 0 * romBankSize + addr.toNat % romBankSize = addr.toNat := by
      rw [Nat.zero_mul, Nat.zero_add]
      exact Nat.mod_eq_of_lt (UInt16.lt_iff_toNat_lt.1 haddr)
    simp only [hoffset, hrom] at hpos hbyte
    exact ⟨hpos, (c'.read_lower haddr).trans hbyte⟩
  · have hupper : ∀ bank < c.capability.romBanks, c'.currentBank?.getD 1 = bank →
        ∀ addr : UInt16, 0x4000 ≤ addr → addr < 0x8000 →
          ∃ hpos : bank * 0x4000 + addr.toNat % 0x4000 < image.size,
            c'.read addr = image[bank * 0x4000 + addr.toNat % 0x4000] := by
      intro bank hbank hcurrent addr hlo hhi
      obtain ⟨hpos, hbyte⟩ := c'.romByte_of_bank addr (hholds bank hbank)
      simp only [hrom] at hpos hbyte
      refine ⟨hpos, ?_⟩
      rw [c'.read_upper hlo hhi, hcurrent]
      exact hbyte
    rcases c'.upperBank_cases with ⟨hfixed, hnone⟩ | ⟨hbanked, bank, hsome⟩
    · refine ⟨1, Nat.le_refl 1, htwo, .inl ⟨hkind ▸ hfixed, hnone, rfl⟩, hupper 1 htwo ?_⟩
      rw [hnone]
      rfl
    · rw [hkind] at hbanked
      rw [show c'.capability = c.capability from hsame.capability] at hsome
      have hlt := wrapBank_lt bank htwo
      refine ⟨_, wrapBank_pos bank _, hlt, .inr ⟨hbanked, hsome⟩, hupper _ hlt ?_⟩
      rw [hsome]
      rfl

/-! ## An image of seventy-two banks -/

/-- The image of a size with a byte for each offset. -/
def imageOf (size : Nat) (byte : Nat → UInt8) : ByteArray :=
  ⟨Array.ofFn fun i : Fin size => byte i⟩

theorem size_imageOf (size : Nat) (byte : Nat → UInt8) : (imageOf size byte).size = size :=
  Array.size_ofFn

theorem getElem_imageOf {size i : Nat} {byte : Nat → UInt8} (h : i < (imageOf size byte).size) :
    (imageOf size byte)[i] = byte i :=
  Array.getElem_ofFn _

theorem imageByte_imageOf {size i : Nat} (byte : Nat → UInt8) (h : i < size) :
    imageByte (imageOf size byte) i = byte i := by
  have hpos : i < (imageOf size byte).size := by
    rw [size_imageOf]
    exact h
  rw [imageByte_of_lt hpos, getElem_imageOf]

/-- Each byte is the number of its bank, but for the header of an MBC1 with seventy-two banks. -/
def numberedByte (i : Nat) : UInt8 :=
  if i = 0x147 then 0x01 else if i = 0x148 then 0x52 else (i / 0x4000).toUInt8

def numberedImage : ByteArray := imageOf (72 * 0x4000) numberedByte

theorem ofHeader_numberedImage :
    Capability.ofHeader numberedImage =
      .ok ⟨0x01, .mbc1, false, false, false, false, 0, 72⟩ := by
  have htype : imageByte numberedImage 0x147 = 0x01 :=
    (imageByte_imageOf _ (by decide)).trans (by decide)
  have hromCode : imageByte numberedImage 0x148 = 0x52 :=
    (imageByte_imageOf _ (by decide)).trans (by decide)
  have hramCode : imageByte numberedImage 0x149 = 0x00 :=
    (imageByte_imageOf _ (by decide)).trans (by decide)
  have hlong : ¬numberedImage.size < headerEnd := by
    unfold numberedImage
    rw [size_imageOf]
    decide
  unfold Capability.ofHeader
  rw [if_neg hlong, htype, hromCode, hramCode]
  rfl

/-- Selects bank 127, one write for the lower bits and one for the upper. -/
def selectBeyond : List (BusWrite Float) :=
  [(0x2000, 0x1F), (0x4000, 0x03)].map
    (fun (addr, val) => ⟨⟨default, none, 0, 0, []⟩, addr, val⟩)

/-- Of seventy-two banks, the one with number 127 is number 55. -/
theorem windows_show_numberedImage :
    ∃ c : Cartridge Float, ofBytes 0 numberedImage = .ok c ∧
      (c.afterAll selectBeyond).currentBank? = some 55 ∧
      (c.afterAll selectBeyond).read 0x7FFF = 55 := by
  have hsize : 72 * romBankSize ≤ numberedImage.size := by
    unfold numberedImage
    rw [size_imageOf]
    decide
  have hmakes : ofBytes (0 : Float) numberedImage = .ok _ :=
    ofBytes_eq_ok_iff.2 ⟨_, .mbc1 .initial, ofHeader_numberedImage, rfl, hsize, rfl⟩
  obtain ⟨-, -, bank, -, -, hbank, hread⟩ := windows_show_image hmakes selectBeyond
  refine ⟨_, hmakes, rfl, ?_⟩
  obtain rfl : bank = 55 := by
    rcases hbank with ⟨hfamily, -⟩ | ⟨-, hcurrent⟩
    · cases hfamily
    · exact (Option.some.inj hcurrent).symm
  obtain ⟨hpos, hbyte⟩ := hread 0x7FFF (by decide) (by decide)
  rw [hbyte]
  exact (getElem_imageOf hpos).trans (by decide)

end Cartridge

end DotMatrix
