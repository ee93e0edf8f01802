import DotMatrix.Proofs.Cartridge.RomWindows

/-!
# Selecting bank zero

The bank register of an MBC1 holds the lower five bits of a bank number, and another register adds
two upper bits to them. The number is wrapped around first, and zero replaced by one after that, so
that with zeros in the lower bits the upper bits alone can name a bank (`select_zero_one`). It is
then another bank than with a one in the lower bits; all else is the same in both cases, whatever
is written later on.
-/

namespace DotMatrix

/-! ## Numbers of banks -/

/-- The number of banks is even, and it divides thirty-two unless there are more than that. -/
theorem Capability.dvd_of_romBanks? {code : UInt8} {banks : Nat}
    (h : romBanks? code = some banks) : 2 ∣ banks ∧ (banks ≤ 32 → banks ∣ 32) := by
  unfold romBanks? at h
  dsimp only at h
  split at h
  · obtain rfl := Option.some.inj h
    rw [Nat.one_shiftLeft]
    refine ⟨Nat.dvd_mul_left 2 _, fun hle => ?_⟩
    have hpow : 2 ^ (code.toNat + 1) ≤ 2 ^ 5 := hle
    exact Nat.pow_dvd_pow 2 ((Nat.pow_le_pow_iff_right (by decide)).1 hpow)
  · -- the other codes name three numbers
    split at h
    · obtain rfl := Option.some.inj h
      decide
    · split at h
      · obtain rfl := Option.some.inj h
        decide
      · split at h
        · obtain rfl := Option.some.inj h
          decide
        · cases h

theorem Capability.dvd_romBanks {image : ByteArray} {capability : Capability}
    (h : ofHeader image = .ok capability) :
    2 ∣ capability.romBanks ∧ (capability.romBanks ≤ 32 → capability.romBanks ∣ 32) := by
  obtain ⟨code, hcode⟩ := romBanks?_of_ofHeader h
  exact dvd_of_romBanks? hcode

/-- One after an even number there is no wrapping around. -/
theorem wrapBank_succ {upper count : Nat} (hupper : 2 ∣ upper) (hcount : 2 ∣ count)
    (hpos : 0 < count) : wrapBank (upper + 1) count = upper % count + 1 := by
  have heven : 2 ∣ upper % count := (Nat.dvd_mod_iff hcount).2 hupper
  have hlt : upper % count < count := Nat.mod_lt upper hpos
  have hmod : (upper + 1) % count = upper % count + 1 := by
    rw [← Nat.mod_add_mod]
    exact Nat.mod_eq_of_lt (by omega)
  unfold wrapBank
  rw [hmod, if_neg (Nat.succ_ne_zero _)]

/-- What the upper bits add to the bank number. -/
def Mbc1.upper (m : Mbc1) : Nat := if m.mode = 0 then m.high.toNat * 32 else 0

theorem Mbc1.dvd_upper (m : Mbc1) : 32 ∣ m.upper := by
  unfold upper
  split
  · exact Nat.dvd_mul_left 32 _
  · exact Nat.dvd_zero 32

namespace Cartridge

variable {τ : Type}

/-! ## The lower bits -/

/-- The addresses of the bank register. -/
def InBankRegister (addr : UInt16) : Prop := 0x2000 ≤ addr ∧ addr < 0x4000

instance (addr : UInt16) : Decidable (InBankRegister addr) :=
  inferInstanceAs (Decidable (0x2000 ≤ addr ∧ addr < 0x4000))

/-- What the upper bits add to the bank number of a cartridge with an MBC1. -/
def upperBits (c : Cartridge τ) : Nat :=
  match c.controller with
  | .mbc1 m => m.upper
  | .fixed | .mbc3 _ => 0

/-- The cartridge with other lower bits. -/
def setLower (c : Cartridge τ) (lower : UInt8) : Cartridge τ :=
  match c.controller with
  | .mbc1 m => { c with controller := .mbc1 { m with romBank := lower } }
  | .fixed | .mbc3 _ => c

theorem setLower_mbc1 {c : Cartridge τ} {m : Mbc1} (h : c.controller = .mbc1 m) (lower : UInt8) :
    c.setLower lower = { c with controller := .mbc1 { m with romBank := lower } } := by
  unfold setLower
  rw [h]

theorem exists_mbc1 {c : Cartridge τ} (h : c.controller.family = .mbc1) :
    ∃ m, c.controller = .mbc1 m := by
  cases hcontroller : c.controller with
  | mbc1 m => exact ⟨m, rfl⟩
  | fixed => rw [hcontroller] at h; cases h
  | mbc3 m => rw [hcontroller] at h; cases h

theorem commitRam_setLower (c : Cartridge τ) (lower : UInt8) :
    (c.setLower lower).commitRam = c.commitRam.setLower lower := by
  obtain ⟨rom, ram, capability, title, color, controller, paths, commit⟩ := c
  unfold commitRam uncommitted setLower
  cases controller <;> cases capability.hasBattery && ram.modified <;> rfl

/-- The lower bits show in the number of the bank and nowhere else. -/
theorem read_setLower {c : Cartridge τ} (h : c.controller.family = .mbc1) {lower other : UInt8}
    (hbank : (c.setLower lower).currentBank? = (c.setLower other).currentBank?) (addr : UInt16) :
    (c.setLower lower).read addr = (c.setLower other).read addr := by
  obtain ⟨m, hm⟩ := exists_mbc1 h
  have hexternal (offset : Nat) :
      (c.setLower lower).readExternal offset = (c.setLower other).readExternal offset := by
    unfold readExternal
    rw [setLower_mbc1 hm, setLower_mbc1 hm]
    rfl
  have hrom (bank : Nat) : (c.setLower lower).romByte bank addr =
      (c.setLower other).romByte bank addr := by
    rw [setLower_mbc1 hm, setLower_mbc1 hm]
    rfl
  unfold read
  rw [hbank, hexternal, hrom, hrom]

variable [Timeline τ]

/-- Writing the bank register sets the lower bits. -/
theorem after_bankRegister {c : Cartridge τ} (h : c.controller.family = .mbc1) {w : BusWrite τ}
    (hw : InBankRegister w.addr) : c.after w = c.setLower (w.val &&& 0x1F) := by
  obtain ⟨m, hm⟩ := exists_mbc1 h
  have hlow : ¬w.addr < 0x2000 := UInt16.not_lt.2 hw.1
  have hrom : w.addr < 0x8000 := UInt16.lt_trans hw.2 (by decide)
  unfold after write writeRegister
  rw [setLower_mbc1 hm, if_pos hrom, hm]
  dsimp only
  rw [if_neg hlow, if_pos hw.2]

/-- No other write looks at the lower bits or sets them. -/
theorem after_setLower {c : Cartridge τ} (h : c.controller.family = .mbc1) {w : BusWrite τ}
    (hw : ¬InBankRegister w.addr) (lower : UInt8) :
    (c.setLower lower).after w = (c.after w).setLower lower := by
  obtain ⟨⟨romBank, high, mode, ramEnabled⟩, hm⟩ := exists_mbc1 h
  rw [setLower_mbc1 hm]
  unfold after write
  by_cases hrom : w.addr < 0x8000
  · rw [if_pos hrom, if_pos hrom]
    unfold writeRegister
    dsimp only
    rw [hm]
    dsimp only
    by_cases hlow : w.addr < 0x2000
    · rw [if_pos hlow, if_pos hlow]
      -- external memory is switched, and switching it off commits it
      split
      · exact commitRam_setLower
          { c with controller := .mbc1 ⟨romBank, high, mode, enablesRam w.val⟩ } lower
      · rfl
    · have hhigh : ¬w.addr < 0x4000 := fun hlt => hw ⟨UInt16.not_lt.1 hlow, hlt⟩
      rw [if_neg hlow, if_neg hlow, if_neg hhigh, if_neg hhigh]
      split <;> rfl
  · rw [if_neg hrom, if_neg hrom]
    by_cases hwindow : (0xA000 ≤ w.addr && w.addr < 0xC000) = true
    · rw [if_pos hwindow, if_pos hwindow]
      unfold writeExternal
      dsimp only
      rw [hm]
      dsimp only
      split
      · -- nor do the lower bits show in the offset
        rfl
      · exact (setLower_mbc1 hm lower).symm
    · rw [if_neg hwindow, if_neg hwindow]
      exact (setLower_mbc1 hm lower).symm

theorem afterAll_setLower {c : Cartridge τ} (h : c.controller.family = .mbc1)
    {ws : List (BusWrite τ)} (hws : ∀ w ∈ ws, ¬InBankRegister w.addr) (lower : UInt8) :
    (c.setLower lower).afterAll ws = (c.afterAll ws).setLower lower := by
  induction ws generalizing c with
  | nil => rfl
  | cons w ws ih =>
    have hfamily : (c.after w).controller.family = .mbc1 := (sameProgram_after c w).family.trans h
    show ((c.setLower lower).after w).afterAll ws = ((c.after w).afterAll ws).setLower lower
    rw [after_setLower h (hws w List.mem_cons_self)]
    exact ih hfamily fun w' hw' => hws w' (List.mem_cons_of_mem w hw')

/-! ## Zero and one -/

omit [Timeline τ] in
theorem currentBank?_setLower {c : Cartridge τ} (h : c.controller.family = .mbc1)
    (lower : UInt8) :
    (c.setLower lower).currentBank? =
      some (wrapBank (c.upperBits + lower.toNat) c.capability.romBanks) := by
  obtain ⟨m, hm⟩ := exists_mbc1 h
  unfold currentBank? upperBits
  rw [setLower_mbc1 hm, hm]
  rfl

omit [Timeline τ] in
theorem upperBits_setLower {c : Cartridge τ} (h : c.controller.family = .mbc1) (lower : UInt8) :
    (c.setLower lower).upperBits = c.upperBits := by
  obtain ⟨m, hm⟩ := exists_mbc1 h
  unfold upperBits
  rw [setLower_mbc1 hm, hm]
  rfl

omit [Timeline τ] in
theorem dvd_upperBits (c : Cartridge τ) : 32 ∣ c.upperBits := by
  unfold upperBits
  split
  · exact Mbc1.dvd_upper _
  all_goals exact Nat.dvd_zero 32

/-- The bank register of an MBC1 is written with zeros in the lower five bits in one run, and with
a one in another; whatever came before, and whatever is written to other addresses after it. Let
`r` be what is left of the upper bits when they are wrapped around at the number of banks. Then one
run shows bank `r + 1`, and the other bank `r`, or the first one if `r` is zero. So they agree
exactly if `r` is zero, as it is on every cartridge of at most thirty-two banks, and then they read
the same at every address. -/
theorem select_zero_one {now : τ} {image : ByteArray} {c : Cartridge τ}
    (h : ofBytes now image = .ok c) (hfamily : c.capability.family = .mbc1)
    (past : List (BusWrite τ)) {zero one : BusWrite τ} (hzero : InBankRegister zero.addr)
    (hone : InBankRegister one.addr) (hzeroVal : zero.val &&& 0x1F = 0)
    (honeVal : one.val &&& 0x1F = 1) {later : List (BusWrite τ)}
    (hlater : ∀ w ∈ later, ¬InBankRegister w.addr) :
    let c₀ := ((c.afterAll past).after zero).afterAll later
    let c₁ := ((c.afterAll past).after one).afterAll later
    let r := c₀.upperBits % c.capability.romBanks
    c₁.upperBits = c₀.upperBits ∧
    c₀.currentBank? = some (if r = 0 then 1 else r) ∧ c₁.currentBank? = some (r + 1) ∧
    (c₀.currentBank? = c₁.currentBank? ↔ r = 0) ∧
    (r = 0 → ∀ addr, c₀.read addr = c₁.read addr) ∧
    (c.capability.romBanks ≤ 32 → r = 0) := by
  intro c₀ c₁ r
  obtain ⟨-, hkind, htwo, -⟩ := image_of_ofBytes h
  obtain ⟨heven, hdvd⟩ : 2 ∣ c.capability.romBanks ∧
      (c.capability.romBanks ≤ 32 → c.capability.romBanks ∣ 32) := by
    obtain ⟨_, _, hheader, -, -, rfl⟩ := ofBytes_eq_ok_iff.1 h
    exact Capability.dvd_romBanks hheader
  have hpast : (c.afterAll past).controller.family = .mbc1 :=
    (sameProgram_afterAll c past).family.trans (hkind.trans hfamily)
  -- both runs are one and the same, but for the lower bits at its end
  let base := (c.afterAll past).afterAll later
  have hbase : base.controller.family = .mbc1 :=
    (sameProgram_afterAll _ later).family.trans hpast
  have hbanks : base.capability.romBanks = c.capability.romBanks := by
    rw [(sameProgram_afterAll _ later).capability, (sameProgram_afterAll c past).capability]
  have hc₀ : c₀ = base.setLower 0 := by
    show ((c.afterAll past).after zero).afterAll later = base.setLower 0
    rw [after_bankRegister hpast hzero, hzeroVal, afterAll_setLower hpast hlater]
  have hc₁ : c₁ = base.setLower 1 := by
    show ((c.afterAll past).after one).afterAll later = base.setLower 1
    rw [after_bankRegister hpast hone, honeVal, afterAll_setLower hpast hlater]
  have hr : r = base.upperBits % c.capability.romBanks := by
    show c₀.upperBits % c.capability.romBanks = _
    rw [hc₀, upperBits_setLower hbase]
  have hbank₀ : c₀.currentBank? = some (if r = 0 then 1 else r) := by
    rw [hc₀, currentBank?_setLower hbase, hbanks, hr]
    rfl
  have hbank₁ : c₁.currentBank? = some (r + 1) := by
    rw [hc₁, currentBank?_setLower hbase, hbanks, hr]
    have hupper : 2 ∣ base.upperBits := Nat.dvd_trans (by decide) base.dvd_upperBits
    exact congrArg some (wrapBank_succ hupper heven (by omega))
  have hiff : c₀.currentBank? = c₁.currentBank? ↔ r = 0 := by
    rw [hbank₀, hbank₁, Option.some.injEq]
    split <;> omega
  refine ⟨?_, hbank₀, hbank₁, hiff, fun hzero => ?_, fun hle => ?_⟩
  · rw [hc₀, hc₁, upperBits_setLower hbase, upperBits_setLower hbase]
  · have hsame := hiff.2 hzero
    rw [hc₀, hc₁] at hsame ⊢
    exact read_setLower hbase hsame
  · rw [hr]
    exact Nat.mod_eq_zero_of_dvd (Nat.dvd_trans (hdvd hle) base.dvd_upperBits)

/-! ## On more than thirty-two banks -/

/-- A write on the bus while the host has no files. -/
def plainWrite (addr : UInt16) (val : UInt8) : BusWrite Float :=
  ⟨⟨default, none, 0, 0, []⟩, addr, val⟩

/-- The cartridge made from seventy-two numbered banks. -/
def numberedCartridge : Cartridge Float where
  rom := numberedImage
  ram := ExternalRam.create 0
  capability := ⟨0x01, .mbc1, false, false, false, false, 0, 72⟩
  title := imageTitle numberedImage
  color := isColor numberedImage
  controller := .mbc1 .initial
  paths := none
  commit := none

theorem ofBytes_numberedImage : ofBytes 0 numberedImage = .ok numberedCartridge := by
  have hsize : 72 * romBankSize ≤ numberedImage.size := by
    unfold numberedImage
    rw [size_imageOf]
    decide
  exact ofBytes_eq_ok_iff.2 ⟨_, _, ofHeader_numberedImage, rfl, hsize, rfl⟩

/-- When the upper bits become a one, the banks with numbers 32 and 33 are shown, and when the mode
is switched after that, the same one again. -/
theorem select_zero_one_numbered :
    let zero := numberedCartridge.after (plainWrite 0x2000 0xE0)
    let one := numberedCartridge.after (plainWrite 0x3FFF 0x21)
    ((zero.afterAll [plainWrite 0x4000 1]).currentBank? = some 32 ∧
      (one.afterAll [plainWrite 0x4000 1]).currentBank? = some 33) ∧
    ∀ addr, (zero.afterAll [plainWrite 0x4000 1, plainWrite 0x6000 1]).read addr =
      (one.afterAll [plainWrite 0x4000 1, plainWrite 0x6000 1]).read addr := by
  have hzero : InBankRegister (plainWrite 0x2000 0xE0).addr := by decide
  have hone : InBankRegister (plainWrite 0x3FFF 0x21).addr := by decide
  have hupper : ∀ w ∈ [plainWrite 0x4000 1], ¬InBankRegister w.addr := by decide
  have hmode : ∀ w ∈ [plainWrite 0x4000 1, plainWrite 0x6000 1], ¬InBankRegister w.addr := by
    decide
  obtain ⟨-, hbank₀, hbank₁, -⟩ :=
    select_zero_one ofBytes_numberedImage rfl [] hzero hone (by decide) (by decide) hupper
  obtain ⟨-, -, -, -, hread, -⟩ :=
    select_zero_one ofBytes_numberedImage rfl [] hzero hone (by decide) (by decide) hmode
  exact ⟨⟨hbank₀, hbank₁⟩, hread rfl⟩

/-- Zeros in the lower bits are not the same as a one: with a one in the upper bits they select
bank 32. -/
theorem not_interchangeable_zero_one :
    ¬ ∀ (now : Float) (image : ByteArray) (c : Cartridge Float) (past later : List (BusWrite Float))
      (w : BusWrite Float),
      ofBytes now image = .ok c → c.capability.family = .mbc1 →
      InBankRegister w.addr → w.val &&& 0x1F = 0 → (∀ w ∈ later, ¬InBankRegister w.addr) →
      let c₀ := ((c.afterAll past).after w).afterAll later
      let c₁ := ((c.afterAll past).after { w with val := 1 }).afterAll later
      c₀.currentBank? = c₁.currentBank? ∧ ∀ addr < 0x8000, c₀.read addr = c₁.read addr := by
  intro hall
  have hsame := hall 0 numberedImage numberedCartridge [plainWrite 0x4000 1] []
    (plainWrite 0x2000 0) ofBytes_numberedImage rfl (by decide) (by decide) (by simp)
  exact absurd hsame.1 (by decide)

end Cartridge

end DotMatrix
