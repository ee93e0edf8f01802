import DotMatrix.Proofs.Cartridge.Battery

/-!
# External memory as a plain array

Reading and writing external memory go through the controller by two ways of their own. Both name
the same cell (`cell?`), so over any history of writes the memory behaves as an array: a read gives
what was written last to the cell that it names (`ram_refines_array`). A cell beyond the memory
reads as open bus, memory that is switched off cannot be touched, and the registers of the
controller never touch it.
-/

namespace DotMatrix

/-! ## Cells -/

namespace ExternalRam

theorem read_of_le {r : ExternalRam} {pos : Nat} (h : r.bytes.size ≤ pos) : r.read pos = 0xFF := by
  unfold read
  rw [Array.getElem?_eq_none h]
  rfl

theorem write_of_le {r : ExternalRam} {pos : Nat} (h : r.bytes.size ≤ pos) (val : UInt8) :
    r.write pos val = r :=
  dif_neg (Nat.not_lt.2 h)

/-- Also a write that leaves the memory alone because nothing would change is a write. -/
theorem bytes_write {r : ExternalRam} {pos : Nat} (h : pos < r.bytes.size) (val : UInt8) :
    (r.write pos val).bytes = r.bytes.set pos val := by
  unfold write
  rw [dif_pos h]
  split
  · rename_i hsame
    rw [← hsame, Array.set_getElem_self]
  · rfl

theorem read_write {r : ExternalRam} {pos : Nat} (h : pos < r.bytes.size) (val : UInt8)
    (other : Nat) : (r.write pos val).read other = if pos = other then val else r.read other := by
  unfold read
  rw [bytes_write h, Array.getElem?_set]
  split <;> rfl

theorem read_congr {r s : ExternalRam} (h : s.bytes = r.bytes) (pos : Nat) :
    s.read pos = r.read pos := by
  unfold read
  rw [h]

end ExternalRam

namespace Cartridge

variable {τ : Type}

/-! ## What the window shows -/

def InWindow (addr : UInt16) : Prop := 0xA000 ≤ addr ∧ addr < 0xC000

instance (addr : UInt16) : Decidable (InWindow addr) :=
  inferInstanceAs (Decidable (0xA000 ≤ addr ∧ addr < 0xC000))

/-- External memory is switched on; without a controller it always is. -/
def ramOn (c : Cartridge τ) : Bool :=
  match c.controller with
  | .fixed => true
  | .mbc1 m => m.ramEnabled
  | .mbc3 m => m.ramEnabled

/-- The bank of external memory that is selected; none while a clock register is. -/
def ramBank? (c : Cartridge τ) : Option Nat :=
  match c.controller with
  | .fixed => some 0
  | .mbc1 m => some (if m.mode = 1 then m.high.toNat else 0)
  | .mbc3 m =>
    match m.select with
    | .ram bank => some bank.toNat
    | .clock _ => none

/-- The memory repeats in the window: two kilobytes behind an MBC1. -/
def ramRepeats (c : Cartridge τ) : Bool :=
  match c.controller with
  | .mbc1 _ => c.ram.size = 0x800
  | _ => false

/-- The cell of a bank at an address in the window. -/
def ramCell (c : Cartridge τ) (bank : Nat) (addr : UInt16) : Nat :=
  let cell := bank * 0x2000 + (addr.toNat - 0xA000)
  if c.ramRepeats then cell % 0x800 else cell

/-- The cell of external memory that an address names, if it names one. -/
def cell? (c : Cartridge τ) (addr : UInt16) : Option Nat :=
  if InWindow addr ∧ c.ramOn = true then c.ramBank?.map (c.ramCell · addr) else none

theorem cell?_eq_some {c : Cartridge τ} {addr : UInt16} {pos : Nat}
    (h : c.cell? addr = some pos) :
    InWindow addr ∧ c.ramOn = true ∧
      ∃ bank, c.ramBank? = some bank ∧ c.ramCell bank addr = pos := by
  unfold cell? at h
  split at h
  · rename_i hopen
    exact ⟨hopen.1, hopen.2, Option.map_eq_some_iff.1 h⟩
  · cases h

theorem read_of_window {c : Cartridge τ} {addr : UInt16} (h : InWindow addr) :
    c.read addr = c.readExternal (addr.toNat - 0xA000) := by
  have hlo := UInt16.le_iff_toNat_le.1 h.1
  have hnot (bound : UInt16) (hbound : bound.toNat ≤ 0xA000) : ¬addr < bound := by
    rw [UInt16.lt_iff_toNat_lt]
    exact Nat.not_lt.2 (Nat.le_trans hbound hlo)
  unfold read
  rw [if_neg (hnot 0x4000 (by decide)), if_neg (hnot 0x8000 (by decide)),
    if_pos (by simp only [h.1, h.2, decide_true, Bool.and_self])]

variable [Timeline τ]

theorem write_of_window {c : Cartridge τ} {addr : UInt16} (h : InWindow addr) (host : Host τ)
    (val : UInt8) : c.write host addr val = c.writeExternal host (addr.toNat - 0xA000) val := by
  have hnot : ¬addr < 0x8000 := by
    rw [UInt16.lt_iff_toNat_lt]
    exact Nat.not_lt.2 (Nat.le_trans (by decide) (UInt16.le_iff_toNat_le.1 h.1))
  unfold write
  rw [if_neg hnot, if_pos (by simp only [h.1, h.2, decide_true, Bool.and_self])]

/-! ## Reading and writing a cell -/

/-- At an offset into the window, reads and writes find a cell of the memory. -/
structure Shows (c : Cartridge τ) (offset pos : Nat) : Prop where
  read : c.readExternal offset = c.ram.read pos
  write : ∀ host val,
    c.writeExternal host offset val = ({ c with ram := c.ram.write pos val }, host)

section Controllers

variable {c : Cartridge τ}

theorem shows_fixed (h : c.controller = .fixed) (offset : Nat) : c.Shows offset offset := by
  constructor
  · unfold readExternal
    rw [h]
  · intro host val
    unfold writeExternal
    rw [h]

theorem shows_mbc1 {m : Mbc1} (h : c.controller = .mbc1 m) (hon : m.ramEnabled = true)
    (offset : Nat) : c.Shows offset (m.ramOffset c.ram.size offset) := by
  constructor
  · unfold readExternal
    rw [h]
    exact if_pos hon
  · intro host val
    unfold writeExternal
    rw [h]
    exact if_pos hon

theorem shows_mbc3 {m : Mbc3 τ} {bank : UInt8} (h : c.controller = .mbc3 m)
    (hon : m.ramEnabled = true) (hselect : m.select = .ram bank) (offset : Nat) :
    c.Shows offset (bank.toNat * ramBankSize + offset) := by
  have hnot : ¬(!m.ramEnabled) = true := by simp [hon]
  constructor
  · unfold readExternal
    rw [h]
    dsimp only
    rw [if_neg hnot, hselect]
  · intro host val
    unfold writeExternal
    rw [h]
    dsimp only
    rw [if_neg hnot, hselect]

omit [Timeline τ] in
theorem ramCell_of_not_repeats (h : c.ramRepeats = false) (bank : Nat) (addr : UInt16) :
    c.ramCell bank addr = bank * ramBankSize + (addr.toNat - 0xA000) := by
  unfold ramCell
  rw [h]
  rfl

omit [Timeline τ] in
theorem ramCell_mbc1 {m : Mbc1} (h : c.controller = .mbc1 m) (addr : UInt16) :
    c.ramCell (if m.mode = 1 then m.high.toNat else 0) addr =
      m.ramOffset c.ram.size (addr.toNat - 0xA000) := by
  have hrepeats : c.ramRepeats = decide (c.ram.size = 0x800) := by
    unfold ramRepeats
    rw [h]
  unfold ramCell Mbc1.ramOffset
  rw [hrepeats]
  simp only [decide_eq_true_eq]
  rfl

/-- The cell that an address names is the one that reads and writes find. -/
theorem shows_of_cell {addr : UInt16} {pos : Nat} (h : c.cell? addr = some pos) :
    c.Shows (addr.toNat - 0xA000) pos := by
  obtain ⟨-, hon, bank, hbank, rfl⟩ := cell?_eq_some h
  unfold ramOn at hon
  unfold ramBank? at hbank
  cases hcontroller : c.controller with
  | fixed =>
    rw [hcontroller] at hbank
    obtain rfl := Option.some.inj hbank
    rw [ramCell_of_not_repeats (by unfold ramRepeats; rw [hcontroller]), Nat.zero_mul,
      Nat.zero_add]
    exact shows_fixed hcontroller _
  | mbc1 m =>
    rw [hcontroller] at hon hbank
    obtain rfl := Option.some.inj hbank
    rw [ramCell_mbc1 hcontroller]
    exact shows_mbc1 hcontroller hon _
  | mbc3 m =>
    rw [hcontroller] at hon hbank
    cases hselect : m.select with
    | ram selected =>
      simp only [hselect, Option.some.injEq] at hbank
      subst hbank
      rw [ramCell_of_not_repeats (by unfold ramRepeats; rw [hcontroller])]
      exact shows_mbc3 hcontroller hon hselect _
    | clock register => simp [hselect] at hbank

/-- While the memory is switched off, nothing can be read, and a write changes nothing. -/
theorem external_of_off (h : c.ramOn = false) (offset : Nat) :
    c.readExternal offset = 0xFF ∧ ∀ host val, c.writeExternal host offset val = (c, host) := by
  unfold ramOn at h
  cases hcontroller : c.controller with
  | fixed =>
    rw [hcontroller] at h
    cases h
  | mbc1 m =>
    rw [hcontroller] at h
    have hoff : ¬m.ramEnabled = true := by simp [show m.ramEnabled = false from h]
    unfold readExternal writeExternal
    rw [hcontroller]
    exact ⟨if_neg hoff, fun _ _ => if_neg hoff⟩
  | mbc3 m =>
    rw [hcontroller] at h
    have hoff : (!m.ramEnabled) = true := by simp [show m.ramEnabled = false from h]
    unfold readExternal writeExternal
    rw [hcontroller]
    exact ⟨if_pos hoff, fun _ _ => if_pos hoff⟩

/-- A write to the window that names no cell goes to a clock register, or nowhere. -/
theorem ram_writeExternal_of_no_bank (h : c.ramBank? = none) (host : Host τ) (offset : Nat)
    (val : UInt8) : (c.writeExternal host offset val).1.ram = c.ram := by
  unfold ramBank? at h
  split at h
  · cases h
  · cases h
  · rename_i m hcontroller
    split at h
    · cases h
    · rename_i register hselect
      unfold writeExternal
      rw [hcontroller]
      dsimp only
      split
      · rfl
      · rw [hselect]
        split
        · rename_i hram
          cases hram
        · obtain ⟨controller, hsaved⟩ := (clockSaved_saveClock _ host false).cartridge
          rw [hsaved]
        · rfl

end Controllers

/-! ## Registers -/

omit [Timeline τ] in
theorem bytes_commitRam (c : Cartridge τ) : c.commitRam.ram.bytes = c.ram.bytes := by
  unfold commitRam uncommitted
  split <;> rename_i h <;> split at h <;> cases h <;> rfl

/-- Writing a register of the controller may mark the memory as unmodified, but leaves its contents
alone. -/
theorem bytes_writeRegister (c : Cartridge τ) (now : τ) (addr : UInt16) (val : UInt8) :
    (c.writeRegister now addr val).ram.bytes = c.ram.bytes := by
  unfold writeRegister
  split
  · rfl
  all_goals
    split
    · dsimp only
      split
      · exact bytes_commitRam _
      · rfl
    · split
      · rfl
      · split <;> rfl

theorem bytes_write_of_no_cell {c : Cartridge τ} {addr : UInt16} (h : c.cell? addr = none)
    (host : Host τ) (val : UInt8) : (c.write host addr val).1.ram.bytes = c.ram.bytes := by
  by_cases hwindow : InWindow addr
  · rw [write_of_window hwindow]
    cases hon : c.ramOn with
    | false => rw [(external_of_off hon _).2]
    | true =>
      have hbank : c.ramBank? = none := by
        unfold cell? at h
        rw [if_pos ⟨hwindow, hon⟩] at h
        exact Option.map_eq_none_iff.1 h
      rw [ram_writeExternal_of_no_bank hbank]
  · unfold write
    split
    · exact bytes_writeRegister c host.calendar addr val
    · split
      · rename_i hinside
        exact absurd (by simpa [InWindow] using hinside) hwindow
      · rfl

/-! ## Histories -/

/-- A write on the bus, and the host at that time. -/
structure BusWrite (τ : Type) where
  host : Host τ
  addr : UInt16
  val : UInt8

/-- The cartridge after a write. -/
def after (c : Cartridge τ) (w : BusWrite τ) : Cartridge τ := (c.write w.host w.addr w.val).1

def afterAll (c : Cartridge τ) (ws : List (BusWrite τ)) : Cartridge τ := ws.foldl after c

/-- The value that was written last to a cell in the course of the writes, if any was: a write
counts if its address named the cell when it was made. -/
def lastWritten? (c : Cartridge τ) (pos : Nat) : List (BusWrite τ) → Option UInt8
  | [] => none
  | w :: ws =>
    (lastWritten? (c.after w) pos ws).or (if c.cell? w.addr = some pos then some w.val else none)

/-- One write to the array. -/
theorem read_after (c : Cartridge τ) (w : BusWrite τ) :
    (c.after w).ram.size = c.ram.size ∧ ∀ pos < c.ram.size,
      (c.after w).ram.read pos =
        (if c.cell? w.addr = some pos then some w.val else none).getD (c.ram.read pos) := by
  cases hcell : c.cell? w.addr with
  | none =>
    have hbytes := bytes_write_of_no_cell hcell w.host w.val
    refine ⟨congrArg Array.size hbytes, fun pos _ => ?_⟩
    exact ExternalRam.read_congr hbytes pos
  | some target =>
    have hwrite : c.after w = { c with ram := c.ram.write target w.val } := by
      unfold after
      rw [write_of_window (cell?_eq_some hcell).1, (shows_of_cell hcell).write]
    rw [hwrite]
    refine ⟨c.ram.size_write target w.val, fun pos hpos => ?_⟩
    show (c.ram.write target w.val).read pos = _
    rcases Nat.lt_or_ge target c.ram.bytes.size with hinside | hbeyond
    · rw [ExternalRam.read_write hinside]
      by_cases htarget : target = pos
      · simp [htarget]
      · simp [htarget]
    · -- the cell written to lies beyond the memory, so it is another one
      have htarget : target ≠ pos := by
        rintro rfl
        exact absurd hpos (Nat.not_lt.2 hbeyond)
      rw [ExternalRam.write_of_le hbeyond]
      simp [htarget]

/-- Any number of writes. -/
theorem read_afterAll (c : Cartridge τ) (ws : List (BusWrite τ)) :
    (c.afterAll ws).ram.size = c.ram.size ∧ ∀ pos < c.ram.size,
      (c.afterAll ws).ram.read pos = (c.lastWritten? pos ws).getD (c.ram.read pos) := by
  induction ws generalizing c with
  | nil => exact ⟨rfl, fun _ _ => rfl⟩
  | cons w ws ih =>
    obtain ⟨hsize, hread⟩ := read_after c w
    obtain ⟨hsizes, hreads⟩ := ih (c.after w)
    refine ⟨hsizes.trans hsize, fun pos hpos => ?_⟩
    have hlater := hreads pos (hsize ▸ hpos)
    rw [hread pos hpos] at hlater
    refine hlater.trans ?_
    rw [lastWritten?, Option.getD_or]

/-- External memory is an array over all histories of writes. With the memory switched on and a
bank selected, a read gives the value written last to the cell that the address names, or what the
cell held at first; a cell beyond the memory reads as `0xFF`, and writing it changes nothing. With
the memory switched off the whole window reads as `0xFF` and writing it changes nothing. Writes to
registers, of the controller or of the clock, never change the memory. -/
theorem ram_refines_array (c : Cartridge τ) (ws : List (BusWrite τ)) :
    let c' := c.afterAll ws
    (∀ addr pos, c'.cell? addr = some pos →
      c'.read addr =
        if pos < c.ram.size then (c.lastWritten? pos ws).getD (c.ram.read pos) else 0xFF) ∧
    (∀ addr pos, c'.cell? addr = some pos → c.ram.size ≤ pos →
      ∀ host val, c'.write host addr val = (c', host)) ∧
    (c'.ramOn = false → ∀ addr, InWindow addr →
      c'.read addr = 0xFF ∧ ∀ host val, c'.write host addr val = (c', host)) ∧
    (∀ addr, ¬InWindow addr ∨ c'.ramBank? = none →
      ∀ host val, (c'.write host addr val).1.ram.bytes = c'.ram.bytes) := by
  intro c'
  obtain ⟨hsize, hread⟩ := read_afterAll c ws
  refine ⟨fun addr pos hcell => ?_, fun addr pos hcell hbeyond host val => ?_,
    fun hoff addr hwindow => ?_, fun addr hother host val => ?_⟩
  · rw [read_of_window (cell?_eq_some hcell).1, (shows_of_cell hcell).read]
    split
    · rename_i hpos
      exact hread pos hpos
    · rename_i hpos
      exact ExternalRam.read_of_le (Nat.le_trans (Nat.le_of_eq hsize) (Nat.not_lt.1 hpos))
  · rw [write_of_window (cell?_eq_some hcell).1, (shows_of_cell hcell).write,
      ExternalRam.write_of_le (Nat.le_trans (Nat.le_of_eq hsize) hbeyond)]
  · rw [read_of_window hwindow]
    refine ⟨(external_of_off hoff _).1, fun host val => ?_⟩
    rw [write_of_window hwindow, (external_of_off hoff _).2]
  · refine bytes_write_of_no_cell ?_ host val
    rcases hother with houtside | hbank
    · exact if_neg (fun hopen => houtside hopen.1)
    · unfold cell?
      rw [hbank]
      exact ite_self _

/-- An MBC1 with one bank of memory. -/
def oneBank : Cartridge Float where
  rom := .empty
  ram := ⟨Array.replicate 0x2000 1, false, none⟩
  capability := ⟨3, .mbc1, true, true, false, false, 0x2000, 2⟩
  title := ""
  color := false
  controller := .mbc1 .initial
  paths := none
  commit := none

/-- Switches the memory on, writes a cell, and writes the same address in a bank that there is
not. -/
def bankTrip : List (BusWrite Float) :=
  [(0x0000, 0x0A), (0xA001, 0x42), (0x4000, 0x01), (0x6000, 0x01), (0xA001, 0x43)].map
    (fun (addr, val) => ⟨⟨default, none, 0, 0, []⟩, addr, val⟩)

/-- Back to the first bank. -/
def tripBack : BusWrite Float := ⟨⟨default, none, 0, 0, []⟩, 0x6000, 0x00⟩

theorem ram_refines_array_bankTrip :
    (oneBank.afterAll bankTrip).read 0xA001 = 0xFF ∧
      (oneBank.afterAll (bankTrip ++ [tripBack])).read 0xA001 = 0x42 ∧
      (oneBank.afterAll (bankTrip ++ [tripBack])).read 0xA002 = 1 := by
  obtain ⟨hbeyond, -⟩ := ram_refines_array oneBank bankTrip
  obtain ⟨hread, -⟩ := ram_refines_array oneBank (bankTrip ++ [tripBack])
  exact ⟨(hbeyond 0xA001 0x2001 (by decide +kernel)).trans (by decide +kernel),
    (hread 0xA001 1 (by decide +kernel)).trans (by decide +kernel),
    (hread 0xA002 2 (by decide +kernel)).trans (by decide +kernel)⟩

end Cartridge

end DotMatrix
