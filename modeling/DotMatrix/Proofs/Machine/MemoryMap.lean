import DotMatrix.Proofs.Machine.ObjectCopy

/-!
# Memory on the bus

Of all that a program can write to, four memories keep what is written as it is: work memory, most
of which has two addresses, the last page, and the two memories of the display while these are
open. `Cell.Names` says which byte of them an address names. A write there changes this byte and
nothing else, and no address but those that name it shows the change. A write to a memory that is
shut, or to an address that belongs to nothing, changes nothing at all (`write_touches_one_cell`).
-/

namespace DotMatrix

variable {τ : Type}

/-! ## Cells -/

/-- A byte of one of the memories on the bus. -/
inductive Cell where
  | work (i : Fin 0x2000)
  | high (i : Fin 0x7F)
  | video (i : Fin 0x2000)
  | object (i : Fin 0xA0)
deriving DecidableEq, Repr

namespace Cell

/-- The first address of a byte. -/
def home : Cell → Nat
  | .work i => 0xC000 + i
  | .high i => 0xFF80 + i
  | .video i => 0x8000 + i
  | .object i => 0xFE00 + i

/-- The addresses of a byte. Work memory has a second address, but for its end. -/
def Named (c : Cell) (addr : UInt16) : Prop :=
  addr.toNat = c.home ∨ addr.toNat = c.home + 0x2000 ∧ 0xE000 ≤ addr.toNat ∧ addr.toNat < 0xFE00

instance (c : Cell) (addr : UInt16) : Decidable (c.Named addr) := inferInstanceAs (Decidable (_ ∨ _))

theorem home_range (c : Cell) :
    (0x8000 ≤ c.home ∧ c.home < 0xA000) ∨ (0xC000 ≤ c.home ∧ c.home < 0xE000) ∨
      (0xFE00 ≤ c.home ∧ c.home < 0xFEA0) ∨ 0xFF80 ≤ c.home ∧ c.home < 0xFFFF := by
  cases c <;> simp only [home] <;> omega

theorem home_inj {c c' : Cell} (h : c.home = c'.home) : c = c' := by
  -- the memories do not overlap
  cases c <;> cases c' <;> simp [home, Fin.ext_iff] at h ⊢ <;> omega

theorem exists_home {n : Nat}
    (h : (0x8000 ≤ n ∧ n < 0xA000) ∨ (0xC000 ≤ n ∧ n < 0xE000) ∨ (0xFE00 ≤ n ∧ n < 0xFEA0) ∨
      0xFF80 ≤ n ∧ n < 0xFFFF) : ∃ c : Cell, c.home = n := by
  rcases h with ⟨hlo, hhi⟩ | ⟨hlo, hhi⟩ | ⟨hlo, hhi⟩ | ⟨hlo, hhi⟩
  · exact ⟨.video ⟨n - 0x8000, by omega⟩, Nat.add_sub_cancel' hlo⟩
  · exact ⟨.work ⟨n - 0xC000, by omega⟩, Nat.add_sub_cancel' hlo⟩
  · exact ⟨.object ⟨n - 0xFE00, by omega⟩, Nat.add_sub_cancel' hlo⟩
  · exact ⟨.high ⟨n - 0xFF80, by omega⟩, Nat.add_sub_cancel' hlo⟩

/-- The addresses that name a byte. -/
theorem exists_named_iff {addr : UInt16} :
    (∃ c : Cell, c.Named addr) ↔
      (0x8000 ≤ addr.toNat ∧ addr.toNat < 0xA000) ∨ (0xC000 ≤ addr.toNat ∧ addr.toNat < 0xFEA0) ∨
        0xFF80 ≤ addr.toNat ∧ addr.toNat < 0xFFFF := by
  constructor
  · rintro ⟨c, hc⟩
    have hrange := c.home_range
    unfold Named at hc
    omega
  · intro h
    by_cases hecho : 0xE000 ≤ addr.toNat ∧ addr.toNat < 0xFE00
    · obtain ⟨c, hc⟩ := exists_home (n := addr.toNat - 0x2000) (by omega)
      exact ⟨c, .inr (by omega)⟩
    · obtain ⟨c, hc⟩ := exists_home (n := addr.toNat) (by omega)
      exact ⟨c, .inl hc.symm⟩

/-- An address names no more than one byte. -/
theorem Named.unique {c c' : Cell} {addr : UInt16} (h : c.Named addr) (h' : c'.Named addr) :
    c = c' := by
  have hc := c.home_range
  have hc' := c'.home_range
  refine home_inj ?_
  unfold Named at h h'
  omega

end Cell

/-- Two addresses name the same byte: they are the same, or one is the second address of what the
other names. -/
def SameCell (addr other : UInt16) : Prop :=
  other = addr ∨ (0xC000 ≤ addr ∧ addr ≤ 0xDDFF ∧ other = addr + 0x2000) ∨
    0xE000 ≤ addr ∧ addr ≤ 0xFDFF ∧ other = addr - 0x2000

instance (addr other : UInt16) : Decidable (SameCell addr other) :=
  inferInstanceAs (Decidable (_ ∨ _))

theorem sameCell_iff {c : Cell} {addr : UInt16} (h : c.Named addr) (other : UInt16) :
    SameCell addr other ↔ c.Named other := by
  have haddr := addr.toNat_lt
  have hother := other.toNat_lt
  have hrange := c.home_range
  unfold SameCell
  simp only [← UInt16.toNat_inj, UInt16.le_iff_toNat_le, UInt16.toNat_add, UInt16.toNat_sub,
    UInt16.reduceToNat]
  unfold Cell.Named at h ⊢
  omega

/-- The address belongs to nothing: between object memory and the devices, and between these. -/
def Unmapped (addr : UInt16) : Prop :=
  (0xFEA0 ≤ addr ∧ addr ≤ 0xFEFF) ∨ addr = 0xFF03 ∨ (0xFF08 ≤ addr ∧ addr ≤ 0xFF0E) ∨
    0xFF4C ≤ addr ∧ addr ≤ 0xFF7F ∧ addr ≠ 0xFF50

namespace Bus

/-! ## Reading and writing a cell -/

/-- The byte itself, whether or not a program gets at it. -/
def cell (b : Bus τ) : Cell → UInt8
  | .work i => b.work.read i
  | .high i => b.high.read i
  | .video i => b.display.vram.read i
  | .object i => b.display.oam.read i

/-- The bus with other contents of its memories. -/
def withMemories (b : Bus τ) (work : Memory 0x2000) (high : Memory 0x7F)
    (vram : Memory Display.videoSize) (oam : Memory Display.objectSize) : Bus τ :=
  { b with work, high, display := { b.display with vram, oam } }

def setCell (b : Bus τ) (c : Cell) (val : UInt8) : Bus τ :=
  match c with
  | .work i => { b with work := b.work.write i val }
  | .high i => { b with high := b.high.write i val }
  | .video i => { b with display := { b.display with vram := b.display.vram.write i val } }
  | .object i => { b with display := { b.display with oam := b.display.oam.write i val } }

/-- A program gets at the byte. -/
def shows (b : Bus τ) : Cell → Bool
  | .work _ => true
  | .high _ => true
  | .video _ => b.display.videoOpen
  | .object _ => b.display.objectsOpen

theorem setCell_eq_withMemories (b : Bus τ) (c : Cell) (val : UInt8) :
    ∃ work high vram oam, b.setCell c val = b.withMemories work high vram oam := by
  cases c <;> exact ⟨_, _, _, _, rfl⟩

theorem cell_setCell (b : Bus τ) (c c' : Cell) (val : UInt8) :
    (b.setCell c val).cell c' = if c' = c then val else b.cell c' := by
  have hvideo : ∀ i : Fin 0x2000, i.val < Display.videoSize := Fin.isLt
  have hobject : ∀ i : Fin 0xA0, i.val < Display.objectSize := Fin.isLt
  cases c <;> cases c' <;>
    simp [setCell, cell, Memory.read_write, Fin.ext_iff, eq_comm, hvideo, hobject]

theorem shows_setCell (b : Bus τ) (c c' : Cell) (val : UInt8) :
    (b.setCell c val).shows c' = b.shows c' := by
  cases c <;> cases c' <;> rfl

/-- A program sees the byte at each of its addresses, unless the memory that it is in is shut. -/
theorem read_of_named (b : Bus τ) {c : Cell} {addr : UInt16} (h : c.Named addr) :
    b.read addr = if b.shows c then b.cell c else 0xFF := by
  simp only [read, UInt16.lt_iff_toNat_lt, UInt16.reduceToNat]
  cases c with
  | work i =>
    rcases h with h | ⟨h, hlo, hhi⟩ <;> simp only [Cell.home] at h
    · simp (disch := omega) only [if_neg, if_pos]
      rw [show addr.toNat - 0xC000 = i by omega]
      rfl
    · simp (disch := omega) only [if_neg, if_pos]
      rw [show addr.toNat - 0xE000 = i by omega]
      rfl
  | high i =>
    have haddr : addr.toNat = 0xFF80 + i := by
      simp only [Cell.Named, Cell.home] at h
      omega
    simp (disch := omega) only [if_neg, if_pos]
    rw [show addr.toNat - 0xFF80 = i by omega]
    rfl
  | video i =>
    have haddr : addr.toNat = 0x8000 + i := by
      simp only [Cell.Named, Cell.home] at h
      omega
    rw [if_neg (by omega), if_pos (by omega), show addr.toNat - 0x8000 = i by omega]
    rfl
  | object i =>
    have haddr : addr.toNat = 0xFE00 + i := by
      simp only [Cell.Named, Cell.home] at h
      omega
    rw [if_neg (by omega), if_neg (by omega), if_neg (by omega), if_neg (by omega),
      if_neg (by omega), if_pos (by omega), show addr.toNat - 0xFE00 = i by omega]
    rfl

/-- What is no memory does not show what is in the memories. -/
theorem read_withMemories_of_unnamed (b : Bus τ) (work : Memory 0x2000) (high : Memory 0x7F)
    (vram : Memory Display.videoSize) (oam : Memory Display.objectSize) {addr : UInt16}
    (h : ¬ ∃ c : Cell, c.Named addr) :
    (b.withMemories work high vram oam).read addr = b.read addr := by
  have hlt := addr.toNat_lt
  rw [Cell.exists_named_iff] at h
  simp only [read, UInt16.lt_iff_toNat_lt, UInt16.reduceToNat]
  by_cases hprogram : addr.toNat < 0x8000
  · rw [if_pos hprogram, if_pos hprogram]
    rfl
  · by_cases hexternal : addr.toNat < 0xC000
    · simp (disch := omega) only [if_neg, if_pos]
      rfl
    · -- what is left are the unused addresses, the devices, and the interrupts that are enabled
      simp (disch := omega) only [if_neg]
      rfl

theorem read_setCell (b : Bus τ) (c : Cell) (val : UInt8) (addr : UInt16) :
    (b.setCell c val).read addr =
      if c.Named addr then (if b.shows c then val else 0xFF) else b.read addr := by
  by_cases hnamed : ∃ c' : Cell, c'.Named addr
  · obtain ⟨c', hc'⟩ := hnamed
    rw [read_of_named _ hc', read_of_named _ hc', shows_setCell, cell_setCell]
    by_cases hsame : c' = c
    · subst hsame
      rw [if_pos rfl, if_pos hc']
    · rw [if_neg hsame, if_neg fun h => hsame (hc'.unique h)]
  · obtain ⟨work, high, vram, oam, hset⟩ := b.setCell_eq_withMemories c val
    rw [hset, read_withMemories_of_unnamed _ _ _ _ _ hnamed, if_neg fun h => hnamed ⟨c, h⟩]

variable [Timeline τ]

/-- A program writes the byte at each of its addresses, unless the memory that it is in is
shut. -/
theorem write_of_named (b : Bus τ) {c : Cell} {addr : UInt16} (h : c.Named addr) (val : UInt8) :
    b.write addr val = if b.shows c then b.setCell c val else b := by
  simp only [write, UInt16.lt_iff_toNat_lt, UInt16.reduceToNat]
  cases c with
  | work i =>
    rcases h with h | ⟨h, hlo, hhi⟩ <;> simp only [Cell.home] at h
    · simp (disch := omega) only [if_neg, if_pos]
      rw [show addr.toNat - 0xC000 = i by omega]
      rfl
    · simp (disch := omega) only [if_neg, if_pos]
      rw [show addr.toNat - 0xE000 = i by omega]
      rfl
  | high i =>
    have haddr : addr.toNat = 0xFF80 + i := by
      simp only [Cell.Named, Cell.home] at h
      omega
    simp (disch := omega) only [if_neg, if_pos]
    rw [show addr.toNat - 0xFF80 = i by omega]
    rfl
  | video i =>
    have haddr : addr.toNat = 0x8000 + i := by
      simp only [Cell.Named, Cell.home] at h
      omega
    rw [if_neg (by omega), if_pos (by omega), show addr.toNat - 0x8000 = i by omega]
    unfold Display.writeVideo shows
    split <;> rfl
  | object i =>
    have haddr : addr.toNat = 0xFE00 + i := by
      simp only [Cell.Named, Cell.home] at h
      omega
    rw [if_neg (by omega), if_neg (by omega), if_neg (by omega), if_neg (by omega),
      if_neg (by omega), if_pos (by omega), show addr.toNat - 0xFE00 = i by omega]
    unfold Display.writeObjects shows
    split <;> rfl

theorem write_of_unmapped (b : Bus τ) {addr : UInt16} (h : Unmapped addr) (val : UInt8) :
    b.write addr val = b := by
  simp only [Unmapped, ← UInt16.toNat_inj, UInt16.le_iff_toNat_le, UInt16.reduceToNat, ne_eq] at h
  simp only [write, UInt16.lt_iff_toNat_lt, UInt16.reduceToNat]
  by_cases hunused : addr.toNat < 0xFF00
  · simp (disch := omega) only [if_neg, if_pos]
  · simp (disch := omega) only [if_neg, if_pos]
    simp only [writeDevice, Bool.and_eq_true, decide_eq_true_eq, UInt16.le_iff_toNat_le,
      ← UInt16.toNat_inj, UInt16.reduceToNat]
    simp (disch := omega) only [if_neg]
    -- the addresses of devices that are left are none of these
    split
    case h_6 => rfl
    all_goals simp at h

omit [Timeline τ] in
/-- The two memories of the display can be shut, and no others. -/
theorem shows_iff (b : Bus τ) {c : Cell} {addr : UInt16} (h : c.Named addr) :
    b.shows c = true ↔
      (0x8000 ≤ addr.toNat ∧ addr.toNat < 0xA000 → b.display.videoOpen = true) ∧
        (0xFE00 ≤ addr.toNat ∧ addr.toNat < 0xFEA0 → b.display.objectsOpen = true) := by
  cases c <;> simp only [Cell.Named, Cell.home] at h <;> simp only [shows] <;> grind

/-! ## Where writes go -/

/-- The address is one of memory that a program gets at. -/
def Writable (b : Bus τ) (addr : UInt16) : Prop :=
  (0xC000 ≤ addr ∧ addr ≤ 0xFDFF) ∨ (0xFF80 ≤ addr ∧ addr ≤ 0xFFFE) ∨
    (0x8000 ≤ addr ∧ addr ≤ 0x9FFF ∧ b.display.videoOpen = true) ∨
    0xFE00 ≤ addr ∧ addr ≤ 0xFE9F ∧ b.display.objectsOpen = true

/-- The address is one of memory that is shut, or belongs to nothing. -/
def Inert (b : Bus τ) (addr : UInt16) : Prop :=
  (0x8000 ≤ addr ∧ addr ≤ 0x9FFF ∧ b.display.videoOpen = false) ∨
    (0xFE00 ≤ addr ∧ addr ≤ 0xFE9F ∧ b.display.objectsOpen = false) ∨ Unmapped addr

omit [Timeline τ] in
theorem Writable.exists_cell {b : Bus τ} {addr : UInt16} (h : b.Writable addr) :
    ∃ c : Cell, c.Named addr ∧ b.shows c = true := by
  simp only [Writable, UInt16.le_iff_toNat_le, UInt16.reduceToNat] at h
  have hnamed : ∃ c : Cell, c.Named addr := Cell.exists_named_iff.2 (by omega)
  obtain ⟨c, hc⟩ := hnamed
  refine ⟨c, hc, (b.shows_iff hc).2 ⟨fun hvideo => ?_, fun hobjects => ?_⟩⟩
  · rcases h with h | h | h | h
    · omega
    · omega
    · exact h.2.2
    · omega
  · rcases h with h | h | h | h
    · omega
    · omega
    · omega
    · exact h.2.2

theorem write_of_inert {b : Bus τ} {addr : UInt16} (h : b.Inert addr) (val : UInt8) :
    b.write addr val = b := by
  have hshut : (∃ c : Cell, c.Named addr) → (∀ c : Cell, c.Named addr → b.shows c ≠ true) →
      b.write addr val = b := by
    rintro ⟨c, hc⟩ hshut
    rw [b.write_of_named hc, if_neg (hshut c hc)]
  simp only [Inert, UInt16.le_iff_toNat_le, UInt16.reduceToNat] at h
  rcases h with ⟨hlo, hhi, hvideo⟩ | ⟨hlo, hhi, hobjects⟩ | hunmapped
  · refine hshut (Cell.exists_named_iff.2 (by omega)) fun c hc hopen => ?_
    rw [((b.shows_iff hc).1 hopen).1 (by omega)] at hvideo
    cases hvideo
  · refine hshut (Cell.exists_named_iff.2 (by omega)) fun c hc hopen => ?_
    rw [((b.shows_iff hc).1 hopen).2 (by omega)] at hobjects
    cases hobjects
  · exact b.write_of_unmapped hunmapped val

/-- What is written to memory that a program gets at shows at the addresses of the byte. -/
theorem read_write {b : Bus τ} {addr : UInt16} (h : b.Writable addr) (other : UInt16)
    (val : UInt8) :
    (b.write addr val).read other = if SameCell addr other then val else b.read other := by
  obtain ⟨c, hc, hopen⟩ := h.exists_cell
  have hread := b.read_setCell c val other
  rw [if_pos hopen] at hread
  rw [b.write_of_named hc, if_pos hopen, hread]
  simp only [sameCell_iff hc]

/-- A write to memory that a program gets at changes the one byte that the address names and
nothing else. The byte shows at this address and, if it is one of work memory, at the other one
that it has; what all other addresses show stays, also once both memories of the display are open.
A write to memory that is shut, or to an address that belongs to nothing, changes nothing at
all. -/
theorem write_touches_one_cell (b : Bus τ) (addr other : UInt16) (val : UInt8) :
    (b.Writable addr →
      (b.write addr val).read other = (if SameCell addr other then val else b.read other) ∧
        (b.write addr val).opened.read other =
          (if SameCell addr other then val else b.opened.read other) ∧
        ∃ work high vram oam, b.write addr val = b.withMemories work high vram oam) ∧
      (b.Inert addr → b.write addr val = b) := by
  refine ⟨fun h => ⟨read_write h other val, ?_⟩, fun h => write_of_inert h val⟩
  obtain ⟨c, hc, hopen⟩ := h.exists_cell
  have hopened := b.opened.read_setCell c val other
  -- opening the memories and setting a byte do not get in each other's way
  have hswap : (b.setCell c val).opened = b.opened.setCell c val := by
    cases c <;> rfl
  have hshown : b.opened.shows c = true := by
    cases c <;> rfl
  rw [if_pos hshown] at hopened
  rw [b.write_of_named hc, if_pos hopen, hswap]
  simp only [sameCell_iff hc]
  exact ⟨hopened, b.setCell_eq_withMemories c val⟩

/-- What is written to work memory shows where it is once more, and nowhere else. Object memory is
shut, and a write to it is lost. -/
theorem write_touches_one_cell_echo :
    let m := Machine.ofProgram []
    let b : Bus Float := { m.bus with display := { m.bus.display with objectsOpen := false } }
    (b.write 0xC123 0x42).read 0xE123 = 0x42 ∧ (b.write 0xC123 0x42).read 0xC124 = b.read 0xC124 ∧
      b.write 0xFE00 0x42 = b := by
  intro m b
  have hwork : b.Writable 0xC123 := .inl (by decide)
  have hshut : b.Inert 0xFE00 := .inr (.inl ⟨by decide, by decide, rfl⟩)
  have hecho := ((write_touches_one_cell b 0xC123 0xE123 0x42).1 hwork).1
  have hnext := ((write_touches_one_cell b 0xC123 0xC124 0x42).1 hwork).1
  exact ⟨hecho.trans (if_pos (by decide)), hnext.trans (if_neg (by decide)),
    (write_touches_one_cell b 0xFE00 0 0x42).2 hshut⟩

end Bus

end DotMatrix
