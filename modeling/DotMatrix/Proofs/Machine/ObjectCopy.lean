import DotMatrix.Proofs.Cpu.Writes
import DotMatrix.Proofs.Machine.Requests
import Mathlib.Data.List.Induction

/-!
# Copies to object memory

A copy that is due is made at the beginning of a step, whatever the processor does then. The
program cannot tell that it is made byte by byte: no byte is read from where the copy writes to, so
it is as if the page had been looked at as a whole before (`copyInPlace_eq_runDma`). A write to the
copy register is the only thing that makes a copy due, and it is due for no longer than to the next
step (`copies_atomic`).
-/

namespace DotMatrix

variable {τ : Type}

/-! ## Memories that are filled from the beginning -/

theorem Memory.writeAll_append {n : Nat} (m : Memory n) (start : Nat) (bytes : List UInt8)
    (last : UInt8) :
    m.writeAll start (bytes ++ [last]) =
      (m.writeAll start bytes).write (start + bytes.length) last := by
  induction bytes generalizing m start with
  | nil => rfl
  | cons byte bytes ih =>
    rw [List.cons_append, writeAll, ih, writeAll, List.length_cons, Nat.add_right_comm,
      Nat.add_assoc]

theorem Memory.read_writeAll {n : Nat} (m : Memory n) (bytes : List UInt8)
    (hfit : bytes.length ≤ n) {i : Nat} (hi : i < bytes.length) :
    (m.writeAll 0 bytes).read i = bytes[i] := by
  induction bytes using List.reverseRecOn with
  | nil => cases hi
  | append_singleton bytes last ih =>
    rw [List.length_append, List.length_singleton] at hfit hi
    rw [writeAll_append, read_write, Nat.zero_add]
    by_cases hlast : bytes.length = i
    · subst hlast
      rw [if_pos ⟨rfl, hfit⟩, List.getElem_concat_length rfl]
    · have hbefore : i < bytes.length := by omega
      rw [if_neg (fun h => hlast h.1), ih (by omega) hbefore, List.getElem_append_left hbefore]

namespace Bus

/-! ## One byte after another -/

/-- The bus with both memories of the display open. -/
def opened (b : Bus τ) : Bus τ := { b with display := b.display.openMemories }

/-- The bus with other contents of object memory. -/
def withObjects (b : Bus τ) (oam : Memory Display.objectSize) : Bus τ :=
  { b with display := { b.display with oam } }

/-- Reads one byte behind an address and writes it to object memory. -/
def copyByte (b : Bus τ) (source : UInt16) (i : Nat) : Bus τ :=
  b.withObjects (b.display.oam.write i (b.read (source + i.toUInt16)))

def copyBytes (b : Bus τ) (source : UInt16) : Nat → Bus τ
  | 0 => b
  | n + 1 => (copyBytes b source n).copyByte source n

/-- Copies a page to object memory byte by byte. Both memories are open in the meantime. -/
def copyInPlace (b : Bus τ) (page : UInt8) : Bus τ :=
  let copied := { b with dmaPage := none }.opened.copyBytes (Word.ofBytes page 0)
    Display.objectSize
  { copied with display :=
    { copied.display with
      videoOpen := b.display.videoOpen
      objectsOpen := b.display.objectsOpen } }

/-! ## No byte is read from object memory -/

/-- Nothing but object memory shows what is in object memory. -/
theorem read_withObjects (b : Bus τ) (oam : Memory Display.objectSize) {addr : UInt16}
    (haddr : addr < 0xFE00 ∨ ¬ addr < 0xFEA0) : (b.withObjects oam).read addr = b.read addr := by
  unfold read
  rcases haddr with hbelow | habove
  · rw [if_pos hbelow, if_pos hbelow]
    rfl
  · rw [if_neg habove, if_neg habove]
    rfl

theorem toNat_pageStart : ∀ page : UInt8, (Word.ofBytes page 0).toNat = 256 * page.toNat :=
  forall_byte (by decide +kernel)

theorem toNat_pageAddress (page : UInt8) {i : Nat} (hi : i < 0x100) :
    (Word.ofBytes page 0 + i.toUInt16).toNat = 256 * page.toNat + i := by
  have hpage := page.toNat_lt
  have hoffset : i.toUInt16.toNat = i := UInt16.toNat_ofNat_of_lt' (Nat.lt_trans hi (by decide))
  rw [UInt16.toNat_add, toNat_pageStart, hoffset]
  exact Nat.mod_eq_of_lt (by omega)

theorem pageAddress_outside {page : UInt8} (hpage : page ≠ 0xFE) {i : Nat} (hi : i < 0x100) :
    Word.ofBytes page 0 + i.toUInt16 < 0xFE00 ∨ ¬ Word.ofBytes page 0 + i.toUInt16 < 0xFEA0 := by
  have haddr := toNat_pageAddress page hi
  have hne : page.toNat ≠ 0xFE := fun h => hpage (UInt8.toNat_inj.1 h)
  rw [UInt16.lt_iff_toNat_lt, UInt16.lt_iff_toNat_lt, haddr]
  show 256 * page.toNat + i < 0xFE00 ∨ ¬ 256 * page.toNat + i < 0xFEA0
  omega

theorem copyBytes_eq (b : Bus τ) {page : UInt8} (hpage : page ≠ 0xFE) {n : Nat}
    (hn : n ≤ 0x100) :
    b.copyBytes (Word.ofBytes page 0) n =
      b.withObjects (b.display.oam.writeAll 0 ((List.range n).map fun i =>
        b.read (Word.ofBytes page 0 + i.toUInt16))) := by
  induction n with
  | zero => rfl
  | succ n ih =>
    rw [copyBytes, ih (by omega), copyByte, read_withObjects _ _ (pageAddress_outside hpage hn),
      List.range_succ, List.map_append, List.map_singleton, Memory.writeAll_append]
    simp only [List.length_map, List.length_range, Nat.zero_add]
    rfl

section Due

variable {b : Bus τ} {page : UInt8} (hdue : b.dmaPage = some page) (hpage : page ≠ 0xFE)
include hdue hpage

theorem runDma_of_due : b.runDma =
    (.ok (), { b with
      display := { b.display with oam := b.display.oam.writeAll 0 (b.pageBytes page) }
      dmaPage := none }) := by
  unfold runDma
  rw [hdue]
  exact if_neg hpage

theorem copyInPlace_eq_runDma : b.copyInPlace page = b.runDma.2 := by
  have hbytes : b.pageBytes page = (List.range Display.objectSize).map fun i =>
      { b with dmaPage := none }.opened.read (Word.ofBytes page 0 + i.toUInt16) := rfl
  rw [runDma_of_due hdue hpage]
  unfold copyInPlace
  rw [copyBytes_eq _ hpage (by decide), ← hbytes]
  generalize b.pageBytes page = bytes
  rfl

/-- The bytes that are copied are those that the page had before. -/
theorem read_copyInPlace {i : Nat} (hi : i < Display.objectSize) :
    (b.copyInPlace page).display.oam.read i =
      b.opened.read (256 * page.toNat + i).toUInt16 := by
  have hlength : (b.pageBytes page).length = Display.objectSize := by simp [pageBytes]
  have haddr : Word.ofBytes page 0 + i.toUInt16 = (256 * page.toNat + i).toUInt16 := by
    rw [← toNat_pageAddress page (Nat.lt_trans hi (by decide))]
    exact UInt16.ofNat_toNat.symm
  rw [copyInPlace_eq_runDma hdue hpage, runDma_of_due hdue hpage, ← haddr]
  dsimp only
  rw [Memory.read_writeAll _ _ (Nat.le_of_eq hlength) (hlength.symm ▸ hi)]
  simp only [pageBytes, List.getElem_map, List.getElem_range, opened]

/-- Nothing but object memory and the mark of the copy is changed. -/
theorem copyInPlace_eq_update : b.copyInPlace page =
    { b with
      display := { b.display with oam := (b.copyInPlace page).display.oam }
      dmaPage := none } := by
  rw [copyInPlace_eq_runDma hdue hpage]
  exact b.runDma_snd

end Due

/-! ## When a copy is due -/

theorem dmaPage_advance (b : Bus τ) (cycles : Nat) : (b.advance cycles).2.dmaPage = b.dmaPage :=
  rfl

theorem dmaPage_writeDevice (b : Bus τ) {addr : UInt16} (haddr : addr ≠ 0xFF46)
    (val : UInt8) : (b.writeDevice addr val).dmaPage = b.dmaPage := by
  unfold writeDevice
  split
  · rfl
  · split
    · rfl
    · split
      · rfl
      · split
        case h_5 => split <;> rfl
        all_goals rfl

theorem dmaPage_opening (b : Bus τ) (action : Action) :
    (action.opening b).dmaPage = b.dmaPage := by
  unfold Action.opening
  split <;> rfl

end Bus

/-- The page of the last write to the copy register. -/
def Writes.lastPage (writes : Writes) : Option UInt8 :=
  (writes.filter (·.1 = 0xFF46)).getLast?.map (·.2)

theorem Writes.lastPage_append (writes : Writes) (addr : UInt16) (val : UInt8) :
    lastPage (writes ++ [(addr, val)]) = if addr = 0xFF46 then some val else writes.lastPage := by
  unfold lastPage
  rw [List.filter_append]
  by_cases haddr : addr = 0xFF46
  · simp [haddr]
  · simp [haddr]

section Writes

variable [Timeline τ]

theorem Bus.dmaPage_write (b : Bus τ) (addr : UInt16) (val : UInt8) :
    (b.write addr val).dmaPage = if addr = 0xFF46 then some val else b.dmaPage := by
  by_cases haddr : addr = 0xFF46
  · subst haddr
    rfl
  · have hdevice := b.dmaPage_writeDevice haddr val
    rw [if_neg haddr]
    unfold write
    repeat' split
    all_goals first
      | rfl
      | exact hdevice

/-- Of several writes to the copy register the last one counts. -/
theorem Bus.dmaPage_perform (b : Bus τ) (writes : Writes) :
    (b.perform writes).dmaPage = writes.lastPage.or b.dmaPage := by
  induction writes using List.reverseRecOn with
  | nil => rfl
  | append_singleton writes write ih =>
    obtain ⟨addr, val⟩ := write
    have hlast : b.perform (writes ++ [(addr, val)]) = (b.perform writes).write addr val := by
      simp [perform]
    rw [hlast, dmaPage_write, ih, Writes.lastPage_append]
    split <;> rfl

namespace Machine

/-- A copy is due after a step if the step has written to the copy register, and only then. -/
theorem dmaPage_step (m : Machine τ) : m.step.2.bus.dmaPage = m.writes.lastPage := by
  have hcore : (Core.step m.cpu m.bus).1.bus.dmaPage = m.writes.lastPage := by
    rw [Core.bus_step, Bus.dmaPage_perform, Bus.dmaPage_opening, Bus.dmaPage_runDma, Option.or_none]
    rfl
  rw [bus_step]
  split
  · exact hcore
  · exact (Bus.dmaPage_advance _ _).trans hcore

/-- Between the steps of a run, whether a copy is due is decided by the step before. -/
theorem Run.dmaPage {m m' : Machine τ} {actions : List Action} (h : Run m actions m') :
    actions = [] ∧ m'.bus.dmaPage = m.bus.dmaPage ∨
      ∃ before last, Run m before last ∧ actions = before ++ [last.action] ∧
        last.step.2.Meanwhile m' ∧ m'.bus.dmaPage = last.writes.lastPage := by
  induction h with
  | start => exact .inl ⟨rfl, rfl⟩
  | step before _ => exact .inr ⟨_, _, before, rfl, .refl _, dmaPage_step _⟩
  | meanwhile _ between ih =>
    rcases ih with ⟨hnone, hsame⟩ | ⟨before, last, hrun, hactions, hmeanwhile, hpage⟩
    · exact .inl ⟨hnone, between.bus.dmaPage.trans hsame⟩
    · exact .inr ⟨before, last, hrun, hactions, hmeanwhile.trans between,
        between.bus.dmaPage.trans hpage⟩

/-- A copy that is due, from anywhere but object memory itself, is what a step begins with,
whatever the processor and the display are doing. Object memory takes over what a read of the page
would have shown with both memories of the display open, nothing else changes, and the step goes on
from there. Of several writes to the copy register the last one counts. Between the steps of a run
a copy is due if the step before has written to the register, and not otherwise. -/
theorem copies_atomic (m : Machine τ) :
    (∀ page, m.bus.dmaPage = some page → page ≠ 0xFE →
      let copied := m.bus.copyInPlace page
      Core.step m.cpu m.bus = Core.stepMode ⟨m.cpu, copied, 0⟩ ∧
        (∀ i < 160, copied.display.oam.read i =
          m.bus.opened.read (256 * page.toNat + i).toUInt16) ∧
        copied =
          { m.bus with
            display := { m.bus.display with oam := copied.display.oam }
            dmaPage := none }) ∧
      (∀ writes : Writes, (m.bus.perform writes).dmaPage = writes.lastPage.or m.bus.dmaPage) ∧
      ∀ actions m', Run m actions m' →
        actions = [] ∧ m'.bus.dmaPage = m.bus.dmaPage ∨
          ∃ before last, Run m before last ∧ actions = before ++ [last.action] ∧
            last.step.2.Meanwhile m' ∧ m'.bus.dmaPage = last.writes.lastPage := by
  refine ⟨fun page hdue hpage => ?_, m.bus.dmaPage_perform, fun _ _ hrun => hrun.dmaPage⟩
  refine ⟨?_, fun i hi => Bus.read_copyInPlace hdue hpage hi,
    Bus.copyInPlace_eq_update hdue hpage⟩
  have hmade := congrArg Prod.fst (Bus.runDma_of_due hdue hpage)
  rw [Bus.copyInPlace_eq_runDma hdue hpage]
  unfold Core.step
  split
  · rename_i hcopy
    rw [hcopy] at hmade
    cases hmade
  · rename_i hcopy
    rw [hcopy]

/-- A halted processor, a copy from video memory that is due, and a display that has closed both of
its memories. -/
def copyFromVideo : Machine Float :=
  let m := ofProgram []
  { m with
    cpu := { m.cpu with mode := .halted }
    bus := { m.bus with
      display := { m.bus.display with
        vram := m.bus.display.vram.write 3 0x5A
        videoOpen := false
        objectsOpen := false }
      dmaPage := some 0x80 } }

/-- The copy gets at what the processor would not see, and leaves the memories closed. -/
theorem copies_atomic_fromVideo :
    let copied := copyFromVideo.bus.copyInPlace 0x80
    Core.step copyFromVideo.cpu copyFromVideo.bus =
        Core.stepMode ⟨copyFromVideo.cpu, copied, 0⟩ ∧
      copyFromVideo.bus.read 0x8003 = 0xFF ∧ copied.display.oam.read 3 = 0x5A ∧
      copied.display.videoOpen = false ∧ copied.display.objectsOpen = false ∧
      copied.dmaPage = none := by
  obtain ⟨hstep, hread, hframe⟩ := (copies_atomic copyFromVideo).1 0x80 rfl (by decide)
  have hclosed := congrArg (fun b => (b.display.videoOpen, b.display.objectsOpen)) hframe
  exact ⟨hstep, by decide +kernel, (hread 3 (by decide)).trans (by decide +kernel),
    congrArg Prod.fst hclosed, congrArg Prod.snd hclosed, congrArg Bus.dmaPage hframe⟩

end Machine

end Writes

end DotMatrix
