import DotMatrix.Proofs.Machine.MemoryMap

/-!
# Words on the stack

The stack grows down in memory that also holds other things, and nothing keeps it from growing into
these. `Room` says how far it may grow: the bytes that are to be written are all in work memory or
all in the last page. There a write shows at its own address and at no other that the stack has, so
words that are pushed come back last one first, and memory that is not theirs stays
(`popAll_pushAll`).
-/

namespace DotMatrix

variable {τ : Type}

/-! ## Room for words -/

/-- The bytes that so many words take up below an address are all in work memory, at their first
addresses, or all in the memory of the last page. -/
def Room (base : UInt16) (depth : Nat) : Prop :=
  (∀ i < 2 * depth, 0xC000 ≤ base - 1 - i.toUInt16 ∧ base - 1 - i.toUInt16 ≤ 0xDFFF) ∨
    ∀ i < 2 * depth, 0xFF80 ≤ base - 1 - i.toUInt16 ∧ base - 1 - i.toUInt16 ≤ 0xFFFE

/-- The address is one of those that so many words take up below another. -/
def Below (base : UInt16) (depth : Nat) (addr : UInt16) : Prop :=
  addr.toNat < base.toNat ∧ base.toNat ≤ addr.toNat + 2 * depth

theorem Below.mono {base addr : UInt16} {depth depth' : Nat} (h : Below base depth addr)
    (hle : depth ≤ depth') : Below base depth' addr :=
  ⟨h.1, by have := h.2; omega⟩

theorem Below.exists_index {base addr : UInt16} {depth : Nat} (h : Below base depth addr) :
    ∃ i < 2 * depth, addr = base - 1 - i.toUInt16 := by
  obtain ⟨hlt, hle⟩ := h
  have hbase := base.toNat_lt
  refine ⟨base.toNat - 1 - addr.toNat, by omega, UInt16.toNat_inj.1 ?_⟩
  simp only [UInt16.toNat_sub, Nat.toUInt16_eq, UInt16.toNat_ofNat', UInt16.reduceToNat]
  omega

namespace Room

variable {base : UInt16} {depth : Nat}

/-- Going down from the address to the end of the memory would come to a byte that is not in it. -/
theorem range (h : Room base depth) (hdepth : 0 < depth) :
    (0xC000 + 2 * depth ≤ base.toNat ∧ base.toNat ≤ 0xE000) ∨ 0xFF80 + 2 * depth ≤ base.toNat := by
  have hbase := base.toNat_lt
  simp only [Room, UInt16.le_iff_toNat_le, UInt16.toNat_sub, Nat.toUInt16_eq, UInt16.toNat_ofNat',
    UInt16.reduceToNat] at h
  rcases h with hwork | hhigh
  · have hfirst := hwork 0 (by omega)
    refine .inl (Classical.byContradiction fun hout => ?_)
    have hlast := hwork (base.toNat - 0xC000) (by omega)
    omega
  · have hfirst := hhigh 0 (by omega)
    refine .inr (Classical.byContradiction fun hout => ?_)
    have hlast := hhigh (base.toNat - 0xFF80) (by omega)
    omega

/-- An address of the stack is one of memory that keeps what is written. -/
theorem writable (h : Room base depth) {addr : UInt16} (haddr : Below base depth addr)
    (b : Bus τ) : b.Writable addr := by
  obtain ⟨hlt, hle⟩ := haddr
  have hbase := base.toNat_lt
  have hrange := h.range (by omega)
  simp only [Bus.Writable, UInt16.le_iff_toNat_le, UInt16.reduceToNat]
  omega

/-- The stack does not have two addresses of one byte. -/
theorem sameCell_iff (h : Room base depth) {addr other : UInt16} (haddr : Below base depth addr)
    (hother : Below base depth other) : SameCell addr other ↔ other = addr := by
  obtain ⟨hlt, hle⟩ := haddr
  obtain ⟨hlt', hle'⟩ := hother
  have hbase := base.toNat_lt
  have hrange := h.range (by omega)
  simp only [SameCell, ← UInt16.toNat_inj, UInt16.le_iff_toNat_le, UInt16.toNat_add,
    UInt16.toNat_sub, UInt16.reduceToNat]
  omega

/-- What the stack shows is in the two memories that it may be in. -/
theorem read_congr (h : Room base depth) {addr : UInt16} (haddr : Below base depth addr)
    {b b' : Bus τ} (hwork : b'.work = b.work) (hhigh : b'.high = b.high) :
    b'.read addr = b.read addr := by
  obtain ⟨hlt, hle⟩ := haddr
  have hbase := base.toNat_lt
  have hrange := h.range (by omega)
  simp only [Bus.read, UInt16.lt_iff_toNat_lt, UInt16.reduceToNat]
  rcases hrange with hrange | hrange
  · simp (disch := omega) only [if_neg, if_pos]
    rw [hwork]
  · simp (disch := omega) only [if_neg, if_pos]
    rw [hhigh]

variable [Timeline τ]

theorem read_write (h : Room base depth) {addr other : UInt16} (haddr : Below base depth addr)
    (hother : Below base depth other) (b : Bus τ) (val : UInt8) :
    (b.write addr val).read other = if other = addr then val else b.read other := by
  rw [Bus.read_write (h.writable haddr b)]
  simp only [h.sameCell_iff haddr hother]

theorem write_eq (h : Room base depth) {addr : UInt16} (haddr : Below base depth addr) (b : Bus τ)
    (val : UInt8) : ∃ work high, b.write addr val = { b with work, high } := by
  obtain ⟨hlt, hle⟩ := haddr
  have hbase := base.toNat_lt
  have hrange := h.range (by omega)
  simp only [Bus.write, UInt16.lt_iff_toNat_lt, UInt16.reduceToNat]
  rcases hrange with hrange | hrange
  · simp (disch := omega) only [if_neg, if_pos]
    exact ⟨_, _, rfl⟩
  · simp (disch := omega) only [if_neg, if_pos]
    exact ⟨_, _, rfl⟩

end Room

/-! ## Words in memory -/

namespace Bus

/-- The words that begin at an address, each with its low byte first. -/
def words (b : Bus τ) (addr : UInt16) : Nat → List UInt16
  | 0 => []
  | n + 1 => Word.ofBytes (b.read (addr + 1)) (b.read addr) :: b.words (addr + 2) n

theorem words_succ (b : Bus τ) (addr : UInt16) (n : Nat) :
    b.words addr (n + 1) =
      Word.ofBytes (b.read (addr + 1)) (b.read addr) :: b.words (addr + 2) n := rfl

/-- Puts a word below an address, its high byte first. -/
def store [Timeline τ] (b : Bus τ) (sp val : UInt16) : Bus τ :=
  (b.write (sp - 1) (Word.high val)).write (sp - 2) (Word.low val)

theorem words_congr {b b' : Bus τ} {base sp : UInt16} {n : Nat}
    (hsp : sp.toNat + 2 * n = base.toNat)
    (h : ∀ addr, Below base n addr → b'.read addr = b.read addr) :
    b'.words sp n = b.words sp n := by
  have hbase := base.toNat_lt
  induction n generalizing sp with
  | zero => rfl
  | succ n ih =>
    have hnext : (sp + 1).toNat = sp.toNat + 1 := by
      simp only [UInt16.toNat_add, UInt16.reduceToNat]
      omega
    have hrest : (sp + 2).toNat + 2 * n = base.toNat := by
      simp only [UInt16.toNat_add, UInt16.reduceToNat]
      omega
    have hlow := h sp ⟨by omega, by omega⟩
    have hhigh := h (sp + 1) ⟨by omega, by omega⟩
    rw [words_succ, words_succ, hlow, hhigh, ih hrest fun addr haddr => h addr (haddr.mono (Nat.le_succ n))]

end Bus

namespace Room

variable [Timeline τ] {base sp : UInt16} {depth n : Nat}

/-- The two addresses of a word that is pushed are the next ones of the stack. -/
theorem below_next (hsp : sp.toNat + 2 * n = base.toNat) (hn : n < depth) (h : Room base depth) :
    (sp - 2).toNat + 2 = sp.toNat ∧ Below base depth (sp - 1) ∧ Below base depth (sp - 2) := by
  have hbase := base.toNat_lt
  have hrange := h.range (by omega)
  simp only [Below, UInt16.toNat_sub, UInt16.reduceToNat]
  omega

/-- A word that is put on the stack is on top, and what was there is below it. -/
theorem words_store (h : Room base depth) (hsp : sp.toNat + 2 * n = base.toNat) (hn : n < depth)
    (b : Bus τ) (val : UInt16) :
    (b.store sp val).words (sp - 2) (n + 1) = val :: b.words sp n := by
  obtain ⟨htop, hhigh, hlow⟩ := h.below_next hsp hn
  have hnext : sp - 2 + 1 = sp - 1 := by grind
  have hrest : sp - 2 + 2 = sp := by grind
  have hapart : sp - 1 ≠ sp - 2 := by grind
  have hold : (b.store sp val).words sp n = b.words sp n := by
    refine Bus.words_congr hsp fun addr haddr => ?_
    have hbelow := haddr.mono (Nat.le_of_lt hn)
    have habove : addr ≠ sp - 1 ∧ addr ≠ sp - 2 := by
      simp only [ne_eq, ← UInt16.toNat_inj, UInt16.toNat_sub, UInt16.reduceToNat]
      have := haddr.2
      have := addr.toNat_lt
      omega
    rw [Bus.store, h.read_write hlow hbelow, if_neg habove.2, h.read_write hhigh hbelow,
      if_neg habove.1]
  rw [Bus.words_succ, hnext, hrest, hold, Bus.store, h.read_write hlow hhigh, if_neg hapart,
    h.read_write hhigh hhigh, if_pos rfl, h.read_write hlow hlow, if_pos rfl,
    Word.ofBytes_high_low]

end Room

/-! ## Pushing and popping -/

namespace Core

/-- Pops so many words, the last that was pushed first. -/
def popAll (s : Core τ) : Nat → List UInt16 × Core τ
  | 0 => ([], s)
  | n + 1 =>
    let (val, s) := s.pop
    let (rest, s) := popAll s n
    (val :: rest, s)

/-- The processor with another stack pointer. -/
def withSp (cpu : Cpu) (sp : UInt16) : Cpu :=
  { cpu with registers := { cpu.registers with sp } }

/-- Popping reads the words and moves the stack pointer, and nothing else. -/
theorem popAll_eq (s : Core τ) (n : Nat) :
    (s.popAll n).1 = s.bus.words s.registers.sp n ∧
      (s.popAll n).2.cpu = withSp s.cpu (s.registers.sp + (2 * n).toUInt16) ∧
        (s.popAll n).2.bus = s.bus := by
  induction n generalizing s with
  | zero =>
    refine ⟨rfl, ?_, rfl⟩
    show s.cpu = withSp s.cpu (s.registers.sp + 0)
    rw [UInt16.add_zero]
    rfl
  | succ n ih =>
    obtain ⟨hwords, hcpu, hbus⟩ := ih s.pop.2
    have hsum : s.registers.sp + 2 + (2 * n).toUInt16 =
        s.registers.sp + (2 * (n + 1)).toUInt16 := by
      rw [← UInt16.toNat_inj]
      simp only [UInt16.toNat_add, Nat.toUInt16_eq, UInt16.toNat_ofNat', UInt16.reduceToNat]
      omega
    refine ⟨congrArg (_ :: ·) hwords, hcpu.trans ?_, hbus⟩
    rw [← hsum]
    rfl

variable [Timeline τ]

def pushAll (s : Core τ) (vals : List UInt16) : Core τ := vals.foldl push s

theorem pushAll_cons (s : Core τ) (val : UInt16) (vals : List UInt16) :
    s.pushAll (val :: vals) = (s.push val).pushAll vals := rfl

theorem bus_push_store (s : Core τ) (val : UInt16) :
    (s.push val).bus = s.bus.store s.registers.sp val := rfl

theorem cpu_pushAll (s : Core τ) (vals : List UInt16) :
    (s.pushAll vals).cpu = withSp s.cpu (s.registers.sp - (2 * vals.length).toUInt16) := by
  induction vals generalizing s with
  | nil =>
    show s.cpu = withSp s.cpu (s.registers.sp - 0)
    rw [UInt16.sub_zero]
    rfl
  | cons val vals ih =>
    have hdiff : s.registers.sp - 2 - (2 * vals.length).toUInt16 =
        s.registers.sp - (2 * (vals.length + 1)).toUInt16 := by
      rw [← UInt16.toNat_inj]
      simp only [UInt16.toNat_sub, Nat.toUInt16_eq, UInt16.toNat_ofNat', UInt16.reduceToNat]
      omega
    rw [pushAll_cons, ih, List.length_cons, ← hdiff]
    rfl

section Frame

variable {base : UInt16} {depth : Nat}

/-- Words that are pushed lie on top of those that were there, the last one first. -/
theorem words_pushAll (h : Room base depth) {s : Core τ} {n : Nat} {vals : List UInt16}
    (hsp : s.registers.sp.toNat + 2 * n = base.toNat) (hfit : n + vals.length ≤ depth) :
    (s.pushAll vals).bus.words (s.pushAll vals).registers.sp (n + vals.length) =
      vals.reverse ++ s.bus.words s.registers.sp n := by
  induction vals generalizing s n with
  | nil => rfl
  | cons val vals ih =>
    rw [List.length_cons] at hfit
    have htop := (h.below_next hsp (by omega)).1
    have hpushed : (s.push val).registers.sp.toNat + 2 * (n + 1) = base.toNat := by
      show (s.registers.sp - 2).toNat + _ = _
      omega
    have hstored : (s.push val).bus.words (s.push val).registers.sp (n + 1) =
        val :: s.bus.words s.registers.sp n := h.words_store hsp (by omega) s.bus val
    rw [pushAll_cons, List.length_cons, ← Nat.add_assoc, Nat.add_right_comm,
      ih hpushed (by omega), hstored, List.reverse_cons, List.append_assoc]
    rfl

/-- Pushing changes the bytes of the stack, and no memory else. -/
theorem bus_pushAll (h : Room base depth) {s : Core τ} {n : Nat} {vals : List UInt16}
    (hsp : s.registers.sp.toNat + 2 * n = base.toNat) (hfit : n + vals.length ≤ depth) :
    (∃ work high, (s.pushAll vals).bus = { s.bus with work, high }) ∧
      ∀ other, (∀ addr, Below base depth addr → ¬ SameCell addr other) →
        (s.pushAll vals).bus.read other = s.bus.read other := by
  induction vals generalizing s n with
  | nil => exact ⟨⟨s.bus.work, s.bus.high, rfl⟩, fun _ _ => rfl⟩
  | cons val vals ih =>
    rw [List.length_cons] at hfit
    obtain ⟨htop, hhigh, hlow⟩ := h.below_next hsp (by omega)
    have hpushed : (s.push val).registers.sp.toNat + 2 * (n + 1) = base.toNat := by
      show (s.registers.sp - 2).toNat + _ = _
      omega
    obtain ⟨⟨work, high, hbus⟩, hread⟩ := ih hpushed (by omega)
    rw [bus_push_store, Bus.store] at hbus hread
    obtain ⟨work', high', hfirst⟩ := h.write_eq hhigh s.bus (Word.high val)
    obtain ⟨work'', high'', hsecond⟩ :=
      h.write_eq hlow (s.bus.write (s.registers.sp - 1) (Word.high val)) (Word.low val)
    rw [pushAll_cons]
    refine ⟨⟨work, high, ?_⟩, fun other hother => ?_⟩
    · rw [hbus, hsecond, hfirst]
    · rw [hread other hother, Bus.read_write (h.writable hlow _), if_neg (hother _ hlow),
        Bus.read_write (h.writable hhigh _), if_neg (hother _ hhigh)]

end Frame

/-- Words that were pushed come back last one first. The processor is then as it was before, and
all memory but the bytes of the words, at their own addresses and at the others that they have. -/
theorem popAll_pushAll {s : Core τ} {vals : List UInt16} (h : Room s.registers.sp vals.length) :
    ((s.pushAll vals).popAll vals.length).1 = vals.reverse ∧
      ((s.pushAll vals).popAll vals.length).2.cpu = s.cpu ∧
      (∃ work high, ((s.pushAll vals).popAll vals.length).2.bus = { s.bus with work, high }) ∧
      ∀ other,
        (∀ i < 2 * vals.length, ¬ SameCell (s.registers.sp - 1 - i.toUInt16) other) →
        ((s.pushAll vals).popAll vals.length).2.bus.read other = s.bus.read other := by
  obtain ⟨hpopped, hcpu, hbus⟩ := popAll_eq (s.pushAll vals) vals.length
  have hfit : 0 + vals.length ≤ vals.length := by omega
  have hwords := words_pushAll h rfl hfit
  obtain ⟨hmemories, hread⟩ := bus_pushAll h rfl hfit
  rw [Nat.zero_add] at hwords
  rw [hpopped, hcpu, hbus]
  refine ⟨hwords.trans (List.append_nil _), ?_, hmemories, fun other hother => ?_⟩
  · have hback : s.registers.sp - (2 * vals.length).toUInt16 + (2 * vals.length).toUInt16 =
        s.registers.sp := UInt16.sub_add_cancel _ _
    rw [Core.registers, cpu_pushAll]
    exact congrArg (withSp s.cpu) hback
  · refine hread other fun addr haddr => ?_
    obtain ⟨i, hi, rfl⟩ := haddr.exists_index
    exact hother i hi

end Core

end DotMatrix
