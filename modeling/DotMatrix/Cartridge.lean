import DotMatrix.Cartridge.Controller
import DotMatrix.Cartridge.ExternalRam
import DotMatrix.Cartridge.Header
import DotMatrix.Text.Quoted

/-!
# Cartridge

Program memory, external memory and a bank controller. A cartridge that was loaded from a file
knows where its external memory and its clock are saved. When the program switches modified
external memory off, a snapshot of it waits to be committed; a change of the clock's start time is
saved at once.
-/

namespace DotMatrix

structure SavePaths where
  ram : String
  clock : String
deriving DecidableEq, Repr, Inhabited

structure Cartridge (τ : Type) where
  rom : ByteArray
  ram : ExternalRam
  capability : Capability
  title : String
  color : Bool
  controller : Controller τ
  paths : Option SavePaths
  /-- A snapshot of external memory that waits to be committed. -/
  commit : Option ExternalRam

namespace Cartridge

variable {τ : Type}

def maxImageSize : Nat := 8 <<< 20

/-! ## Reading -/

def romByte (c : Cartridge τ) (bank : Nat) (addr : UInt16) : UInt8 :=
  imageByte c.rom (bank * romBankSize + addr.toNat % romBankSize)

def currentBank? (c : Cartridge τ) : Option Nat :=
  match c.controller with
  | .fixed => none
  | .mbc1 m => some (m.bank c.capability.romBanks)
  | .mbc3 m => some (m.bank c.capability.romBanks)

def readExternal (c : Cartridge τ) (offset : Nat) : UInt8 :=
  match c.controller with
  | .fixed => c.ram.read offset
  | .mbc1 m => if m.ramEnabled then c.ram.read (m.ramOffset c.ram.size offset) else 0xFF
  | .mbc3 m =>
    if !m.ramEnabled then 0xFF
    else
      match m.select, m.clock with
      | .ram bank, _ => c.ram.read (bank.toNat * ramBankSize + offset)
      | .clock reg, some clock => clock.latched.read reg
      | .clock _, none => 0xFF

def read (c : Cartridge τ) (addr : UInt16) : UInt8 :=
  if addr < 0x4000 then c.romByte 0 addr
  else if addr < 0x8000 then c.romByte (c.currentBank?.getD 1) addr
  else if 0xA000 ≤ addr && addr < 0xC000 then c.readExternal (addr.toNat - 0xA000)
  else 0xFF

/-! ## Saving -/

/-- A snapshot of external memory if a battery keeps it and it has changed since the last one. -/
def uncommitted (c : Cartridge τ) : Option ExternalRam × Cartridge τ :=
  if c.capability.hasBattery && c.ram.modified then
    (some c.ram.snapshot, { c with ram := c.ram.resetModified })
  else (none, c)

/-- Lets a snapshot of changed memory wait to be committed. -/
def commitRam (c : Cartridge τ) : Cartridge τ :=
  match c.uncommitted with
  | (some snapshot, c) => { c with commit := some snapshot }
  | (none, c) => c

def takeCommit (c : Cartridge τ) : Option ExternalRam × Cartridge τ :=
  (c.commit, { c with commit := none })

variable [Timeline τ]

def saveClock (c : Cartridge τ) (host : Host τ) (always : Bool) : Cartridge τ × Host τ :=
  match c.controller, c.paths with
  | .mbc3 m, some paths =>
    match m.clock with
    | none => (c, host)
    | some clock =>
      -- the mark is taken away even if the save is refused
      let (dirty, clock) := clock.takeDirty
      if dirty || always then
        let (_, host) := host.save "RTC" paths.clock (clock.toBytes host.calendar)
        ({ c with controller := .mbc3 { m with clock := some clock } }, host)
      else (c, host)
  | _, _ => (c, host)

/-! ## Writing -/

def writeExternal (c : Cartridge τ) (host : Host τ) (offset : Nat) (val : UInt8) :
    Cartridge τ × Host τ :=
  match c.controller with
  | .fixed => ({ c with ram := c.ram.write offset val }, host)
  | .mbc1 m =>
    if m.ramEnabled then
      ({ c with ram := c.ram.write (m.ramOffset c.ram.size offset) val }, host)
    else (c, host)
  | .mbc3 m =>
    if !m.ramEnabled then (c, host)
    else
      match m.select, m.clock with
      | .ram bank, _ =>
        ({ c with ram := c.ram.write (bank.toNat * ramBankSize + offset) val }, host)
      | .clock reg, some clock =>
        let clock := clock.write host.calendar reg val
        saveClock { c with controller := .mbc3 { m with clock := some clock } } host false
      | .clock _, none => (c, host)

/-- Writes a register of the controller. Switching external memory off commits it. -/
def writeRegister (c : Cartridge τ) (now : τ) (addr : UInt16) (val : UInt8) : Cartridge τ :=
  match c.controller with
  | .fixed => c
  | .mbc1 m =>
    if addr < 0x2000 then
      let switched := { c with controller := .mbc1 { m with ramEnabled := enablesRam val } }
      if m.ramEnabled && !enablesRam val then switched.commitRam else switched
    else if addr < 0x4000 then
      { c with controller := .mbc1 { m with romBank := val &&& 0x1F } }
    else if addr < 0x6000 then
      { c with controller := .mbc1 { m with high := val &&& 0x03 } }
    else { c with controller := .mbc1 { m with mode := val &&& 0x01 } }
  | .mbc3 m =>
    if addr < 0x2000 then
      let switched := { c with controller := .mbc3 { m with ramEnabled := enablesRam val } }
      if m.ramEnabled && !enablesRam val then switched.commitRam else switched
    else if addr < 0x4000 then
      { c with controller := .mbc3 { m with romBank := val &&& 0x7F } }
    else if addr < 0x6000 then
      { c with controller := .mbc3 { m with select := m.selection val } }
    else
      { c with controller := .mbc3 { m with clock := m.clock.map (·.writeLatch now val) } }

def write (c : Cartridge τ) (host : Host τ) (addr : UInt16) (val : UInt8) :
    Cartridge τ × Host τ :=
  if addr < 0x8000 then (c.writeRegister host.calendar addr val, host)
  else if 0xA000 ≤ addr && addr < 0xC000 then c.writeExternal host (addr.toNat - 0xA000) val
  else (c, host)

/-! ## Loading -/

def controller? (capability : Capability) (now : τ) : Option (Controller τ) :=
  match capability.family with
  | .romOnly => some .fixed
  | .mbc1 => some (.mbc1 .initial)
  | .mbc3 =>
    some (.mbc3 (.initial (if capability.hasTimer then some (.create now none) else none)))
  | _ => none

def ofBytes (now : τ) (image : ByteArray) : Except CartridgeError (Cartridge τ) := do
  let capability ← Capability.ofHeader image
  match controller? capability now with
  | none => throw (.unsupported capability.cartType capability.family)
  | some controller =>
    let expected := capability.romBanks * romBankSize
    if image.size < expected then throw (.shortImage expected image.size)
    return {
      rom := image
      ram := .create capability.ramSize
      capability := capability
      title := imageTitle image
      color := isColor image
      controller := controller
      paths := none
      commit := none }

/-- Restores external memory from its save file, if a battery keeps it and the file holds all of
it. -/
def restoreRam (c : Cartridge τ) (host : Host τ) (path : String) : Cartridge τ × Host τ :=
  let size := c.ram.size
  if c.capability.hasBattery && size ≠ 0 then
    match host.storage.load path size with
    | .ok (some bytes) =>
      if size ≤ bytes.size then ({ c with ram := c.ram.load bytes }, host)
      else
        (c, host.warn s!"Ignoring short save file {path} ({bytes.size} of {size} bytes)")
    | .ok none => (c, host)
    | .error e => (c, host.warn s!"Failed to read {path}: {e.message}")
  else (c, host)

/-- Restores the clock from its save file; without one it starts at zero. -/
def restoreClock (c : Cartridge τ) (host : Host τ) (path : String) : Cartridge τ × Host τ :=
  match c.controller with
  | .mbc3 m =>
    if m.clock.isSome then
      let (saved, host) :=
        match host.storage.load path RealTimeClock.fileSize with
        | .ok bytes => (bytes.bind RealTimeClock.startOfBytes?, host)
        | .error e => (none, host.warn s!"Failed to read {path}: {e.message}")
      let clock := RealTimeClock.create host.calendar saved
      ({ c with controller := .mbc3 { m with clock := some clock } }, host)
    else (c, host)
  | _ => (c, host)

def restore (c : Cartridge τ) (host : Host τ) (path : String) : Cartridge τ × Host τ :=
  let paths : SavePaths := ⟨host.saveLocation path .ram, host.saveLocation path .clock⟩
  let (c, host) := c.restoreRam host paths.ram
  let (c, host) := c.restoreClock host paths.clock
  saveClock { c with paths := some paths } host false

def summary (c : Cartridge τ) : String :=
  let family := c.capability.family.name
  let banks := c.capability.romBanks
  let ram := c.capability.ramSize
  let battery := if c.capability.hasBattery then ", battery" else ""
  let clock := if c.capability.hasTimer then ", RTC" else ""
  s!"Loaded ROM: {c.title} ({family}, {banks} ROM banks, {ram} bytes RAM{battery}{clock})"

/-- Loads a cartridge from an image file and restores what is saved for it. -/
def ofFile (host : Host τ) (path : String) : Except CartridgeError (Cartridge τ) × Host τ :=
  match host.storage.load path maxImageSize with
  | .error e => (.error (.unreadable e), host)
  | .ok none => (.error (.unreadable (.missing path)), host)
  | .ok (some image) =>
    match ofBytes host.calendar image with
    | .error e => (.error e, host)
    | .ok c =>
      let (c, host) := c.restore host path
      (.ok c, host.info c.summary)

end Cartridge

/-! ## Describing -/

def describeBool (b : Bool) : String := if b then "true" else "false"

def Capability.describe (c : Capability) : String :=
  s!"Capability \x7b cart_type: {c.cartType.toNat}, family: {c.family.name}, "
    ++ s!"has_ram: {describeBool c.hasRam}, has_battery: {describeBool c.hasBattery}, "
    ++ s!"has_timer: {describeBool c.hasTimer}, has_rumble: {describeBool c.hasRumble}, "
    ++ s!"ram_size: {c.ramSize}, rom_bank_count: {c.romBanks} \x7d"

def Cartridge.describe {τ : Type} (c : Cartridge τ) : String :=
  s!"Cartridge \x7b capability: {c.capability.describe}, title: {Text.Quoted.quote c.title}, "
    ++ s!"cgb: {describeBool c.color}, .. \x7d"

end DotMatrix
