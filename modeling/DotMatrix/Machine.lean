import DotMatrix.Cpu.Step

/-!
# Machine

A processor and its bus, stepped together: after every step of the processor the devices make up
for the cycles it took. External memory that a program has finished with is saved after a while.
-/

namespace DotMatrix

structure Machine (τ : Type) where
  cpu : Cpu
  bus : Bus τ
  /-- A snapshot of external memory that waits to be saved. -/
  saving : Option ExternalRam

inductive RunEnd where
  /-- What the run was waiting for has come. -/
  | finished
  | fault (cause : Fault)
  /-- The steps allowed were not enough. -/
  | unfinished
deriving DecidableEq, Repr, Inhabited

namespace Machine

variable {τ : Type}

/-- A machine that starts in a boot image, or in the state that the boot program leaves. -/
def create (cartridge : Cartridge τ) (host : Host τ) (boot : Option BootImage) : Machine τ :=
  let bus := Bus.create cartridge host
  match boot with
  | some image => ⟨.powerOn, { bus with boot := some image }, none⟩
  | none => ⟨.postBoot, bus.applyPostBoot, none⟩

def now (m : Machine τ) : Nat := m.bus.timer.now

def withCartridge (m : Machine τ) (cartridge : Cartridge τ) (host : Host τ) : Machine τ :=
  { m with bus := { m.bus with cartridge, host } }

variable [Timeline τ]

/-- One step of the processor, which the devices then make up for. The answer tells whether the
display began a new period, or which fault there was. -/
def step (m : Machine τ) : Except Fault Bool × Machine τ :=
  match Core.step m.cpu m.bus with
  | (core, some fault) => (.error fault, { m with cpu := core.cpu, bus := core.bus })
  | (core, none) =>
    let (boundary, bus) := core.bus.advance core.cycles
    (.ok boundary, { m with cpu := core.cpu, bus })

/-- Steps until `stop` says so, of the machine and of whether a new period has begun. -/
def run (stop : Bool → Machine τ → Bool) (m : Machine τ) : Nat → RunEnd × Machine τ
  | 0 => (.unfinished, m)
  | n + 1 =>
    match m.step with
    | (.error fault, m) => (.fault fault, m)
    | (.ok boundary, m) => if stop boundary m then (.finished, m) else run stop m n

omit [Timeline τ] in
/-- Takes a snapshot that the cartridge has committed, and asks for it to be saved. -/
def collectCommit (m : Machine τ) : Machine τ :=
  match m.bus.cartridge.takeCommit with
  | (some snapshot, cartridge) =>
    { m.withCartridge cartridge m.bus.host with
      saving := some (snapshot.requestSave m.bus.host.uptime) }
  | (none, _) => m

/-- Steps that a frame takes at most: it lasts less than two periods and two instructions. -/
def frameSteps : Nat := (2 * Display.refreshPeriod + 48) / machineCycle

/-- Runs until the display begins a new period. While the display is off, a period's worth of
cycles counts as a frame. -/
def runFrame (m : Machine τ) : Option Fault × Machine τ :=
  let start := m.now
  let stop boundary (m : Machine τ) :=
    boundary || (!m.bus.display.running && decide (Display.refreshPeriod ≤ m.now - start))
  match m.run stop frameSteps with
  | (.fault fault, m) => (some fault, m)
  | (_, m) => (none, m.collectCommit)

/-- Runs for a number of cycles, to the end of the instruction. -/
def runCycles (m : Machine τ) (cycles : Nat) : Option Fault × Machine τ :=
  if cycles = 0 then (none, m.collectCommit)
  else
    let deadline := m.now + cycles
    match m.run (fun _ m => decide (deadline ≤ m.now)) (cycles / machineCycle + 1) with
    | (.fault fault, m) => (some fault, m)
    | (_, m) => (none, m.collectCommit)

omit [Timeline τ] in
/-- Lets external memory that was changed wait to be saved, committed or not. -/
def collectAll (m : Machine τ) : Machine τ :=
  let m := m.collectCommit
  match m.bus.cartridge.uncommitted with
  | (some snapshot, cartridge) =>
    { m.withCartridge cartridge m.bus.host with
      saving := some (snapshot.requestSave m.bus.host.uptime) }
  | (none, _) => m

omit [Timeline τ] in
/-- Saves external memory if its request is due. Forcing it also picks up memory that was changed
and not committed. The answer tells whether anything was written. -/
def trySaveRam (m : Machine τ) (force : Bool) : Bool × Machine τ :=
  let m := if force then m.collectAll else m
  match m.bus.cartridge.paths, m.saving with
  -- without a save file there is nowhere to write to
  | none, _ => (false, { m with saving := none })
  | some _, none => (false, m)
  | some paths, some ram =>
    let (saved, ram, host) := ram.trySave m.bus.host paths.ram force
    (saved, { m with
      bus := { m.bus with host }
      saving := if ram.savePending then some ram else none })

def flush (m : Machine τ) : Machine τ :=
  let (_, m) := m.trySaveRam true
  let (cartridge, host) := m.bus.cartridge.saveClock m.bus.host true
  m.withCartridge cartridge host

omit [Timeline τ] in
/-- The image of a video memory dump: the address space up to the end of video memory, with zeros
in front. -/
def videoImage (m : Machine τ) : ByteArray :=
  ⟨Array.replicate 0x8000 0 ++ m.bus.display.vram.cells.toArray⟩

end Machine

end DotMatrix
