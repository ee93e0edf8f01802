import DotMatrix.Main
import DotMatrix.Proofs.Cartridge.RamCells
import DotMatrix.Proofs.Cpu.Bisimulation
import DotMatrix.Proofs.Display.Buffers
import DotMatrix.Proofs.Display.Freshness
import DotMatrix.Proofs.Machine.Budget
import DotMatrix.Proofs.Machine.DisplayAccess
import DotMatrix.Proofs.Machine.HostActivity
import DotMatrix.Proofs.Machine.Interrupts
import DotMatrix.Proofs.Machine.PowerCycle
import DotMatrix.Proofs.Sound.Bounds
import DotMatrix.Proofs.Sound.TickCount
import DotMatrix.Proofs.Timer.ClosedForm
import DotMatrix.Proofs.Timer.Requests
import DotMatrix.Proofs.Cartridge.RomWindows
import DotMatrix.Proofs.Time.Binary64
import DotMatrix.Proofs.Time.Reading
import DotMatrix.Proofs.Cartridge.Stopwatch
import DotMatrix.Proofs.Cartridge.ClockFile
import DotMatrix.Proofs.Cpu.Writes
import DotMatrix.Proofs.Machine.Requests
import DotMatrix.Proofs.Machine.Service
import DotMatrix.Proofs.Exchange.Slot
import DotMatrix.Proofs.Sound.Stream
import DotMatrix.Proofs.Machine.Coherence
import DotMatrix.Proofs.Sound.Registers
import DotMatrix.Proofs.Cpu.Decimal
import DotMatrix.Proofs.Display.Picture
import DotMatrix.Proofs.Display.Requests
import DotMatrix.Proofs.Machine.Halt
import DotMatrix.Proofs.Machine.ObjectCopy
import DotMatrix.Proofs.Cpu.Opcodes
import DotMatrix.Proofs.Sound.Pace
import DotMatrix.Proofs.Sound.Sequencing
import DotMatrix.Proofs.Cartridge.BankZero
import DotMatrix.Proofs.Machine.RefusedSave
import DotMatrix.Proofs.Display.Restart
import DotMatrix.Proofs.Sound.Restart
import DotMatrix.Proofs.Sound.Mixing
import DotMatrix.Proofs.Cartridge.Latch
import DotMatrix.Proofs.Machine.Faults
import DotMatrix.Proofs.Cpu.Binary
import DotMatrix.Proofs.Machine.MemoryMap
import DotMatrix.Proofs.Machine.Calls
import DotMatrix.Proofs.Cartridge.Acceptance
import DotMatrix.Proofs.Display.Period
import DotMatrix.Proofs.Machine.ImageFile
import DotMatrix.Proofs.Cpu.Routines
