import DotMatrix.Timeline
import DotMatrix.Word

/-!
# Real-time clock

The clock does not count. Its registers are read off the time that has passed since a start time,
so that it goes on while the console is off. Halting it remembers the moment; registers written
while it is halted are kept and set the start time when it resumes. The program reads a latched
copy of the registers.
-/

namespace DotMatrix

def secondsPerDay : Nat := 86400

/-- Days that the day counter can tell apart. -/
def dayCounterLimit : Nat := 512

structure ClockRegisters where
  seconds : Nat
  minutes : Nat
  hours : Nat
  /-- The day counter, of nine bits. -/
  days : Nat
  halt : Bool
  carry : Bool
deriving DecidableEq, Repr, Inhabited

namespace ClockRegisters

def ofElapsed (elapsed : Nat) (halt : Bool) : ClockRegisters where
  seconds := elapsed % 60
  minutes := elapsed / 60 % 60
  hours := elapsed / 3600 % 24
  days := elapsed / secondsPerDay % dayCounterLimit
  halt := halt
  carry := decide (dayCounterLimit ≤ elapsed / secondsPerDay)

def totalSeconds (r : ClockRegisters) : Nat :=
  r.seconds + r.minutes * 60 + r.hours * 3600
    + (r.days + if r.carry then dayCounterLimit else 0) * secondsPerDay

def sameTime (r s : ClockRegisters) : Bool :=
  { r with halt := false } = { s with halt := false }

def read (r : ClockRegisters) (reg : UInt8) : UInt8 :=
  match reg.toNat with
  | 0x08 => r.seconds.toUInt8
  | 0x09 => r.minutes.toUInt8
  | 0x0A => r.hours.toUInt8
  | 0x0B => r.days.toUInt8
  | 0x0C => (r.days / 256 % 2).toUInt8 ||| bitsIf r.halt 0x40 ||| bitsIf r.carry 0x80
  | _ => 0xFF

/-- Writes a register's byte; values beyond a register's range wrap around. -/
def write (r : ClockRegisters) (reg val : UInt8) : ClockRegisters :=
  match reg.toNat with
  | 0x08 => { r with seconds := val.toNat % 60 }
  | 0x09 => { r with minutes := val.toNat % 60 }
  | 0x0A => { r with hours := val.toNat % 24 }
  | 0x0B => { r with days := r.days / 256 * 256 + val.toNat }
  | 0x0C =>
    { r with
      days := val.toNat % 2 * 256 + r.days % 256
      halt := anySet val 0x40
      carry := anySet val 0x80 }
  | _ => r

end ClockRegisters

structure RealTimeClock (τ : Type) where
  /-- The time at which the clock read zero. -/
  start : τ
  /-- When the clock was halted. -/
  stoppedAt : Option τ
  /-- Registers written while halted. -/
  written : Option ClockRegisters
  /-- The copy that the program reads. -/
  latched : ClockRegisters
  /-- A zero was the last value written to the latch. -/
  latchArmed : Bool
  /-- The start time has changed since it was last saved. -/
  dirty : Bool
deriving Repr, Inhabited

namespace RealTimeClock

variable {τ : Type} [Timeline τ]

/-- The size of the saved clock: a time and padding. -/
def fileSize : Nat := 12

def current (c : RealTimeClock τ) (now : τ) : ClockRegisters :=
  match c.written with
  | some regs => regs
  | none => .ofElapsed (Timeline.elapsed c.start (c.stoppedAt.getD now)) c.stoppedAt.isSome

/-- A clock that reads zero now, or one that has run since a saved start. -/
def create (now : τ) (saved : Option τ) : RealTimeClock τ :=
  let c : RealTimeClock τ :=
    ⟨saved.getD now, none, none, .ofElapsed 0 false, false, saved.isNone⟩
  { c with latched := c.current now }

def read (c : RealTimeClock τ) (reg : UInt8) : UInt8 := c.latched.read reg

/-- Writes the latch: a zero arms it, and the next other value copies the live registers. -/
def writeLatch (c : RealTimeClock τ) (now : τ) (val : UInt8) : RealTimeClock τ :=
  if val = 0 then { c with latchArmed := true }
  else
    { c with
      latched := if c.latchArmed then c.current now else c.latched
      latchArmed := false }

/-- Writes a register. While the halt bit stays set, changed registers are only kept. Otherwise
the clock runs on: from where it stopped if it shows the time it stopped at, and else from the
registers as they are now. -/
def write (c : RealTimeClock τ) (now : τ) (reg val : UInt8) : RealTimeClock τ :=
  let before := c.current now
  let regs := before.write reg val
  let moved := c.written.isSome || !regs.sameTime before
  if regs.halt then
    { c with
      stoppedAt := some (c.stoppedAt.getD now)
      written := if moved then some regs else none }
  else
    let start :=
      match c.stoppedAt with
      | some stopped =>
        if moved then Timeline.before now regs.totalSeconds
        else Timeline.skip c.start stopped now
      | none => Timeline.before now regs.totalSeconds
    { c with start := start, stoppedAt := none, written := none, dirty := true }

def takeDirty (c : RealTimeClock τ) : Bool × RealTimeClock τ := (c.dirty, { c with dirty := false })

/-- The start time to save; a halted clock comes back with the time it shows. -/
def persistedStart (c : RealTimeClock τ) (now : τ) : τ :=
  match c.stoppedAt with
  | some _ => Timeline.before now (c.current now).totalSeconds
  | none => c.start

def toBytes (c : RealTimeClock τ) (now : τ) : ByteArray :=
  ⟨(Timeline.encode (c.persistedStart now) ++ [0, 0, 0, 0]).toArray⟩

def startOfBytes? (bytes : ByteArray) : Option τ :=
  if bytes.size < 8 then none else Timeline.decode? (bytes.extract 0 8).toList

end RealTimeClock

end DotMatrix
