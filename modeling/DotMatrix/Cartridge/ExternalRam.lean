import DotMatrix.Host

/-!
# External memory

The memory of a cartridge and its way into a save file. A change marks it as modified. A snapshot
can be asked to be saved; the save happens once the request has been quiet for a while, or at
once when it is forced.
-/

namespace DotMatrix

structure ExternalRam where
  bytes : Array UInt8
  modified : Bool
  /-- The stopwatch when a save was last asked for. -/
  requestedAt : Option Nat
deriving DecidableEq, Repr, Inhabited

namespace ExternalRam

def debounce : Nat := 20000

def create (size : Nat) : ExternalRam := ⟨Array.replicate size 0, false, none⟩

def size (r : ExternalRam) : Nat := r.bytes.size

def read (r : ExternalRam) (pos : Nat) : UInt8 := r.bytes[pos]?.getD 0xFF

/-- Writes a byte. Writing beyond the end, or what is already there, does nothing. -/
def write (r : ExternalRam) (pos : Nat) (val : UInt8) : ExternalRam :=
  if h : pos < r.bytes.size then
    if r.bytes[pos] = val then r else { r with bytes := r.bytes.set pos val, modified := true }
  else r

def load (r : ExternalRam) (saved : ByteArray) : ExternalRam :=
  let data := saved.data.extract 0 r.bytes.size
  { r with bytes := data ++ r.bytes.extract data.size r.bytes.size, modified := false }

def snapshot (r : ExternalRam) : ExternalRam := ⟨r.bytes, false, none⟩

def resetModified (r : ExternalRam) : ExternalRam := { r with modified := false }

def requestSave (r : ExternalRam) (uptime : Nat) : ExternalRam :=
  { r with requestedAt := some uptime }

def savePending (r : ExternalRam) : Bool := r.requestedAt.isSome

/-- A request is due once it has been quiet for the debounce time, or at once when forced. -/
def due (r : ExternalRam) (uptime : Nat) (force : Bool) : Bool :=
  match r.requestedAt with
  | none => false
  | some requested => force || decide (debounce ≤ uptime - requested)

/-- Saves the contents if a request is due; the answer tells whether they were written. A
request ends with the attempt. -/
def trySave {τ : Type} (r : ExternalRam) (host : Host τ) (path : String) (force : Bool) :
    Bool × ExternalRam × Host τ :=
  if r.due host.uptime force then
    let (saved, host) := host.save "cartridge RAM" path ⟨r.bytes⟩
    (saved, { r with requestedAt := none }, host)
  else (false, r, host)

end ExternalRam

end DotMatrix
