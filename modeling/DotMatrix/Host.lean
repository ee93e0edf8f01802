import DotMatrix.Log
import DotMatrix.Storage

/-!
# Host

The console's surroundings as it sees them: a storage, a calendar, a stopwatch, and a log to
write to.
-/

namespace DotMatrix

structure Host (τ : Type) where
  storage : Storage
  /-- The folder for save files, if they do not go beside the image. -/
  saveFolder : Option String
  /-- The present date and time. -/
  calendar : τ
  /-- Milliseconds on a stopwatch that never goes back. -/
  uptime : Nat
  /-- Log lines, the latest first. -/
  log : List LogLine

namespace Host

variable {τ : Type}

def report (h : Host τ) (level : LogLevel) (text : String) : Host τ :=
  { h with log := ⟨level, text⟩ :: h.log }

def info (h : Host τ) (text : String) : Host τ := h.report .info text

def warn (h : Host τ) (text : String) : Host τ := h.report .warn text

/-- Saves a file; a refusal is reported with what was to be saved. -/
def save (h : Host τ) (what path : String) (bytes : ByteArray) : Bool × Host τ :=
  match h.storage.save path bytes with
  | (.ok (), storage) => (true, { h with storage })
  | (.error e, storage) =>
    (false, { h with storage }.warn s!"Failed to save {what} to {path}: {e.message}")

def onStorage {α : Type} (work : StateM Storage α) : StateM (Host τ) α :=
  modifyGet fun h =>
    let (result, storage) := work.run h.storage
    (result, { h with storage })

def saveLocation (h : Host τ) (image : String) (kind : SaveKind) : String :=
  DotMatrix.saveLocation h.saveFolder image kind

end Host

end DotMatrix
