import DotMatrix.Storage

/-!
# Streams

A file that is written bit by bit. Bytes are held back until there is no room for more; only then
do they reach the file, at the place where the stream stands. What is written to the file in the
meantime by others is kept where the stream does not write.
-/

namespace DotMatrix

structure Stream where
  location : Location
  /-- Where in the file the bytes go that are held back. -/
  position : Nat
  held : ByteArray

namespace Stream

/-- A file with bytes put over what stands at a position. Zeros fill a gap before them. -/
def overwrite (file : ByteArray) (position : Nat) (bytes : ByteArray) : ByteArray :=
  let gap : ByteArray := ⟨Array.replicate (position - file.size) 0⟩
  file.extract 0 position ++ gap ++ bytes ++ file.extract (position + bytes.size) file.size

def capacity : Nat := 8192

def create (s : Storage) (path : String) : Except StorageError (Stream × Storage) := do
  let location ← s.place path
  return (⟨location, 0, .empty⟩, s.put location .empty)

def flush (stream : Stream) : StateM Storage Stream := do
  if stream.held.isEmpty then return stream
  modify fun s =>
    let file := (s.fileAt? stream.location).getD .empty
    s.put stream.location (overwrite file stream.position stream.held)
  return { stream with position := stream.position + stream.held.size, held := .empty }

/-- Takes a few bytes, which stay together. -/
def push (stream : Stream) (bytes : List UInt8) : StateM Storage Stream := do
  let full := capacity < stream.held.size + bytes.length
  let stream ← if full then stream.flush else pure stream
  return { stream with held := bytes.foldl ByteArray.push stream.held }

def seek (stream : Stream) (position : Nat) : StateM Storage Stream := do
  let stream ← stream.flush
  return { stream with position }

end Stream

end DotMatrix
