import DotMatrix.Recording.Bytes
import DotMatrix.Sound
import DotMatrix.Storage.Stream

/-!
# Sound files

A sound file is a header of 44 bytes, which gives the format and the length, and after it the
samples: left and right in turn, each as two bytes with the lower first. The lengths are not known
before the end, and are filled in then.
-/

namespace DotMatrix.Recording

def sampleSize : Nat := 4

def waveHeader : List UInt8 :=
  nameBytes "RIFF" ++ littleEndian 4 0 ++ nameBytes "WAVE"
    ++ nameBytes "fmt " ++ littleEndian 4 16
    ++ littleEndian 2 1 ++ littleEndian 2 2
    ++ littleEndian 4 Sound.sampleRate ++ littleEndian 4 (Sound.sampleRate * sampleSize)
    ++ littleEndian 2 sampleSize ++ littleEndian 2 16
    ++ nameBytes "data" ++ littleEndian 4 0

/-- Where the header holds the number of bytes behind the first eight. -/
def fileLengthOffset : Nat := 4

/-- Where the header holds the number of bytes of samples. -/
def dataLengthOffset : Nat := 40

structure Recorder where
  stream : Stream
  /-- Runs of samples recorded so far. -/
  frames : Nat

namespace Recorder

def create (s : Storage) (path : String) : Except StorageError (Recorder × Storage) := do
  let (stream, s) ← Stream.create s path
  let (stream, s) := (stream.push waveHeader).run s
  return (⟨stream, 0⟩, s)

def pushSide (stream : Stream) (side : Int16) : StateM Storage Stream :=
  stream.push (littleEndian 2 side.toUInt16.toNat)

def play (r : Recorder) (frame : Sound.AudioFrame) : StateM Storage Recorder := do
  let stream ← frame.samples.toList.foldlM (fun stream sample => do
    pushSide (← pushSide stream sample.left) sample.right) r.stream
  return ⟨stream, r.frames + 1⟩

def dataLength (r : Recorder) : Nat := r.frames * Sound.frameLength * sampleSize

def finish (r : Recorder) : StateM Storage Unit := do
  let stream ← r.stream.seek fileLengthOffset
  let stream ← stream.push (littleEndian 4 (36 + r.dataLength))
  let stream ← stream.seek dataLengthOffset
  let stream ← stream.push (littleEndian 4 r.dataLength)
  discard stream.flush

end Recorder

end DotMatrix.Recording
