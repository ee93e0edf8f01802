import DotMatrix.Display.Frame
import DotMatrix.Recording.Bytes
import DotMatrix.Recording.Checksum

/-!
# Picture files

A picture file is a signature and a sequence of chunks, each with its length, its name, its data
and a checksum. The picture has three bytes of colour for each pixel, and every line is preceded
by the number of its filter, which is always the one that changes nothing. The lines are stored
uncompressed, in blocks of limited size. `encode` writes such files and `decode?` reads them.
-/

namespace DotMatrix.Recording

structure Picture where
  width : Nat
  height : Nat
  /-- Red, green and blue of each pixel, line after line. -/
  bytes : List UInt8
deriving DecidableEq, Repr, Inhabited

namespace Picture

def colourBytes (colour : UInt32) : List UInt8 :=
  [(colour >>> 16).toUInt8, (colour >>> 8).toUInt8, colour.toUInt8]

def ofFrame (frame : Display.Frame) : Picture :=
  ⟨Display.screenWidth, Display.screenHeight, frame.pixels.toList.flatMap colourBytes⟩

/-! ## Writing -/

def signature : List UInt8 := [0x89, 0x50, 0x4E, 0x47, 0x0D, 0x0A, 0x1A, 0x0A]

def chunk (name : String) (data : List UInt8) : List UInt8 :=
  let body := nameBytes name ++ data
  bigEndian 4 data.length ++ body ++ bigEndian 4 (cyclicSum body).toNat

/-- The data of the first chunk: eight bits for each of three colours, no compression but the
standard one, no interlacing. -/
def formatBytes (width height : Nat) : List UInt8 :=
  bigEndian 4 width ++ bigEndian 4 height ++ [8, 2, 0, 0, 0]

/-- The lines, each behind the number of its filter. -/
def filterLines (lineSize : Nat) : Nat → List UInt8 → List UInt8
  | 0, _ => []
  | height + 1, bytes =>
    0 :: bytes.take lineSize ++ filterLines lineSize height (bytes.drop lineSize)

def maxBlockSize : Nat := 0xFFFF

/-- Stores bytes in blocks, the last of which is marked; at most as many as the first argument
says. -/
def storeBlocks : Nat → List UInt8 → List UInt8
  | 0, _ => []
  | n + 1, bytes =>
    let block := bytes.take maxBlockSize
    let rest := bytes.drop maxBlockSize
    let mark : UInt8 := if rest.isEmpty then 1 else 0
    let length := block.length
    let header := mark :: littleEndian 2 length ++ littleEndian 2 (maxBlockSize - length)
    header ++ block ++ if rest.isEmpty then [] else storeBlocks n rest

def pack (bytes : List UInt8) : List UInt8 :=
  [0x78, 0x01] ++ storeBlocks (bytes.length / maxBlockSize + 1) bytes
    ++ bigEndian 4 (addingSum bytes)

def encode (p : Picture) : ByteArray :=
  let lines := filterLines (3 * p.width) p.height p.bytes
  let chunks := chunk "IHDR" (formatBytes p.width p.height) ++ chunk "IDAT" (pack lines)
    ++ chunk "IEND" []
  ⟨(signature ++ chunks).toArray⟩

/-! ## Reading -/

def takeBytes? (count : Nat) (bytes : List UInt8) : Option (List UInt8 × List UInt8) :=
  let taken := bytes.take count
  if taken.length = count then some (taken, bytes.drop count) else none

/-- Reads chunks, at most as many as the first argument says. -/
def readChunks? : Nat → List UInt8 → Option (List (List UInt8 × List UInt8))
  | _, [] => some []
  | 0, _ => none
  | n + 1, bytes => do
    let (length, rest) ← takeBytes? 4 bytes
    let (name, rest) ← takeBytes? 4 rest
    let (data, rest) ← takeBytes? (ofBigEndian length) rest
    let (sum, rest) ← takeBytes? 4 rest
    guard (ofBigEndian sum = (cyclicSum (name ++ data)).toNat)
    return (name, data) :: (← readChunks? n rest)

/-- Reads stored blocks, at most as many as the first argument says, and what follows them. -/
def readBlocks? : Nat → List UInt8 → Option (List UInt8 × List UInt8)
  | 0, _ => none
  | n + 1, bytes => do
    let (mark, rest) ← takeBytes? 1 bytes
    let (length, rest) ← takeBytes? 2 rest
    let (inverse, rest) ← takeBytes? 2 rest
    guard (ofLittleEndian length + ofLittleEndian inverse = maxBlockSize)
    let (block, rest) ← takeBytes? (ofLittleEndian length) rest
    match mark with
    | [1] => return (block, rest)
    | [0] =>
      let (more, rest) ← readBlocks? n rest
      return (block ++ more, rest)
    | _ => none

def unpack? (bytes : List UInt8) : Option (List UInt8) := do
  let (mark, rest) ← takeBytes? 2 bytes
  guard (mark = [0x78, 0x01])
  let (content, rest) ← readBlocks? rest.length rest
  guard (rest = bigEndian 4 (addingSum content))
  return content

/-- Takes the numbers of the filters away. -/
def unfilterLines? (lineSize : Nat) : Nat → List UInt8 → Option (List UInt8)
  | 0, [] => some []
  | 0, _ => none
  | _ + 1, [] => none
  | height + 1, filter :: bytes => do
    guard (filter = 0)
    let (line, rest) ← takeBytes? lineSize bytes
    return line ++ (← unfilterLines? lineSize height rest)

def decode? (file : ByteArray) : Option Picture := do
  let (start, rest) ← takeBytes? 8 file.data.toList
  guard (start = signature)
  let chunks ← readChunks? rest.length rest
  let format ← chunks.lookup (nameBytes "IHDR")
  let (width, more) ← takeBytes? 4 format
  let (height, more) ← takeBytes? 4 more
  guard (more = [8, 2, 0, 0, 0])
  let (width, height) := (ofBigEndian width, ofBigEndian height)
  let packed := (chunks.filter (·.1 = nameBytes "IDAT")).flatMap (·.2)
  let lines ← unpack? packed
  return ⟨width, height, ← unfilterLines? (3 * width) height lines⟩

end Picture

end DotMatrix.Recording
