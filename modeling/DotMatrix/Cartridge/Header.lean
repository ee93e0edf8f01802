import DotMatrix.Storage.Error
import DotMatrix.Text.Blank
import DotMatrix.Text.Hex
import DotMatrix.Text.Utf8

/-!
# Cartridge header

The header of an image says what the cartridge contains: which bank controller, how many banks of
program memory, how much external memory, a battery, a timer, a rumble motor. An image is refused
when its header is cut off or holds a code that means nothing.
-/

namespace DotMatrix

inductive Family where
  | romOnly | mbc1 | mbc2 | mbc3 | mbc4 | mbc5 | mbc6 | mbc7 | mmm01
  /-- Cameras and other one-off hardware. -/
  | special
deriving DecidableEq, Repr, Inhabited

namespace Family

def name : Family → String
  | romOnly => "RomOnly"
  | mbc1 => "Mbc1"
  | mbc2 => "Mbc2"
  | mbc3 => "Mbc3"
  | mbc4 => "Mbc4"
  | mbc5 => "Mbc5"
  | mbc6 => "Mbc6"
  | mbc7 => "Mbc7"
  | mmm01 => "Mmm01"
  | special => "Special"

def ofType? (code : UInt8) : Option Family :=
  let n := code.toNat
  if n ∈ [0x00, 0x08, 0x09] then some romOnly
  else if n ∈ [0x01, 0x02, 0x03] then some mbc1
  else if n ∈ [0x05, 0x06] then some mbc2
  else if n ∈ [0x0B, 0x0C, 0x0D] then some mmm01
  else if n ∈ [0x0F, 0x10, 0x11, 0x12, 0x13] then some mbc3
  else if n ∈ [0x15, 0x16, 0x17] then some mbc4
  else if n ∈ [0x19, 0x1A, 0x1B, 0x1C, 0x1D, 0x1E] then some mbc5
  else if n = 0x20 then some mbc6
  else if n = 0x22 then some mbc7
  else if n ∈ [0xFC, 0xFD, 0xFE, 0xFF] then some special
  else none

end Family

inductive CartridgeError where
  /-- The image ends before its header does. -/
  | truncated (length : Nat)
  /-- The image is shorter than its header says. -/
  | shortImage (expected actual : Nat)
  | unknownType (code : UInt8)
  /-- The cartridge's bank controller is known, but there is none here. -/
  | unsupported (code : UInt8) (family : Family)
  | invalidRomSize (code : UInt8)
  | invalidRamSize (code : UInt8)
  | unreadable (cause : StorageError)
deriving DecidableEq, Repr, Inhabited

def headerEnd : Nat := 0x150

def CartridgeError.message : CartridgeError → String
  | truncated length => s!"ROM image is truncated ({length} bytes, header needs 0x150)"
  | shortImage expected actual =>
    s!"ROM image is {actual} bytes but the header declares {expected}"
  | unknownType code => s!"unknown cartridge type byte {Text.Hex.byte code}"
  | unsupported code family =>
    s!"cartridge type {Text.Hex.byte code} ({family.name}) is not supported"
  | invalidRomSize code => s!"invalid ROM size code {Text.Hex.byte code}"
  | invalidRamSize code => s!"invalid RAM size code {Text.Hex.byte code}"
  | unreadable cause => s!"failed to read ROM: {cause.message}"

/-- A byte of an image; beyond its end there is nothing to see but `0xFF`. -/
def imageByte (image : ByteArray) (i : Nat) : UInt8 := if h : i < image.size then image[i] else 0xFF

structure Capability where
  cartType : UInt8
  family : Family
  hasRam : Bool
  hasBattery : Bool
  hasTimer : Bool
  hasRumble : Bool
  ramSize : Nat
  romBanks : Nat
deriving DecidableEq, Repr, Inhabited

namespace Capability

def romBanks? (code : UInt8) : Option Nat :=
  let n := code.toNat
  if n ≤ 7 then some (1 <<< (n + 1))
  else if n = 0x52 then some 72
  else if n = 0x53 then some 80
  else if n = 0x54 then some 96
  else none

def ramSize? (code : UInt8) : Option Nat :=
  match code.toNat with
  | 0 => some 0
  | 1 => some 0x800
  | 2 => some 0x2000
  | 3 => some 0x8000
  | 4 => some 0x20000
  | 5 => some 0x10000
  | _ => none

def typesWithRam : List Nat :=
  [0x02, 0x03, 0x08, 0x09, 0x0C, 0x0D, 0x10, 0x12, 0x13, 0x16, 0x17, 0x19, 0x1A, 0x1B, 0x1D, 0x1E,
    0x22]

def typesWithBattery : List Nat :=
  [0x03, 0x06, 0x09, 0x0D, 0x0F, 0x10, 0x13, 0x17, 0x1B, 0x1E, 0x22]

def typesWithTimer : List Nat := [0x0F, 0x10]

def typesWithRumble : List Nat := [0x0C, 0x0D, 0x0E, 0x22]

def ofHeader (image : ByteArray) : Except CartridgeError Capability :=
  if image.size < headerEnd then .error (.truncated image.size)
  else
    let type := imageByte image 0x147
    let romCode := imageByte image 0x148
    let ramCode := imageByte image 0x149
    match Family.ofType? type with
    | none => .error (.unknownType type)
    | some family =>
      match romBanks? romCode with
      | none => .error (.invalidRomSize romCode)
      | some romBanks =>
        match ramSize? ramCode with
        | none => .error (.invalidRamSize ramCode)
        | some ramSize =>
          let n := type.toNat
          let hasRam := typesWithRam.contains n
          .ok {
            cartType := type
            family := family
            hasRam := hasRam
            hasBattery := typesWithBattery.contains n
            hasTimer := typesWithTimer.contains n
            hasRumble := typesWithRumble.contains n
            ramSize := if hasRam then ramSize else 0
            romBanks := romBanks }

end Capability

def isColor (image : ByteArray) : Bool :=
  let mark := imageByte image 0x143
  mark = 0x80 || mark = 0xC0

/-- The title in the header: up to the first zero byte, without blanks at its ends. Where the
image is marked for colour, the title field is shorter. -/
def imageTitle (image : ByteArray) : String :=
  let field := image.extract 0x134 (if isColor image then 0x13F else 0x144)
  String.ofList (Text.trimBlanks (Text.Utf8.decode (field.toList.takeWhile (· ≠ 0))))

end DotMatrix
