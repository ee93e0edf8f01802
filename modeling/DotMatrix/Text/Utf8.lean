/-!
# Reading bytes as text

Text is written in UTF-8. Bytes that are not well formed are read as replacement characters: one
for each longest run of bytes that could have begun a character, and one for each other byte.
-/

namespace DotMatrix.Text.Utf8

def replacement : Char := Char.ofNat 0xFFFD

/-- A character whose first bytes have been read. -/
structure Partial where
  /-- The code point as far as it is known. -/
  value : Nat
  /-- Bytes still to come. -/
  missing : Nat
  /-- The range of the next byte. -/
  first : Nat
  last : Nat
deriving DecidableEq, Repr, Inhabited

/-- Reads a byte that begins a character: the characters it yields, and the one it begins. -/
def begin (b : UInt8) : List Char × Option Partial :=
  let n := b.toNat
  if n < 0x80 then ([Char.ofNat n], none)
  else if 0xC2 ≤ n && n ≤ 0xDF then ([], some ⟨n - 0xC0, 1, 0x80, 0xBF⟩)
  else if n = 0xE0 then ([], some ⟨0, 2, 0xA0, 0xBF⟩)
  else if n = 0xED then ([], some ⟨0xD, 2, 0x80, 0x9F⟩)
  else if 0xE1 ≤ n && n ≤ 0xEF then ([], some ⟨n - 0xE0, 2, 0x80, 0xBF⟩)
  else if n = 0xF0 then ([], some ⟨0, 3, 0x90, 0xBF⟩)
  else if n = 0xF4 then ([], some ⟨4, 3, 0x80, 0x8F⟩)
  else if 0xF1 ≤ n && n ≤ 0xF3 then ([], some ⟨n - 0xF0, 3, 0x80, 0xBF⟩)
  else ([replacement], none)

def next (pending : Option Partial) (b : UInt8) : List Char × Option Partial :=
  match pending with
  | none => begin b
  | some p =>
    if p.first ≤ b.toNat && b.toNat ≤ p.last then
      let value := p.value * 64 + (b.toNat - 0x80)
      if p.missing ≤ 1 then ([Char.ofNat value], none)
      else ([], some ⟨value, p.missing - 1, 0x80, 0xBF⟩)
    else
      let (chars, pending) := begin b
      (replacement :: chars, pending)

def decodeFrom (pending : Option Partial) : List UInt8 → List Char
  | [] => if pending.isSome then [replacement] else []
  | b :: rest =>
    let (chars, pending) := next pending b
    chars ++ decodeFrom pending rest

def decode (bytes : List UInt8) : List Char := decodeFrom none bytes

end DotMatrix.Text.Utf8
