/-!
# Time

A clock needs four things of the times it works with: how many whole seconds lie between two of
them, the time a number of seconds before another, the time moved on by a pause, and a written
form of eight bytes. Binary floating-point seconds since the epoch are such times.
-/

namespace DotMatrix

class Timeline (τ : Type) where
  /-- Whole seconds from the first time to the second; none if the second is earlier. -/
  elapsed : τ → τ → Nat
  /-- The time a number of seconds earlier. -/
  before : τ → Nat → τ
  /-- `skip start stopped now` is `start` moved on by the pause from `stopped` to `now`. -/
  skip : τ → τ → τ → τ
  /-- The eight bytes that a time is written as. -/
  encode : τ → List UInt8
  /-- Reads a written time; not every eight bytes are one. -/
  decode? : List UInt8 → Option τ

def littleEndian64 (n : UInt64) : List UInt8 :=
  [n.toUInt8, (n >>> 8).toUInt8, (n >>> 16).toUInt8, (n >>> 24).toUInt8,
    (n >>> 32).toUInt8, (n >>> 40).toUInt8, (n >>> 48).toUInt8, (n >>> 56).toUInt8]

def ofLittleEndian (bytes : List UInt8) : UInt64 :=
  bytes.foldr (fun b n => (n <<< 8) ||| b.toUInt64) 0

instance : Timeline Float where
  elapsed start now :=
    let d := now - start
    if 0 < d then d.toUInt64.toNat else 0
  before now seconds := now - Float.ofNat seconds
  skip start stopped now := start + (now - stopped)
  encode t := littleEndian64 t.toBits
  decode? bytes :=
    let t := Float.ofBits (ofLittleEndian bytes)
    if bytes.length = 8 && t.isFinite then some t else none

end DotMatrix
