import DotMatrix.Text.Hex

/-!
# Faults

What brings a running machine to a stop.
-/

namespace DotMatrix

inductive Fault where
  /-- A byte that encodes no instruction was fetched, from the given address. -/
  | illegalOpcode (opcode : UInt8) (pc : UInt16)
  /-- Object memory was to be copied from object memory. -/
  | dmaOverlap (addr : UInt16)
deriving DecidableEq, Repr, Inhabited

def Fault.message : Fault → String
  | illegalOpcode opcode pc => s!"illegal opcode {Text.Hex.byte opcode} at {Text.Hex.word pc}"
  | dmaOverlap addr => s!"OAM DMA source {Text.Hex.word addr} overlaps OAM"

end DotMatrix
