/-! The bus between a driver and an engine.

An access is a load or a store of a word or a double word at an offset. `Bus σ` is
anything with a state of type `σ` that answers accesses and can be told what the driver
has to say; it may refuse an access with a fault. Double words carry a register with
its two halves swapped (`swapHalves`). -/
namespace CurveEngine

/-- The width of an access. -/
inductive AccessSize where
  /-- 32 bits. -/
  | word
  /-- 64 bits. -/
  | doubleWord
  deriving Repr, DecidableEq

namespace AccessSize

def bytes : AccessSize → Nat
  | .word => 4
  | .doubleWord => 8

def name : AccessSize → String
  | .word => "Word"
  | .doubleWord => "DoubleWord"

end AccessSize

/-- Why a bus refuses an access. -/
inductive BusFault where
  | loadMisaligned
  | loadRefused
  | storeMisaligned
  | storeRefused
  deriving Repr, DecidableEq

def BusFault.name : BusFault → String
  | .loadMisaligned => "LoadAddrMisaligned"
  | .loadRefused => "LoadAccessFault"
  | .storeMisaligned => "StoreAddrMisaligned"
  | .storeRefused => "StoreAccessFault"

/-- Accepts an offset that is a multiple of the access size. -/
def requireAligned (size : AccessSize) (offset : UInt32) (fault : BusFault) :
    Except BusFault Unit :=
  if offset.toNat % size.bytes = 0 then .ok () else .error fault

/-- The low 32 bits of a word. -/
def lowHalf (word : UInt64) : UInt64 := word &&& 0xffffffff

/-- A double word with its two 32-bit halves exchanged. -/
def swapHalves (word : UInt64) : UInt64 := (word <<< 32) ||| (word >>> 32)

end CurveEngine
