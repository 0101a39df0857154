import CurveEngine.Bus
import CurveEngine.Bytes
import CurveEngine.Register.Slot

/-! A register window as plain memory.

Every address holds one byte. Words and double words are stored least significant byte
first, at any address; what would lie past the end of the window reads as zero and is
not stored. -/
namespace CurveEngine

structure Window where
  bytes : Array UInt8

namespace Window

/-- The window with every byte zero. -/
def blank : Window := ⟨Array.replicate Register.windowSize.toNat 0⟩

def read (size : AccessSize) (address : Nat) (w : Window) : UInt64 :=
  Bytes.assemble ((List.range size.bytes).map fun j => w.bytes.getD (address + j) 0)

/-- Stores the low bytes of a value, as many as the access is wide. -/
def write (size : AccessSize) (address : Nat) (value : UInt64) (w : Window) : Window :=
  let store (bytes : Array UInt8) (entry : UInt8 × Nat) : Array UInt8 :=
    bytes.setIfInBounds (address + entry.2) entry.1
  ⟨(Bytes.split size.bytes value).zipIdx.foldl store w.bytes⟩

end Window

end CurveEngine
