import CurveEngine.Microcode

/-! Fp memory: where the large numbers of a computation are kept.

Numbers of `size` bits take a fixed count of limbs, four bits of headroom included.
Slot `k` begins at `k` times the stride, which is that count rounded up to a power of
two. `LimbLayout` is such a placement, and `ofSize` is the one by which a driver reads; the
device has its own, by which it stores. The memory itself has a slot for each of
`Microcode.Slot.count` numbers of the largest size.

Sizes, counts and addresses are words of 32 bits, and what is computed from them wraps
around where a word does not hold it. -/
namespace CurveEngine

/-- Placement of large numbers in Fp memory. -/
structure LimbLayout where
  limbWidth : Nat
  /-- Limbs per number. -/
  limbs : Nat
  /-- Distance in limbs between two slots. -/
  stride : Nat
  deriving Repr, DecidableEq

namespace LimbLayout

/-- The least power of two that is not below a number. -/
def roundUp (n : Nat) : Nat := if n ≤ 1 then 1 else 1 <<< ((n - 1).log2 + 1)

/-- The least power of two that is not below a word, or zero if no word holds it. -/
def roundUpWord (n : UInt32) : UInt32 := UInt32.ofNat (roundUp n.toNat)

/-- The placement of numbers of `size` bits in limbs of `limbWidth` bits, as a driver takes
it to be. -/
def ofSize (size limbWidth : Nat) : LimbLayout :=
  let width := UInt32.ofNat limbWidth
  let limbs := (UInt32.ofNat size + 4 + width - 1) / width
  ⟨limbWidth, limbs.toNat, (roundUpWord limbs).toNat⟩

/-- Address of the first limb of a slot. -/
def base (l : LimbLayout) (slot : Nat) : Nat := slot * l.stride

/-- Address of a limb of a slot, as a word. -/
def address (l : LimbLayout) (slot i : Nat) : UInt32 := UInt32.ofNat (l.base slot + i)

end LimbLayout

abbrev FpMemory := Array UInt32

namespace FpMemory

/-- Distance in limbs between two slots for numbers of the largest size. -/
def stride (maxSize limbWidth : Nat) : UInt32 :=
  let width := UInt32.ofNat limbWidth
  LimbLayout.roundUpWord ((UInt32.ofNat maxSize + 4 + width - 1) / width)

/-- Limbs of a memory for numbers of up to `maxSize` bits. -/
def capacity (maxSize limbWidth : Nat) : UInt32 :=
  UInt32.ofNat Microcode.Slot.count * stride maxSize limbWidth

/-- Memory for numbers of up to `maxSize` bits, all zero. -/
def blank (maxSize limbWidth : Nat) : FpMemory :=
  Array.replicate (capacity maxSize limbWidth).toNat 0

/-- The `i`-th 32-bit digit of a number, least significant first. -/
def digit (value i : Nat) : UInt32 := UInt32.ofNat (value >>> (32 * i))

/-- Writes the digits of a number to the limbs of a slot. What lies beyond the memory
is not written. -/
def store (layout : LimbLayout) (slot value : Nat) (memory : FpMemory) : FpMemory :=
  (List.range layout.limbs).foldl
    (fun m i => m.setIfInBounds (layout.address slot i).toNat (digit value i)) memory

end FpMemory

end CurveEngine
