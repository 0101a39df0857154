/-! Bit fields of 32-bit registers.

A register is a word; a `BitField` names a run of its bits. `get` and `set` read and
replace the run, `test` and `put` do so for a field that is one bit wide. Setting a
field keeps the rest of the word, and a value wider than the field loses its high
bits. -/
namespace CurveEngine

/-- The `width` bits of a word from bit `low` up. -/
structure BitField where
  low : Nat
  width : Nat
  deriving Repr, DecidableEq

namespace BitField

/-- The single bit `n`. -/
def bit (n : Nat) : BitField := ⟨n, 1⟩

/-- The bits from `high` down to `low`. -/
def span (high low : Nat) : BitField := ⟨low, high - low + 1⟩

/-- The largest value of the field. -/
def mask (f : BitField) : UInt32 := UInt32.ofNat ((1 <<< f.width) - 1)

def get (f : BitField) (word : UInt32) : UInt32 := (word >>> UInt32.ofNat f.low) &&& f.mask

def set (f : BitField) (value word : UInt32) : UInt32 :=
  (word &&& ~~~(f.mask <<< UInt32.ofNat f.low)) |||
    ((value &&& f.mask) <<< UInt32.ofNat f.low)

def test (f : BitField) (word : UInt32) : Bool := f.get word != 0

def put (f : BitField) (value : Bool) (word : UInt32) : UInt32 :=
  f.set (if value then 1 else 0) word

end BitField

end CurveEngine
