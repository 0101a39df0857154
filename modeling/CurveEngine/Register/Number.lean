/-! The big-number registers.

Eight registers hold the curve and two points, and the scalar has one of its own. The
control register selects them by address; the scalar shares the address of R0's first
coordinate and is told apart by a bit of the command. -/
namespace CurveEngine.Register

inductive Number where
  | p
  | a
  | b
  | q
  | xR0
  | yR0
  | xR1
  | yR1
  deriving Repr, DecidableEq

namespace Number

def address : Number → UInt32
  | .p => 0
  | .a => 1
  | .b => 2
  | .q => 3
  | .xR0 => 4
  | .yR0 => 5
  | .xR1 => 6
  | .yR1 => 7

def ofAddress? (address : UInt32) : Option Number :=
  match address.toNat with
  | 0 => some .p
  | 1 => some .a
  | 2 => some .b
  | 3 => some .q
  | 4 => some .xR0
  | 5 => some .yR0
  | 6 => some .xR1
  | 7 => some .yR1
  | _ => none

theorem ofAddress?_address (n : Number) : ofAddress? n.address = some n := by cases n <;> rfl

end Number

/-- What a transfer can write to. -/
inductive Destination where
  | number (n : Number)
  | scalar
  deriving Repr, DecidableEq

namespace Destination

def address : Destination → UInt32
  | .number n => n.address
  | .scalar => Number.xR0.address

end Destination

/-- The registers that hold a point. -/
inductive PointRegister where
  | r0
  | r1
  deriving Repr, DecidableEq

namespace PointRegister

def x : PointRegister → Number
  | .r0 => .xR0
  | .r1 => .xR1

def y : PointRegister → Number
  | .r0 => .yR0
  | .r1 => .yR1

end PointRegister

end CurveEngine.Register
