import CurveEngine.Register.BitField

/-! The control register: commands and big-number transfers.

A control word starts a point operation or opens a transfer of one of the big
numbers, which its high bits address. `Command` is what the driver asks for; the
device reads the bits of whatever word it is given. -/
namespace CurveEngine.Register

/-- The point operations. -/
inductive PointOperation where
  | multiply
  | add
  | double
  | check
  | negate
  | equal
  | opposite
  deriving Repr, DecidableEq

namespace Control
open BitField (bit span)

def multiply := bit 0
def add := bit 1
def double := bit 2
def check := bit 3
def negate := bit 4
def equal := bit 5
def opposite := bit 6
def readToken := bit 12
def writeNumber := bit 16
def readNumber := bit 17
def writeScalar := bit 18
/-- Address of the big number to transfer. -/
def address := span 31 20

/-- The bits of a control word that have a meaning of their own, the address apart. -/
def known : UInt32 := 0x7107f

/-- A word cut down to the command bits. -/
def ofWord (word : UInt32) : UInt32 := word &&& known

/-- The bit that starts an operation. -/
def start : PointOperation → BitField
  | .multiply => multiply
  | .add => add
  | .double => double
  | .check => check
  | .negate => negate
  | .equal => equal
  | .opposite => opposite

end Control

/-- What is asked of the engine through the control register. -/
inductive Command where
  | writeNumber (address : UInt32)
  | writeScalar (address : UInt32)
  | readNumber (address : UInt32)
  | readToken (address : UInt32)
  | operate (operation : PointOperation)
  deriving Repr, DecidableEq

namespace Command

def word : Command → UInt32
  | .writeNumber a => Control.address.set a (Control.writeNumber.put true 0)
  | .writeScalar a =>
    Control.address.set a (Control.writeScalar.put true (Control.writeNumber.put true 0))
  | .readNumber a => Control.address.set a (Control.readNumber.put true 0)
  | .readToken a =>
    Control.address.set a (Control.readToken.put true (Control.readNumber.put true 0))
  | .operate op => (Control.start op).put true 0

end Command

end CurveEngine.Register
