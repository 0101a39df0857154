import CurveEngine.MachineState

/-! The microcode of a scalar multiplication, as far as it can be observed.

A multiplication runs routines, each a stretch of opcode addresses in one state of the
main state machine. This module places them, names the addresses at which a value has
just been produced (`Address`), and names the slots of Fp memory that hold those values
(`Slot`). -/
namespace CurveEngine.Microcode

/-- A stretch of opcodes executed in a single state. -/
structure Routine where
  start : Nat
  length : Nat
  state : MachineState
  deriving Repr, DecidableEq

namespace Routine

/-- Address of the last opcode. -/
def last (r : Routine) : Nat := r.start + r.length - 1

def contains (r : Routine) (pc : Nat) : Bool := r.start ≤ pc && pc < r.start + r.length

end Routine

/-- Checks that the input point is on the curve. -/
def checkOnCurve : Routine := ⟨0x000, 8, .checkOnCurve⟩

/-- Blinds the scalar; skipped when blinding is off. -/
def blindInit : Routine := ⟨0x010, 4, .blindInit⟩

/-- Sets up the ladder. -/
def setup : Routine := ⟨0x020, 12, .setup⟩

/-- The addition of a ladder iteration. -/
def zaddu : Routine := ⟨0x040, 8, .zaddu⟩

/-- The conjugate addition of a ladder iteration. -/
def zaddc : Routine := ⟨0x050, 8, .zaddc⟩

/-- The final conditional subtraction of the input point. -/
def subtractP : Routine := ⟨0x060, 4, .subtractP⟩

/-- Recovers the coordinates of the result. -/
def exit : Routine := ⟨0x070, 8, .exit⟩

/-- Checks that the result is on the curve, in the exit state. -/
def exitCheck : Routine := ⟨0x080, 8, .exit⟩

namespace Address

def entry : Nat := checkOnCurve.start
def alphaReady : Nat := blindInit.start + 2
def phi0Ready : Nat := setup.start + 2
def phi1Ready : Nat := setup.start + 3
def lambdaReady : Nat := setup.start + 5
def setupDone : Nat := setup.last
def zadduDone : Nat := zaddu.last
def zaddcDone : Nat := zaddc.last
def subtractPDone : Nat := subtractP.last
def exitDone : Nat := exit.last
def finish : Nat := exitCheck.last

end Address

namespace Slot

def xR0 : Nat := 16
def yR0 : Nat := 17
def xR1 : Nat := 18
def yR1 : Nat := 19
def zR01 : Nat := 26
def lambda : Nat := 32
def alpha : Nat := 35
def phi0 : Nat := 36
def phi1 : Nat := 37

/-- Number of slots in Fp memory. -/
def count : Nat := 64

end Slot

end CurveEngine.Microcode
