/-! States of the engine's main state machine, with the codes that the debug status
register reports and that a breakpoint can be restricted to. -/
namespace CurveEngine

inductive MachineState where
  /-- At rest; in a breakpoint, any state at all. -/
  | idle
  | montgomery
  | checkOnCurve
  | blindInit
  | blindBit
  | blindExit
  | adpa
  | setup
  | double
  | itoh
  | zaddu
  | zaddc
  | subtractP
  | exit
  /-- A code that no state has. -/
  | unknown
  deriving Repr, DecidableEq, Inhabited

namespace MachineState

def code : MachineState → UInt32
  | .idle => 0
  | .montgomery => 1
  | .checkOnCurve => 2
  | .blindInit => 3
  | .blindBit => 4
  | .blindExit => 5
  | .adpa => 6
  | .setup => 7
  | .double => 8
  | .itoh => 10
  | .zaddu => 11
  | .zaddc => 12
  | .subtractP => 13
  | .exit => 14
  | .unknown => 15

/-- The state whose code stands in the four low bits of a word. -/
def ofCode (word : UInt32) : MachineState :=
  match (word &&& 0xf).toNat with
  | 0 => .idle
  | 1 => .montgomery
  | 2 => .checkOnCurve
  | 3 => .blindInit
  | 4 => .blindBit
  | 5 => .blindExit
  | 6 => .adpa
  | 7 => .setup
  | 8 => .double
  | 10 => .itoh
  | 11 => .zaddu
  | 12 => .zaddc
  | 13 => .subtractP
  | 14 => .exit
  | _ => .unknown

def name : MachineState → String
  | .idle => "IDLE"
  | .montgomery => "CSTMTY"
  | .checkOnCurve => "CHECKONCURVE"
  | .blindInit => "BLINDINIT"
  | .blindBit => "BLINDBIT"
  | .blindExit => "BLINDEXIT"
  | .adpa => "ADPA"
  | .setup => "SETUP"
  | .double => "DOUBLE"
  | .itoh => "ITOH"
  | .zaddu => "ZADDU"
  | .zaddc => "ZADDC"
  | .subtractP => "SUBTRACTP"
  | .exit => "EXIT"
  | .unknown => "UNKNOWN"

/-- Every state is recovered from its code. -/
theorem ofCode_code (s : MachineState) : ofCode s.code = s := by cases s <;> rfl

end MachineState

end CurveEngine
