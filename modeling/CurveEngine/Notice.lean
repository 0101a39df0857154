import CurveEngine.MachineState
import CurveEngine.Register.Control
import CurveEngine.Register.Latch
import CurveEngine.Text.Hex

/-! What a driver reports while it works.

A `Notice` is a fact worth logging, with a level that says how much it matters and a
text that shows it. Nothing the driver does depends on who listens. -/
namespace CurveEngine

/-- How much a log record matters, the most severe first. -/
inductive Level where
  | warn
  | debug
  | trace
  deriving Repr, DecidableEq

namespace Level

def name : Level → String
  | .warn => "WARN"
  | .debug => "DEBUG"
  | .trace => "TRACE"

def rank : Level → Nat
  | .warn => 0
  | .debug => 1
  | .trace => 2

/-- Whether a log kept down to `threshold` takes records of this level. -/
def passes (level threshold : Level) : Bool := level.rank ≤ threshold.rank

end Level

inductive Notice where
  | softReset
  | curveSet (size : Nat)
  /-- A point operation other than a multiplication begins. -/
  | operation (operation : Register.PointOperation)
  | multiplication (traced : Bool)
  | tracedDone (steps : Nat)
  | patching (count : Nat) (address : UInt32)
  | latched (error : Register.HardwareError)
  /-- Latched bits that no error is known for. -/
  | latchedUnnamed (bits : UInt32)
  /-- A traced multiplication halted elsewhere than at its entry. -/
  | haltedAt (pc : UInt32) (state : MachineState)
  | registerRead (offset : UInt32) (value : UInt64)
  | registerWrite (offset : UInt32) (value : UInt64)
  deriving Repr, DecidableEq

namespace Notice

def level : Notice → Level
  | .latched _ | .latchedUnnamed _ | .haltedAt _ _ => .warn
  | .registerRead _ _ | .registerWrite _ _ => .trace
  | _ => .debug

/-- The name of a point operation in the log. -/
def operationName : Register.PointOperation → String
  | .multiply => "KP"
  | .add => "ADD"
  | .double => "DBL"
  | .check => "CHK"
  | .negate => "NEG"
  | .equal => "EQU"
  | .opposite => "OPP"

def text : Notice → String
  | .softReset => "ipecc: soft reset"
  | .curveSet size => "ipecc: set curve, nn = " ++ toString size
  | .operation op => "ipecc: " ++ operationName op
  | .multiplication traced => "ipecc: KP, traced = " ++ (if traced then "true" else "false")
  | .tracedDone steps => "ipecc: traced [k]P done after " ++ toString steps ++ " steps"
  | .patching count address =>
    "ipecc: patching " ++ toString count ++ " opcodes at " ++ Hex.literal address.toNat
  | .latched error => "ipecc: hardware error " ++ error.name
  | .latchedUnnamed bits =>
    "ipecc: unnamed hardware error bits " ++ Hex.padded 4 bits.toNat
  | .haltedAt pc state =>
    "ipecc: [k]P halted at " ++ Hex.padded 3 pc.toNat ++ " in " ++ state.name
  | .registerRead offset value =>
    "ipecc: read " ++ Hex.padded 3 offset.toNat ++ " -> " ++ Hex.literal value.toNat
  | .registerWrite offset value =>
    "ipecc: write " ++ Hex.padded 3 offset.toNat ++ " <- " ++ Hex.literal value.toNat

end Notice

end CurveEngine
