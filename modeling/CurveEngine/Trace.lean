import CurveEngine.Trace.LimbNumber
import CurveEngine.Trace.Log
import CurveEngine.Trace.Points

/-! The trace of a multiplication that is executed opcode by opcode.

`TraceOptions` are chosen by the caller and stay over several runs. Everything else in a
`Trace` is the record of one run and is cleared when the next one begins: the random
values as they were drawn, a `TraceStep` with the ladder's registers for every phase
passed, and a log in words. -/
namespace CurveEngine

structure TraceOptions where
  /-- Bytes that the log may take up, if it is bounded. -/
  logCapacity : Option Nat
  /-- Opcodes that may be executed, if they are bounded. -/
  maxSteps : Option Nat
  points : TracePoints
  deriving Repr, DecidableEq

/-- The ladder's registers when a phase has produced its values. -/
structure TraceStep where
  phase : TracePhase
  spot : Spot
  /-- The ladder flags word. -/
  flags : UInt32
  xR0 : LimbNumber
  yR0 : LimbNumber
  xR1 : LimbNumber
  yR1 : LimbNumber
  zR01 : LimbNumber
  deriving Repr, DecidableEq

structure Trace where
  options : TraceOptions
  log : TraceLog
  alpha : Option LimbNumber
  phi0 : Option LimbNumber
  phi1 : Option LimbNumber
  lambda : Option LimbNumber
  steps : Array TraceStep
  /-- Opcodes executed one at a time. Runs have fewer than `2 ^ 32`, as all those at a prime
  size of sixteen bits do. -/
  stepCount : Nat
  /-- The prime size during the run. -/
  size : Nat

namespace Trace

/-- A trace of no run yet. -/
def new (options : TraceOptions) : Trace where
  options
  log := .empty
  alpha := none
  phi0 := none
  phi1 := none
  lambda := none
  steps := #[]
  stepCount := 0
  size := 0

/-- Clears the record of the last run. -/
def start (size : Nat) (t : Trace) : Trace := { new t.options with size }

def addLine (line : String) (t : Trace) : Trace :=
  { t with log := t.log.add t.options.logCapacity line }

/-- The steps of a phase, in the order of execution. -/
def phaseSteps (phase : TracePhase) (t : Trace) : List TraceStep :=
  t.steps.toList.filter fun step => step.phase == phase

/-- Whether no further opcode may be executed. -/
def atLimit (t : Trace) : Bool := t.options.maxSteps.any (· ≤ t.stepCount)

end Trace

end CurveEngine
