import CurveEngine.Microcode

/-! Where a traced multiplication is looked at.

A `Spot` is an opcode address in a state of the main machine. `TracePoints` says at
which spot a run is entered, at which it ends, and at which spots in between a phase of
the computation has just produced its values. `TracePoints.standard` has the spots of
the microcode. -/
namespace CurveEngine

inductive TracePhase where
  /-- The blinding multiplier has been drawn. -/
  | alpha
  | phi0
  | phi1
  /-- The mask of the initial denominator has been drawn. -/
  | lambda
  | setup
  | zaddu
  | zaddc
  | subtractP
  | exit
  deriving Repr, DecidableEq

namespace TracePhase

/-- Every phase, in the order of a run. -/
def all : List TracePhase :=
  [.alpha, .phi0, .phi1, .lambda, .setup, .zaddu, .zaddc, .subtractP, .exit]

def name : TracePhase → String
  | .alpha => "alpha"
  | .phi0 => "phi0"
  | .phi1 => "phi1"
  | .lambda => "lambda"
  | .setup => "setup"
  | .zaddu => "zaddu"
  | .zaddc => "zaddc"
  | .subtractP => "subtract-p"
  | .exit => "exit"

/-- The phase of that name. -/
def ofName? (name : String) : Option TracePhase := all.find? fun phase => phase.name == name

end TracePhase

/-- An opcode address in a state. -/
structure Spot where
  pc : UInt32
  state : MachineState
  deriving Repr, DecidableEq

structure TracePoints where
  /-- Where a run is entered. -/
  entry : Spot
  /-- The last spot of a run. -/
  last : Spot
  phases : List (Spot × TracePhase)
  deriving Repr, DecidableEq

namespace TracePoints
open Microcode

def standard : TracePoints where
  entry := ⟨UInt32.ofNat Address.entry, .checkOnCurve⟩
  last := ⟨UInt32.ofNat Address.finish, .exit⟩
  phases := [
    (⟨UInt32.ofNat Address.alphaReady, .blindInit⟩, .alpha),
    (⟨UInt32.ofNat Address.phi0Ready, .setup⟩, .phi0),
    (⟨UInt32.ofNat Address.phi1Ready, .setup⟩, .phi1),
    (⟨UInt32.ofNat Address.lambdaReady, .setup⟩, .lambda),
    (⟨UInt32.ofNat Address.setupDone, .setup⟩, .setup),
    (⟨UInt32.ofNat Address.zadduDone, .zaddu⟩, .zaddu),
    (⟨UInt32.ofNat Address.zaddcDone, .zaddc⟩, .zaddc),
    (⟨UInt32.ofNat Address.subtractPDone, .subtractP⟩, .subtractP),
    (⟨UInt32.ofNat Address.exitDone, .exit⟩, .exit)]

/-- The phase that has just produced its values at a spot. -/
def phaseAt? (points : TracePoints) (spot : Spot) : Option TracePhase :=
  (points.phases.find? fun entry => entry.1 == spot).map fun entry => entry.2

end TracePoints

end CurveEngine
