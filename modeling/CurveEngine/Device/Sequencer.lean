import CurveEngine.Device.WordField
import CurveEngine.Ladder

/-! Running and halting a scalar multiplication.

The debug machine is idle, running or halted, and moves only along `RunState.next?`.
An event that the state has no transition for changes nothing but is counted in
`stray`. A breakpoint names an opcode address, and may be restricted to a state of the
main machine and, inside the ladder, to one scalar bit. -/
namespace CurveEngine.Device
open Register

inductive RunState where
  | idle
  | running
  | halted
  deriving Repr, DecidableEq

inductive RunEvent where
  | start
  | hit
  | step
  | resume
  | done
  deriving Repr, DecidableEq

def RunState.next? : RunState → RunEvent → Option RunState
  | .idle, .start => some .running
  | .running, .hit => some .halted
  | .halted, .step => some .running
  | .halted, .resume => some .running
  | .running, .done => some .idle
  | _, _ => none

/-- An armed breakpoint. -/
structure Breakpoint where
  address : UInt32
  scalarBit : UInt32
  /-- The code of the only state it applies to; zero for every state. -/
  state : UInt32
  deriving Repr, DecidableEq

namespace Breakpoint

/-- Whether a position is one the breakpoint stops at. -/
def covers (b : Breakpoint) (p : Position) : Bool :=
  b.address.toNat == p.pc &&
    (b.state == 0 ||
      (b.state == p.state.code &&
        (!(p.state == .zaddu || p.state == .zaddc) || b.scalarBit == p.scalarBit)))

end Breakpoint

/-- Number of breakpoints. -/
def breakpointCount : Nat := 4

structure Sequencer where
  /-- The multiplication in progress. -/
  run : Option LadderRun
  state : RunState
  /-- Events raised in a state without a transition for them. -/
  stray : Nat
  /-- Halt the next multiplication on its first opcode. -/
  haltPending : Bool
  breakpoints : Vector (Option Breakpoint) breakpointCount
  /-- The breakpoint of the current halt. -/
  hit : Option Nat
  /-- The last opcode executed by the multiplication in progress. -/
  last : Option Position

namespace Sequencer

def idle : Sequencer where
  run := none
  state := .idle
  stray := 0
  haltPending := false
  breakpoints := Vector.replicate breakpointCount none
  hit := none
  last := none

def isHalted (q : Sequencer) : Bool := q.state == .halted

def raise (event : RunEvent) (q : Sequencer) : Sequencer :=
  match q.state.next? event with
  | some state => { q with state }
  | none => { q with stray := q.stray + 1 }

/-- The lowest breakpoint that stops at a position. -/
def breakpointAt? (q : Sequencer) (p : Position) : Option Nat :=
  (List.range breakpointCount).find? fun id =>
    match q.breakpoints[id]? with
    | some (some b) => b.covers p
    | _ => false

/-- Arms or disarms the breakpoint that a breakpoint word names. -/
def setBreakpoint (word : UInt32) (q : Sequencer) : Sequencer :=
  let armed :=
    if BreakpointField.enable.isSet word then
      some ⟨BreakpointField.address.read word, BreakpointField.scalarBit.read word,
        BreakpointField.state.read word⟩
    else none
  { q with
    breakpoints := q.breakpoints.setIfInBounds (BreakpointField.id.read word).toNat armed }

/-- The debug status word. -/
def statusWord (q : Sequencer) : UInt32 :=
  let word := DebugStatus.halted.put q.isHalted 0
  let word := match q.hit with
    | some id =>
      DebugStatus.breakpoint.set (UInt32.ofNat id) (DebugStatus.atBreakpoint.put true word)
    | none => word
  match q.last with
  | some p => DebugStatus.state.set p.state.code (DebugStatus.pc.set (UInt32.ofNat p.pc) word)
  | none => word

/-- The ladder flags word. -/
def flagsWord (q : Sequencer) : UInt32 :=
  match q.last with
  | some p => p.flags
  | none => 0

end Sequencer

end CurveEngine.Device
