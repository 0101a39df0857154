import CurveEngine.Driver.Debug
import CurveEngine.Driver.Number
import CurveEngine.FpMemory
import CurveEngine.Trace

/-! A multiplication executed opcode by opcode.

With the operands loaded, `traceRun` arms breakpoint 0 at the entry of the microcode,
starts the multiplication and executes one opcode at a time. At every spot of the trace
points it reads what the phase has produced from Fp memory. However the stepping ends,
the breakpoint is removed and the multiplication resumed, so that the engine comes to
rest. -/
namespace CurveEngine.Driver
open Register Procedure

/-- An operation that writes to a trace on the way. -/
abbrev Tracing := Recording Trace

/-- The breakpoint that is armed at the entry. -/
def traceBreakpoint : UInt32 := 0

/-- Whether the multiplication is halted or no longer in progress. -/
def isHaltedOrOver (d : Driver) : Procedure Bool := do
  let halted ← d.isHalted
  if halted then pure true
  else do
    let word ← d.status
    pure (!Status.multiplying.test word)

/-- Waits until the multiplication is halted, and says where; nothing if it is no longer
in progress. -/
def waitHaltedOrOver (d : Driver) : Operation (Option DebugSnapshot) := do
  d.pollUntil d.isHaltedOrOver
  let here ← d.debugSnapshot
  pure (if here.halted then some here else none)

/-! ### Reading what a phase has produced -/

/-- The addresses of the limbs of a slot, from its first one up to that of the limb behind
its last one. -/
def limbAddresses (layout : LimbLayout) (slot : Nat) : List UInt32 :=
  let count := (layout.address slot layout.limbs).toNat - (layout.address slot 0).toNat
  (List.range count).map (layout.address slot)

/-- Fetches the limbs at the given addresses, after those already fetched. -/
def fetchLimbs (d : Driver) : List UInt32 → Array UInt32 → Operation (Array UInt32)
  | [], fetched => pure fetched
  | address :: rest, fetched => do
    let limb ← d.fetchLimb address
    d.fetchLimbs rest (fetched.push limb)

def readSlot (d : Driver) (layout : LimbLayout) (slot : Nat) : Operation LimbNumber := do
  let limbs ← d.fetchLimbs (limbAddresses layout slot) #[]
  pure ⟨layout.limbWidth, limbs.toList⟩

/-- How a log line names a spot. -/
def spotText (spot : Spot) : String := Hex.padded 3 spot.pc.toNat ++ " " ++ spot.state.name

/-- Reads a random value that has just been drawn, and has `keep` put it into the
trace. -/
def recordRandom (d : Driver) (layout : LimbLayout) (phase : TracePhase) (slot : Nat)
    (keep : LimbNumber → Trace → Trace) (spot : Spot) : Tracing Unit := do
  let value ← d.readSlot layout slot
  modify fun t =>
    keep value (t.addLine (spotText spot ++ ": " ++ phase.name ++ " = " ++ value.text))

def bitText (b : Bool) : String := if b then "1" else "0"

/-- The log lines of a step. -/
def stepLines (step : TraceStep) : List String := [
  spotText step.spot ++ " bit " ++ toString (LadderFlags.scalarBit.get step.flags).toNat ++
    ": kap=" ++ bitText (LadderFlags.kap.test step.flags) ++
    " kapp=" ++ bitText (LadderFlags.kapPrevious.test step.flags) ++
    " r0z=" ++ bitText (LadderFlags.r0Zero.test step.flags) ++
    " r1z=" ++ bitText (LadderFlags.r1Zero.test step.flags),
  "  R0 = (" ++ step.xR0.text ++ ", " ++ step.yR0.text ++ ")",
  "  R1 = (" ++ step.xR1.text ++ ", " ++ step.yR1.text ++ ")",
  "  Z  = " ++ step.zR01.text]

/-- Reads the ladder's registers. -/
def readStep (d : Driver) (layout : LimbLayout) (phase : TracePhase) (spot : Spot) :
    Operation TraceStep := do
  let flags ← d.ladderFlags
  let xR0 ← d.readSlot layout Microcode.Slot.xR0
  let yR0 ← d.readSlot layout Microcode.Slot.yR0
  let xR1 ← d.readSlot layout Microcode.Slot.xR1
  let yR1 ← d.readSlot layout Microcode.Slot.yR1
  let zR01 ← d.readSlot layout Microcode.Slot.zR01
  pure { phase, spot, flags, xR0, yR0, xR1, yR1, zR01 }

def recordStep (d : Driver) (layout : LimbLayout) (phase : TracePhase) (spot : Spot) :
    Tracing Unit := do
  let step ← d.readStep layout phase spot
  modify fun t =>
    let t := (stepLines step).foldl (fun t line => t.addLine line) t
    { t with steps := t.steps.push step }

/-- Records what a phase has just produced. -/
def recordPhase (d : Driver) (layout : LimbLayout) (phase : TracePhase) (spot : Spot) :
    Tracing Unit :=
  match phase with
  | .alpha =>
    d.recordRandom layout .alpha Microcode.Slot.alpha (fun v t => { t with alpha := some v }) spot
  | .phi0 =>
    d.recordRandom layout .phi0 Microcode.Slot.phi0 (fun v t => { t with phi0 := some v }) spot
  | .phi1 =>
    d.recordRandom layout .phi1 Microcode.Slot.phi1 (fun v t => { t with phi1 := some v }) spot
  | .lambda =>
    d.recordRandom layout .lambda Microcode.Slot.lambda
      (fun v t => { t with lambda := some v }) spot
  | phase => d.recordStep layout phase spot

/-! ### The run -/

/-- Executes opcodes one at a time until the last spot. -/
def stepOpcodes (d : Driver) (layout : LimbLayout) : Nat → Tracing Unit
  | 0 => ExceptT.lift (StateT.lift .spent)
  | fuel + 1 => do
    let points := (← get).options.points
    let atLimit := (← get).atLimit
    if atLimit then do
      modify fun t => t.addLine "step limit reached"
      throw .stepLimit
    else do
      d.runOpcodes 1
      let halted ← d.waitHaltedOrOver
      match halted with
      | none => throw .unexpectedHalt
      | some here => do
        modify fun t => { t with stepCount := t.stepCount + 1 }
        let spot : Spot := ⟨here.pc, here.state⟩
        match points.phaseAt? spot with
        | some phase => d.recordPhase layout phase spot
        | none => pure ()
        if spot = points.last then pure () else d.stepOpcodes layout fuel

/-- Executes a started multiplication from its entry to the last spot. One that did not
start is reported with the error that the engine latched, if there is one. -/
def followRun (d : Driver) (layout : LimbLayout) : Tracing Unit := do
  let halted ← d.waitHaltedOrOver
  match halted with
  | none => do
    d.settle
    throw .unexpectedHalt
  | some here => do
    let points := (← get).options.points
    if (⟨here.pc, here.state⟩ : Spot) = points.entry then
      d.stepOpcodes layout d.fuel
    else do
      notify (.haltedAt here.pc here.state)
      throw .unexpectedHalt

/-- Lets a halted multiplication go on to its end. -/
def release (d : Driver) : Operation Unit := do
  d.removeBreakpoint traceBreakpoint
  d.resume
  d.settle

/-- The widest limbs that a trace can read. -/
def limbWidthMax : Nat := 32

/-- Executes a multiplication whose operands are loaded, and traces it. -/
def traceRun (d : Driver) : Tracing Unit := do
  d.ensureDebug
  let size ← d.size
  let widthWord ← d.limbWidth
  let width := widthWord.toNat
  if width = 0 ∨ width > limbWidthMax then throw .unexpectedHalt
  else do
    let layout := LimbLayout.ofSize size width
    modify fun t => (t.start size).addLine
      ("[k]P trace: nn = " ++ toString size ++ ", ww = " ++ toString width ++ ", " ++
        toString layout.limbs ++ " limbs per number")
    let points := (← get).options.points
    d.setBreakpoint traceBreakpoint points.entry.pc 0 .idle
    d.waitIdle
    d.write .control (Command.operate .multiply).word
    let stepped ← (d.followRun layout).attempt
    let released ← Recording.attempt d.release
    let steps := (← get).stepCount
    notify (.tracedDone steps)
    ofExcept stepped
    ofExcept released

end CurveEngine.Driver
