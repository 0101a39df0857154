import CurveEngine.Driver.Countermeasure
import CurveEngine.Driver.Multiply
import CurveEngine.Driver.Setup

/-! Every operation of the driver as a value.

A `Call` is an operation with its arguments, and `perform` is what it does. Its `Answer`
holds the result and what the caller lent to the call: buffers and a trace come back as
the call left them, whether it failed or not. -/
namespace CurveEngine
open Register

inductive Call where
  | reset
  | configureEntropy
  | enableIrq
  | status
  | capabilities
  | isDebug
  | version
  | size
  | numberBytes
  | setSize (bits : UInt32)
  | setCurve (a b p q : Bytes)
  | limitScalar (bits : UInt32)
  | isInfinite (point : PointRegister)
  | flagInfinite (point : PointRegister)
  | unflagInfinite (point : PointRegister)
  | writeNumber (bytes : Bytes) (destination : Destination)
  | readNumber (buffer : Bytes) (register : Destination)
  | readPoint (point : PointRegister)
  | readPointInto (point : PointRegister) (buffers : Driver.Coordinates)
  | add (p q : Driver.Coordinates)
  | double (p : Driver.Coordinates)
  | negate (p : Driver.Coordinates)
  | isOnCurve (p : Driver.Coordinates)
  | equal (p q : Driver.Coordinates)
  | opposite (p q : Driver.Coordinates)
  | multiply (p : Driver.Coordinates) (k : Bytes)
  | multiplyTraced (p : Driver.Coordinates) (k : Bytes) (trace : Trace)
  | enableBlinding (bits : UInt32)
  | disableBlinding
  | enableShuffling
  | disableShuffling
  | enableZremask (period : UInt32)
  | disableZremask
  | setXyShuffle (enable : Bool)
  | setAxiMask (enable : Bool)
  | setTokenMask (enable : Bool)
  | halt
  | resume
  | setBreakpoint (id address scalarBit : UInt32) (state : MachineState)
  | removeBreakpoint (id : UInt32)
  | runOpcodes (count : UInt32)
  | debugSnapshot
  | awaitHalt
  | ladderFlags
  | armTrigger
  | disarmTrigger
  | setTriggerUp (time : UInt32)
  | setTriggerDown (time : UInt32)
  | operationTime
  | limbWidth
  | opcodeCount
  | opcodeSize
  | patchMicrocode (address : UInt32) (opcodes : List UInt32)
  | writeLimb (address limb : UInt32)
  | readLimb (address : UInt32)
  | rawSize
  | shuffleWidth
  | rawFillTime
  | configureTrng (debias : Bool) (accessTime idle : UInt32)
  | resetTrngModes
  | disablePostproc
  | bypassTrng (bit : Bool)
  | disableRawRead
  | resetRawFifo
  | resetNumberFifos
  | readRawBit (address : UInt32)
  | rawFifo
  | waitingCounts
  | entropyCounters
  | resetCounters

/-- What a call returns. -/
inductive Reply where
  | done
  | flag (value : Bool)
  | word (value : UInt32)
  | number (value : Nat)
  | version (major minor : UInt32)
  | point (value : Driver.PointAnswer)
  | snapshot (value : DebugSnapshot)
  | rawFifo (value : Driver.RawFifo)
  | waiting (value : Driver.WaitingCounts)
  | counters (value : Driver.EntropyCounters)
  deriving DecidableEq

structure Answer where
  result : Except DriverError Reply
  /-- The caller's buffers. -/
  buffers : List Bytes := []
  /-- The caller's trace. -/
  trace : Option Trace := none

namespace Answer

/-- The answer of an operation to which nothing was lent. -/
def ofOperation {α : Type} (reply : α → Reply) (op : Operation α) : Procedure Answer := do
  let result ← op.run
  pure { result := result.map reply }

def ofProcedure {α : Type} (reply : α → Reply) (p : Procedure α) : Procedure Answer := do
  let result ← p
  pure { result := .ok (reply result) }

/-- The answer of an operation on something lent by the caller. -/
def ofRecording {σ α : Type} (reply : α → Reply) (lent : σ) (back : σ → Answer → Answer)
    (op : Recording σ α) : Procedure Answer := do
  let (result, record) ← op.on lent
  pure (back record { result := result.map reply })

end Answer

namespace Call
open Answer

def done (_ : Unit) : Reply := .done

/-- What a call does on an engine bound to the driver. -/
def perform (d : Driver) : Call → Procedure Answer
  | .reset => ofOperation done d.reset
  | .configureEntropy => ofOperation done d.configureEntropy
  | .enableIrq => ofOperation done d.enableIrq
  | .status => ofProcedure .word d.status
  | .capabilities => ofProcedure .word d.capabilities
  | .isDebug => ofProcedure .flag d.isDebug
  | .version => ofProcedure (fun v => .version v.1 v.2) d.version
  | .size => ofProcedure .number d.size
  | .numberBytes => ofProcedure .number d.numberBytes
  | .setSize bits => ofOperation done (d.setSize bits.toNat)
  | .setCurve a b p q => ofOperation done (d.setCurve a b p q)
  | .limitScalar bits => ofOperation done (d.limitScalar bits)
  | .isInfinite point => ofOperation .flag (d.isInfinite point)
  | .flagInfinite point => ofOperation done (d.flagInfinite point)
  | .unflagInfinite point => ofOperation done (d.unflagInfinite point)
  | .writeNumber bytes destination => ofOperation done (d.writeNumber bytes destination)
  | .readNumber buffer register =>
    ofRecording done buffer (fun b answer => { answer with buffers := [b] })
      (d.readNumberInto register)
  | .readPoint point => ofOperation .point (d.readPoint point)
  | .readPointInto point buffers =>
    ofRecording .number buffers (fun b answer => { answer with buffers := [b.x, b.y] })
      (d.readPointInto point)
  | .add p q => ofOperation .point (d.add p q)
  | .double p => ofOperation .point (d.double p)
  | .negate p => ofOperation .point (d.negate p)
  | .isOnCurve p => ofOperation .flag (d.isOnCurve p)
  | .equal p q => ofOperation .flag (d.equal p q)
  | .opposite p q => ofOperation .flag (d.opposite p q)
  | .multiply p k => ofOperation .point (d.multiply p k)
  | .multiplyTraced p k trace =>
    ofRecording .point trace (fun t answer => { answer with trace := some t })
      (d.multiplyTraced p k)
  | .enableBlinding bits => ofOperation done (d.enableBlinding bits)
  | .disableBlinding => ofOperation done d.disableBlinding
  | .enableShuffling => ofOperation done d.enableShuffling
  | .disableShuffling => ofOperation done d.disableShuffling
  | .enableZremask period => ofOperation done (d.enableZremask period)
  | .disableZremask => ofOperation done d.disableZremask
  | .setXyShuffle enable => ofOperation done (d.setXyShuffle enable)
  | .setAxiMask enable => ofOperation done (d.setAxiMask enable)
  | .setTokenMask enable => ofOperation done (d.setTokenMask enable)
  | .halt => ofOperation done d.halt
  | .resume => ofOperation done d.resume
  | .setBreakpoint id address scalarBit state =>
    ofOperation done (d.setBreakpoint id address scalarBit state)
  | .removeBreakpoint id => ofOperation done (d.removeBreakpoint id)
  | .runOpcodes count => ofOperation done (d.runOpcodes count)
  | .debugSnapshot => ofOperation .snapshot d.debugSnapshot
  | .awaitHalt => ofOperation .snapshot d.awaitHalt
  | .ladderFlags => ofOperation .word d.ladderFlags
  | .armTrigger => ofOperation done d.armTrigger
  | .disarmTrigger => ofOperation done d.disarmTrigger
  | .setTriggerUp time => ofOperation done (d.setTriggerUp time)
  | .setTriggerDown time => ofOperation done (d.setTriggerDown time)
  | .operationTime => ofOperation .word d.operationTime
  | .limbWidth => ofOperation .word d.limbWidth
  | .opcodeCount => ofOperation .word d.opcodeCount
  | .opcodeSize => ofOperation .word d.opcodeSize
  | .patchMicrocode address opcodes => ofOperation done (d.patchMicrocode address opcodes)
  | .writeLimb address limb => ofOperation done (d.writeLimb address limb)
  | .readLimb address => ofOperation .word (d.readLimb address)
  | .rawSize => ofOperation .word d.rawSize
  | .shuffleWidth => ofOperation .word d.shuffleWidth
  | .rawFillTime => ofOperation .word d.rawFillTime
  | .configureTrng debias accessTime idle =>
    ofOperation done (d.configureTrng debias accessTime idle)
  | .resetTrngModes => ofOperation done d.resetTrngModes
  | .disablePostproc => ofOperation done d.disablePostproc
  | .bypassTrng bit => ofOperation done (d.bypassTrng bit)
  | .disableRawRead => ofOperation done d.disableRawRead
  | .resetRawFifo => ofOperation done d.resetRawFifo
  | .resetNumberFifos => ofOperation done d.resetNumberFifos
  | .readRawBit address => ofOperation .flag (d.readRawBit address)
  | .rawFifo => ofOperation .rawFifo d.rawFifo
  | .waitingCounts => ofOperation .waiting d.waitingCounts
  | .entropyCounters => ofOperation .counters d.entropyCounters
  | .resetCounters => ofOperation done d.resetCounters

end Call

end CurveEngine
