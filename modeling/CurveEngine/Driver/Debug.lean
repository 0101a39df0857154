import CurveEngine.Driver.Settle
import CurveEngine.Register.Layout

/-! The debug bank: halting and stepping a multiplication, the trigger, the microcode and
Fp memory.

Every operation here first makes sure that the engine was synthesized for debugging. -/
namespace CurveEngine.Driver
open Register Procedure

/-- Writes a register of the debug bank. -/
def writeDebug (d : Driver) (r : Sink) (word : UInt32) : Operation Unit := do
  d.ensureDebug
  d.write r word

/-- Reads a register of the debug bank. -/
def readDebug (d : Driver) (r : Source) : Operation UInt32 := do
  d.ensureDebug
  d.read r

/-! ### Halting and stepping -/

/-- Halts the next multiplication on its first opcode. -/
def halt (d : Driver) : Operation Unit := d.writeDebug .halt 1

/-- Number of breakpoints. -/
def breakpointCount : UInt32 := 4

def writeBreakpoint (d : Driver) (id word : UInt32) : Operation Unit := do
  d.ensureDebug
  if id ≥ breakpointCount then throw .breakpointInvalid else d.write .breakpoint word

def breakpointWord (id address scalarBit : UInt32) (state : MachineState) : UInt32 :=
  Breakpoint.state.set state.code <|
  Breakpoint.scalarBit.set scalarBit <|
  Breakpoint.address.set address <|
  Breakpoint.id.set id <|
  Breakpoint.enable.put true 0

/-- Arms a breakpoint on an opcode. A state other than `idle` restricts it to that state
and, inside the ladder, to one scalar bit. -/
def setBreakpoint (d : Driver) (id address scalarBit : UInt32) (state : MachineState) :
    Operation Unit :=
  d.writeBreakpoint id (breakpointWord id address scalarBit state)

def removeBreakpoint (d : Driver) (id : UInt32) : Operation Unit :=
  d.writeBreakpoint id (Breakpoint.id.set id 0)

/-- Lets a halted multiplication execute a number of opcodes, then halts it again. -/
def runOpcodes (d : Driver) (count : UInt32) : Operation Unit :=
  d.writeDebug .steps (Steps.count.set count (Steps.run.put true 0))

/-- Lets a halted multiplication go on to the next breakpoint or to its end. -/
def resume (d : Driver) : Operation Unit := d.writeDebug .steps (Steps.resume.put true 0)

def debugSnapshot (d : Driver) : Operation DebugSnapshot := do
  let word ← d.readDebug .debugStatus
  pure (.ofWord word)

def isHalted (d : Driver) : Procedure Bool := do
  let word ← d.read .debugStatus
  pure (DebugStatus.halted.test word)

/-- Waits until a multiplication is halted, and says where. -/
def awaitHalt (d : Driver) : Operation DebugSnapshot := do
  d.ensureDebug
  d.pollUntil d.isHalted
  d.debugSnapshot

/-- The ladder flags of the last opcode executed. -/
def ladderFlags (d : Driver) : Operation UInt32 := d.readDebug .ladderFlags

/-! ### Trigger and timing -/

/-- Arms the trigger output for the next multiplication. -/
def armTrigger (d : Driver) : Operation Unit := d.writeDebug .triggerArm 1

def disarmTrigger (d : Driver) : Operation Unit := d.writeDebug .triggerArm 0

/-- Sets when, within a multiplication, the trigger goes up. -/
def setTriggerUp (d : Driver) (time : UInt32) : Operation Unit := d.writeDebug .triggerUp time

def setTriggerDown (d : Driver) (time : UInt32) : Operation Unit :=
  d.writeDebug .triggerDown time

/-- Duration of the last point operation. -/
def operationTime (d : Driver) : Operation UInt32 := d.readDebug .operationTime

/-! ### Memories -/

/-- Opcodes that the instruction memory holds. -/
def opcodeCount (d : Driver) : Operation UInt32 := do
  let word ← d.readDebug .memoryShape
  pure (MemoryShape.opcodes.get word)

/-- Bits of an opcode. -/
def opcodeSize (d : Driver) : Operation UInt32 := do
  let word ← d.readDebug .memoryShape
  pure (MemoryShape.opcodeSize.get word)

/-- Overwrites one opcode. -/
def writeOpcode (d : Driver) (address opcode : UInt32) : Procedure Unit := do
  d.write .opcodeAddress address
  d.write .opcode opcode

/-- Overwrites the microcode from an address on. A patch that does not fit into the
instruction memory is refused as a whole. -/
def patchMicrocode (d : Driver) (address : UInt32) (opcodes : List UInt32) : Operation Unit := do
  d.ensureDebug
  let count ← d.opcodeCount
  if address.toNat + opcodes.length > count.toNat then throw .opcodeAddressInvalid
  else do
    notify (.patching opcodes.length address)
    opcodes.zipIdx.forM fun (opcode, i) => d.writeOpcode (address + UInt32.ofNat i) opcode

/-- Bits of a limb of Fp memory. -/
def limbWidth (d : Driver) : Operation UInt32 := d.readDebug .limbWidth

def writeLimb (d : Driver) (address limb : UInt32) : Operation Unit := do
  d.ensureDebug
  d.write .limbWriteAddress address
  d.write .limb limb

def limbIsReady (d : Driver) : Procedure Bool := do
  let word ← d.read .limbReady
  pure (word &&& 1 != 0)

/-- Fetches a limb of Fp memory, on an engine known to have a debug bank. -/
def fetchLimb (d : Driver) (address : UInt32) : Operation UInt32 := do
  d.write .limbReadAddress address
  d.pollUntil d.limbIsReady
  d.read .limb

def readLimb (d : Driver) (address : UInt32) : Operation UInt32 := do
  d.ensureDebug
  d.fetchLimb address

end CurveEngine.Driver
