import CurveEngine.Driver.Number

/-! Points: infinity flags, reading, and the point operations.

Writing a coordinate clears the infinity flag of its point. An operation therefore saves
both flags, writes its operands, and restores the flags before it starts: a point is
infinite for the operation if and only if it was flagged so before. -/
namespace CurveEngine.Driver
open Register Procedure

/-- A pair of affine coordinates. -/
structure Coordinates where
  x : Bytes
  y : Bytes
  deriving Repr, DecidableEq

/-- A point read from the engine. The coordinates mean nothing if it is infinity. -/
structure PointAnswer where
  x : Bytes
  y : Bytes
  isInfinity : Bool
  deriving Repr, DecidableEq

/-! ### Infinity flags -/

def nullSink : PointRegister → Sink
  | .r0 => .r0Null
  | .r1 => .r1Null

def nullFlag : PointRegister → BitField
  | .r0 => Status.r0Null
  | .r1 => Status.r1Null

def isInfinite (d : Driver) (point : PointRegister) : Operation Bool := do
  d.waitIdle
  let word ← d.status
  pure ((nullFlag point).test word)

def flagWord (isInfinity : Bool) : UInt32 := if isInfinity then 1 else 0

def flagInfinite (d : Driver) (point : PointRegister) : Operation Unit :=
  d.writeSettled (nullSink point) (flagWord true)

def unflagInfinite (d : Driver) (point : PointRegister) : Operation Unit :=
  d.writeSettled (nullSink point) (flagWord false)

/-- The infinity flags of both points. -/
structure PointFlags where
  r0 : Bool
  r1 : Bool
  deriving Repr, DecidableEq

def saveFlags (d : Driver) : Operation PointFlags := do
  d.waitIdle
  let word ← d.status
  pure ⟨Status.r0Null.test word, Status.r1Null.test word⟩

def restoreFlags (d : Driver) (flags : PointFlags) : Operation Unit := do
  d.writeSettled .r0Null (flagWord flags.r0)
  d.writeSettled .r1Null (flagWord flags.r1)

/-! ### Reading points -/

/-- Reads a register into the first `len` bytes of a buffer. -/
def readFront (d : Driver) (register : Number) (len : Nat) : Recording Bytes Unit :=
  ExceptT.mk fun buffer => do
    let (ending, front) ← (d.readInto (.readNumber register.address)).on (buffer.take len)
    pure (ending, front ++ buffer.drop len)

/-- Reads a point into two buffers, and says how many bytes of each it takes. -/
def readPointInto (d : Driver) (point : PointRegister) : Recording Coordinates Nat := do
  let len ← d.numberBytes
  let buffers ← get
  if buffers.x.length < len ∨ buffers.y.length < len then throw .bufferTooSmall
  else do
    let (endingX, x) ← (d.readFront point.x len).on buffers.x
    set { buffers with x }
    ofExcept endingX
    let (endingY, y) ← (d.readFront point.y len).on buffers.y
    set { x, y : Coordinates }
    ofExcept endingY
    pure len

/-- Reads the coordinates of a point. -/
def readCoordinates (d : Driver) (point : PointRegister) : Operation Coordinates := do
  let len ← d.numberBytes
  let zero := List.replicate len 0
  let (ending, buffers) ← (d.readPointInto point).on ⟨zero, zero⟩
  let _ ← ofExcept ending
  pure buffers

def readPoint (d : Driver) (point : PointRegister) : Operation PointAnswer := do
  let coordinates ← d.readCoordinates point
  let isInfinity ← d.isInfinite point
  pure ⟨coordinates.x, coordinates.y, isInfinity⟩

/-! ### Operations -/

/-- Starts an operation and waits for its end. -/
def execute (d : Driver) (operation : PointOperation) : Operation Unit :=
  d.writeSettled .control (Command.operate operation).word

def writePoint (d : Driver) (point : PointRegister) (operand : Coordinates) : Operation Unit := do
  d.writeNumber operand.x (.number point.x)
  d.writeNumber operand.y (.number point.y)

/-- Performs an operation on a point in R0. -/
def operateOne (d : Driver) (operation : PointOperation) (p : Coordinates) : Operation Unit := do
  notify (.operation operation)
  let flags ← d.saveFlags
  d.writePoint .r0 p
  d.restoreFlags flags
  d.execute operation

/-- Performs an operation on points in R0 and R1. -/
def operateTwo (d : Driver) (operation : PointOperation) (p q : Coordinates) : Operation Unit := do
  notify (.operation operation)
  let flags ← d.saveFlags
  d.writePoint .r0 p
  d.writePoint .r1 q
  d.restoreFlags flags
  d.execute operation

/-- The answer of the last test. -/
def answer (d : Driver) : Procedure Bool := do
  let word ← d.status
  pure (Status.yes.test word)

def add (d : Driver) (p q : Coordinates) : Operation PointAnswer := do
  d.operateTwo .add p q
  d.readPoint .r1

def double (d : Driver) (p : Coordinates) : Operation PointAnswer := do
  d.operateOne .double p
  d.readPoint .r1

def negate (d : Driver) (p : Coordinates) : Operation PointAnswer := do
  d.operateOne .negate p
  d.readPoint .r1

def isOnCurve (d : Driver) (p : Coordinates) : Operation Bool := do
  d.operateOne .check p
  d.answer

/-- Whether two points are the same. -/
def equal (d : Driver) (p q : Coordinates) : Operation Bool := do
  d.operateTwo .equal p q
  d.answer

/-- Whether one point is the negative of the other. -/
def opposite (d : Driver) (p q : Coordinates) : Operation Bool := do
  d.operateTwo .opposite p q
  d.answer

end CurveEngine.Driver
