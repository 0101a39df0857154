import CurveEngine.Curve
import CurveEngine.Microcode
import CurveEngine.Register.Layout

/-! A scalar multiplication as the sequence of opcodes it executes.

`LadderRun.start` lays out the whole run: the routines in execution order, one
`Position` per opcode, with the ladder flags shown there and the values that appear in
Fp memory on arrival. A run is then walked position by position: `passed` holds what
has been executed, most recent first, and `pending` what is to come. -/
namespace CurveEngine
open Register

/-- A value that appears in a slot of Fp memory. -/
structure SlotWrite where
  slot : Nat
  value : Nat
  deriving Repr, DecidableEq

/-- One executed opcode. -/
structure Position where
  pc : Nat
  state : MachineState
  /-- The ladder flags register while the opcode is the last one executed. -/
  flags : UInt32
  /-- Writes to Fp memory that are visible on arrival. -/
  writes : List SlotWrite
  deriving Repr, DecidableEq, Inhabited

namespace Position

/-- Index of the scalar bit being processed. -/
def scalarBit (p : Position) : UInt32 := LadderFlags.scalarBit.get p.flags

end Position

/-- The random values of a run. -/
structure LadderRandoms where
  /-- The blinding multiplier, if the scalar is blinded. -/
  alpha : Option Nat
  phi0 : Nat
  phi1 : Nat
  lambda : Nat
  deriving Repr, DecidableEq

/-- What a run starts from. -/
structure LadderInputs where
  curve : Curve
  point : Point
  scalar : Nat
  /-- Number of ladder iterations. -/
  bits : Nat
  randoms : LadderRandoms
  deriving Repr, DecidableEq

/-- The registers of the ladder between two routines. -/
structure LadderFrame where
  r0 : Point
  r1 : Point
  /-- Index of the scalar bit being processed. -/
  bit : Nat
  /-- That bit of the scalar. -/
  kap : Bool
  /-- The bit before it. -/
  kapPrevious : Bool
  deriving Repr, DecidableEq

namespace LadderFrame

def flags (f : LadderFrame) (state : MachineState) : UInt32 :=
  LadderFlags.scalarBit.set (UInt32.ofNat f.bit) <|
  LadderFlags.inZaddc.put (state == .zaddc) <|
  LadderFlags.inZaddu.put (state == .zaddu) <|
  LadderFlags.kapPrevious.put f.kapPrevious <|
  LadderFlags.kap.put f.kap <|
  LadderFlags.r1Zero.put f.r1.isInfinity <|
  LadderFlags.r0Zero.put f.r0.isInfinity 0

/-- The coordinates of both points and the common denominator. -/
def writes (r0 r1 : Point) : List SlotWrite := [
  ⟨Microcode.Slot.xR0, r0.coords.1⟩,
  ⟨Microcode.Slot.yR0, r0.coords.2⟩,
  ⟨Microcode.Slot.xR1, r1.coords.1⟩,
  ⟨Microcode.Slot.yR1, r1.coords.2⟩,
  ⟨Microcode.Slot.zR01, 1⟩]

/-- The opcodes of a routine, in address order, each with the writes listed for its
address. -/
def routine (f : LadderFrame) (r : Microcode.Routine) (writes : List (Nat × SlotWrite)) :
    List Position :=
  let flags := f.flags r.state
  (List.range r.length).map fun i =>
    let pc := r.start + i
    ⟨pc, r.state, flags, (writes.filter fun w => w.1 == pc).map fun w => w.2⟩

end LadderFrame

/-- A run: what has been executed, most recent first, what is to come, and what the
run computes. -/
structure LadderRun where
  passed : List Position
  pending : List Position
  result : Point
  deriving Repr, DecidableEq

namespace LadderRun
open LadderFrame (writes)

/-- Writes of the ladder points at one address. -/
def pointsAt (pc : Nat) (r0 r1 : Point) : List (Nat × SlotWrite) :=
  (writes r0 r1).map fun w => (pc, w)

/-- The frame in which iteration `j` begins. -/
def enter (scalar j : Nat) (f : LadderFrame) : LadderFrame :=
  { f with kapPrevious := f.kap, kap := scalar.testBit j, bit := j }

/-- The opcodes of one iteration that begins in frame `f`, and the frame it ends in. -/
def iteration (c : Curve) (f : LadderFrame) : List Position × LadderFrame :=
  let ((a0, a1), (d0, d1)) := c.ladderStep f.kap f.r0 f.r1
  let added := { f with r0 := a0, r1 := a1 }
  (f.routine Microcode.zaddu (pointsAt Microcode.Address.zadduDone a0 a1) ++
    added.routine Microcode.zaddc (pointsAt Microcode.Address.zaddcDone d0 d1),
   { f with r0 := d0, r1 := d1 })

/-- The opcodes of the iterations for the `n` low bits, after those already laid out. -/
def iterations (c : Curve) (scalar : Nat) :
    Nat → LadderFrame → Array Position → Array Position × LadderFrame
  | 0, f, laid => (laid, f)
  | n + 1, f, laid =>
    let (opcodes, next) := iteration c (enter scalar n f)
    iterations c scalar n next (laid ++ opcodes)

/-- What runs before the ladder: the input check, the blinding if there is any, and the
setup, with the random values as they are drawn. -/
def opening (inputs : LadderInputs) (f : LadderFrame) : List Position :=
  let blinding := match inputs.randoms.alpha with
    | some alpha =>
      f.routine Microcode.blindInit
        [(Microcode.Address.alphaReady, ⟨Microcode.Slot.alpha, alpha⟩)]
    | none => []
  f.routine Microcode.checkOnCurve [] ++ blinding ++
    f.routine Microcode.setup
      ([(Microcode.Address.phi0Ready, ⟨Microcode.Slot.phi0, inputs.randoms.phi0⟩),
        (Microcode.Address.phi1Ready, ⟨Microcode.Slot.phi1, inputs.randoms.phi1⟩),
        (Microcode.Address.lambdaReady, ⟨Microcode.Slot.lambda, inputs.randoms.lambda⟩)] ++
        pointsAt Microcode.Address.setupDone f.r0 f.r1)

/-- What runs after the ladder: the final subtraction, the exit, in which the result
is in R1, and the output check. -/
def closing (f : LadderFrame) : List Position :=
  f.routine Microcode.subtractP (pointsAt Microcode.Address.subtractPDone f.r0 f.r1) ++
  f.routine Microcode.exit (pointsAt Microcode.Address.exitDone f.r1 f.r0) ++
  f.routine Microcode.exitCheck []

/-- The frame before the first iteration. -/
def initialFrame (inputs : LadderInputs) : LadderFrame where
  r0 := .infinity
  r1 := inputs.point
  bit := inputs.bits - 1
  kap := false
  kapPrevious := false

/-- Lays out the run for the given inputs, with nothing executed yet. -/
def start (inputs : LadderInputs) : LadderRun :=
  let first := initialFrame inputs
  let (laid, last) :=
    iterations inputs.curve inputs.scalar inputs.bits first (opening inputs first).toArray
  { passed := []
    pending := (laid ++ closing last).toList
    result := last.r0 }

/-! ### Walking a run -/

/-- Every position, in execution order. -/
def positions (r : LadderRun) : List Position := r.passed.reverse ++ r.pending

/-- Number of positions. -/
def size (r : LadderRun) : Nat := r.passed.length + r.pending.length

/-- The last position executed. -/
def current? (r : LadderRun) : Option Position := r.passed.head?

/-- The position to come. -/
def peek? (r : LadderRun) : Option Position := r.pending.head?

/-- Executes the next position, unless the run is over. -/
def advance? (r : LadderRun) : Option (Position × LadderRun) :=
  match r.pending with
  | [] => none
  | next :: rest => some (next, { r with passed := next :: r.passed, pending := rest })

def isDone (r : LadderRun) : Bool := r.pending.isEmpty

end LadderRun

end CurveEngine
