import CurveEngine.Bus
import CurveEngine.Device.Parameters
import CurveEngine.Device.Sequencer
import CurveEngine.Device.Trng
import CurveEngine.FpMemory
import CurveEngine.Register.Latch
import CurveEngine.Register.Number

/-! The state of an engine.

Operands and results are in eight big-number registers beside the scalar: the curve's
`p`, `a`, `b`, `q` and the coordinates of two points R0 and R1, each of which may be
flagged as infinity instead. `powerUp` is the state before any reset, `softReset` what
a soft reset makes of a state; the big numbers, the debug memories and the random
number generator survive it. -/
namespace CurveEngine.Device
open Register

/-- The content of the big-number registers. -/
structure NumberFile where
  p : Nat
  a : Nat
  b : Nat
  q : Nat
  xR0 : Nat
  yR0 : Nat
  xR1 : Nat
  yR1 : Nat
  deriving Repr, DecidableEq

namespace NumberFile

def zero : NumberFile := ⟨0, 0, 0, 0, 0, 0, 0, 0⟩

def get (f : NumberFile) : Number → Nat
  | .p => f.p
  | .a => f.a
  | .b => f.b
  | .q => f.q
  | .xR0 => f.xR0
  | .yR0 => f.yR0
  | .xR1 => f.xR1
  | .yR1 => f.yR1

def set (number : Number) (value : Nat) (f : NumberFile) : NumberFile :=
  match number with
  | .p => { f with p := value }
  | .a => { f with a := value }
  | .b => { f with b := value }
  | .q => { f with q := value }
  | .xR0 => { f with xR0 := value }
  | .yR0 => { f with yR0 := value }
  | .xR1 => { f with xR1 := value }
  | .yR1 => { f with yR1 := value }

theorem get_set (f : NumberFile) (m n : Number) (v : Nat) :
    (f.set m v).get n = if n = m then v else f.get n := by
  cases m <;> cases n <;> rfl

def curve (f : NumberFile) : Curve := ⟨f.p, f.a, f.b, f.q⟩

end NumberFile

/-- An open transfer of a big number, and the word that comes next. -/
inductive Transfer where
  | write (destination : Destination) (index : Nat)
  | read (value : Nat) (index : Nat)
  deriving Repr, DecidableEq

structure State where
  params : Parameters
  /-- The prime size. -/
  size : Nat
  numbers : NumberFile
  scalar : Nat
  r0Null : Bool
  r1Null : Bool
  /-- The answer of the last test on points. -/
  yes : Bool
  /-- The error latch. -/
  errors : UInt32
  transfer : Option Transfer
  /-- The token for the next result. -/
  token : Option Nat
  /-- Status reads until the engine is no longer busy. -/
  busy : Nat
  /-- Status reads until it is initialized. -/
  init : Nat
  /-- Status reads until a scalar can be masked. -/
  warmup : Nat
  /-- Bits by which scalars are blinded; zero for no blinding. -/
  blinding : Nat
  shuffle : Bool
  /-- Ladder steps between two re-maskings. -/
  zremask : Option Nat
  xyShuffle : Bool
  axiMask : Bool
  tokenMask : Bool
  /-- Scalar bits to which the next multiplication is restricted. -/
  smallScalar : Option Nat
  irq : Bool
  sequencer : Sequencer
  /-- Duration of the last point operation, in opcodes. Runs have fewer than `2 ^ 32`, as all
  those at a prime size of sixteen bits do, so that a word of 32 bits would count the same. -/
  operationTime : Nat
  triggerArmed : Bool
  triggerUp : UInt32
  triggerDown : UInt32
  program : Array UInt32
  opcodeAddress : UInt32
  fp : FpMemory
  limbWriteAddress : UInt32
  limb : UInt32
  limbReady : Bool
  trng : Trng

namespace State

def powerUp (params : Parameters) (entropy : Nat → UInt8) : State where
  params
  size := params.size
  numbers := .zero
  scalar := 0
  r0Null := true
  r1Null := true
  yes := false
  errors := 0
  transfer := none
  token := none
  busy := 0
  init := 0
  warmup := warmupReads
  blinding := 0
  shuffle := params.shuffle
  zremask := none
  xyShuffle := false
  axiMask := true
  tokenMask := true
  smallScalar := none
  irq := false
  sequencer := .idle
  operationTime := 0
  triggerArmed := false
  triggerUp := 0
  triggerDown := 0
  program := Array.replicate params.opcodes 0
  opcodeAddress := 0
  fp := .blank params.maxSize params.limbWidth
  limbWriteAddress := 0
  limb := 0
  limbReady := false
  trng := .powerUp entropy params.rawSize

def softReset (s : State) : State :=
  { s with
    size := s.params.size
    scalar := 0
    r0Null := true
    r1Null := true
    yes := false
    errors := 0
    transfer := none
    token := none
    init := initReads
    warmup := warmupReads
    blinding := 0
    shuffle := s.params.shuffle
    zremask := none
    smallScalar := none
    irq := false
    sequencer := { Sequencer.idle with stray := s.sequencer.stray } }

/-! ### Views -/

def curve (s : State) : Curve := s.numbers.curve

def pointR0 (s : State) : Point :=
  if s.r0Null then .infinity else .affine s.numbers.xR0 s.numbers.yR0

def pointR1 (s : State) : Point :=
  if s.r1Null then .infinity else .affine s.numbers.xR1 s.numbers.yR1

/-- Whether a multiplication is in progress, running or halted. -/
def multiplying (s : State) : Bool := s.sequencer.run.isSome

def isHalted (s : State) : Bool := s.sequencer.isHalted

/-- Limbs of a number at the current prime size. -/
def limbCount (s : State) : UInt32 :=
  let width := UInt32.ofNat s.params.limbWidth
  (UInt32.ofNat s.size + 4 + width - 1) / width

/-- Where the numbers of a computation at the current prime size are kept. -/
def limbLayout (s : State) : LimbLayout :=
  ⟨s.params.limbWidth, s.limbCount.toNat, (LimbLayout.roundUpWord s.limbCount).toNat⟩

/-- Bits of a big-number word. -/
def wordBits (s : State) : Nat := if s.params.wideWords then 64 else 32

/-- A data word cut down to the width of a big-number word. -/
def wordOf (s : State) (value : UInt64) : UInt64 :=
  if s.params.wideWords then value else lowHalf value

def opcode? (s : State) (address : UInt32) : Option UInt32 := s.program[address.toNat]?

/-! ### Small steps -/

def latch (error : HardwareError) (s : State) : State :=
  { s with errors := s.errors ||| error.mask }

def occupy (s : State) : State := { s with busy := s.params.latency }

def setR1 (point : Point) (s : State) : State :=
  { s with
    numbers := (s.numbers.set .xR1 point.coords.1).set .yR1 point.coords.2
    r1Null := point.isInfinity }

/-- Draws a random number of `bits` bits. -/
def draw (bits : Nat) (channel : Channel) (s : State) : Nat × State :=
  let (value, trng) := s.trng.draw bits channel
  (value, { s with trng })

/-- Draws a random number of the prime size, below the prime. -/
def drawBelowP (channel : Channel) (s : State) : Nat × State :=
  let (value, trng) := s.trng.drawBelow s.numbers.p s.size channel
  (value, { s with trng })

end State

end CurveEngine.Device
