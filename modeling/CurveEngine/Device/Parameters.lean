/-! Synthesis parameters of an engine, with the counts that no synthesis changes. -/
namespace CurveEngine.Device

structure Parameters where
  /-- Synthesized for debugging, as opposed to production. -/
  debug : Bool := true
  /-- The shuffling countermeasure is available. -/
  shuffle : Bool := true
  /-- The prime size can be changed. -/
  dynamicSize : Bool := true
  /-- Big-number words are 64 bits wide. -/
  wideWords : Bool := false
  /-- The largest prime size. -/
  maxSize : Nat := 528
  /-- The prime size after reset. -/
  size : Nat := 256
  versionMajor : Nat := 1
  versionMinor : Nat := 2
  /-- Status reads for which a command keeps the engine busy. -/
  latency : Nat := 2
  /-- Opcodes that the instruction memory holds. -/
  opcodes : Nat := 1024
  /-- Bits of a limb of Fp memory. -/
  limbWidth : Nat := 32
  /-- Bits that the raw random FIFO holds. -/
  rawSize : Nat := 4096
  /-- Bits of the random numbers that drive the shuffling. -/
  shuffleWidth : Nat := 9
  deriving Repr, DecidableEq, Inhabited

/-- Status reads, after a reset or a multiplication, before a scalar can be masked. -/
def warmupReads : Nat := 3

/-- Status reads that a soft reset takes. -/
def initReads : Nat := 2

/-- Bits of an opcode. -/
def opcodeSize : Nat := 32

/-- The smallest prime size. -/
def minSize : Nat := 8

end CurveEngine.Device
