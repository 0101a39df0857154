import CurveEngine.Driver.Debug

/-! The debug side of the random number generator.

Its control register holds modes and actions together and every write sets all of them:
an action puts the modes that it does not name back to their defaults, which are
post-processing on, raw reads allowed and no bypass. -/
namespace CurveEngine.Driver
open Register Procedure

/-- Writes a register of the generator between two idle phases. -/
def writeEntropy (d : Driver) (r : Sink) (word : UInt32) : Operation Unit := do
  d.ensureDebug
  d.waitIdle
  d.write r word
  d.waitIdle

def controlTrng (d : Driver) (word : UInt32) : Operation Unit := d.writeEntropy .trngControl word

/-- Configures the entropy source: debiasing, access time and idle cycles between
samples. -/
def configureTrng (d : Driver) (debias : Bool) (accessTime idle : UInt32) : Operation Unit :=
  d.writeEntropy .trngConfig <|
    TrngConfig.idle.set idle (TrngConfig.accessTime.set accessTime (TrngConfig.debias.put debias 0))

/-- Puts every mode to its default. -/
def resetTrngModes (d : Driver) : Operation Unit := d.controlTrng 0

/-- Stops the post-processing from draining the raw FIFO. -/
def disablePostproc (d : Driver) : Operation Unit :=
  d.controlTrng (TrngControl.postprocOff.put true 0)

/-- Replaces every random number by a constant made of one bit. -/
def bypassTrng (d : Driver) (bit : Bool) : Operation Unit :=
  d.controlTrng (TrngControl.bypassValue.put bit (TrngControl.bypass.put true 0))

def disableRawRead (d : Driver) : Operation Unit :=
  d.controlTrng (TrngControl.rawReadOff.put true 0)

/-- Empties the raw FIFO. -/
def resetRawFifo (d : Driver) : Operation Unit :=
  d.controlTrng (TrngControl.resetRawFifo.put true 0)

/-- Empties the FIFOs of every client. -/
def resetNumberFifos (d : Driver) : Operation Unit :=
  d.controlTrng (TrngControl.resetNumberFifos.put true 0)

/-- Reads the raw bit at an address of the raw FIFO. -/
def readRawBit (d : Driver) (address : UInt32) : Operation Bool := do
  d.controlTrng (TrngControl.rawAddress.set address (TrngControl.readRaw.put true 0))
  let word ← d.read .rawBit
  pure (word &&& 1 != 0)

/-- How full the raw FIFO is. -/
structure RawFifo where
  full : Bool
  /-- Raw bits in the FIFO. -/
  writePointer : UInt32
  deriving Repr, DecidableEq

def rawFifo (d : Driver) : Operation RawFifo := do
  let word ← d.readDebug .rawFifoStatus
  pure ⟨RawFifoStatus.full.test word, RawFifoStatus.writePointer.get word⟩

/-- Size of the raw FIFO. -/
def rawSize (d : Driver) : Operation UInt32 := do
  let word ← d.readDebug .entropyShape
  pure (EntropyShape.rawSize.get word)

/-- Bits of the random numbers that drive the shuffling. -/
def shuffleWidth (d : Driver) : Operation UInt32 := do
  let word ← d.readDebug .entropyShape
  pure (EntropyShape.shuffleWidth.get word)

/-- Cycles that it took to fill the raw FIFO. -/
def rawFillTime (d : Driver) : Operation UInt32 := d.readDebug .rawFillTime

/-! ### Counters -/

/-- Random numbers waiting for each client. -/
structure WaitingCounts where
  axi : UInt32
  efp : UInt32
  crv : UInt32
  shf : UInt32
  deriving Repr, DecidableEq

def waitingCounts (d : Driver) : Operation WaitingCounts := do
  d.ensureDebug
  let axi ← d.read (.waiting .axi)
  let efp ← d.read (.waiting .efp)
  let crv ← d.read (.waiting .crv)
  let shf ← d.read (.waiting .shf)
  pure ⟨axi, efp, crv, shf⟩

/-- The counters of one client. -/
structure ChannelCounters where
  served : UInt32
  starved : UInt32
  deriving Repr, DecidableEq

structure EntropyCounters where
  starvation : UInt32
  axi : ChannelCounters
  efp : ChannelCounters
  crv : ChannelCounters
  shf : ChannelCounters
  deriving Repr, DecidableEq

def channelCounters (d : Driver) (channel : Channel) : Procedure ChannelCounters := do
  let served ← d.read (.served channel)
  let starved ← d.read (.starved channel)
  pure ⟨served, starved⟩

def entropyCounters (d : Driver) : Operation EntropyCounters := do
  d.ensureDebug
  let starvation ← d.read .starvation
  let axi ← d.channelCounters .axi
  let efp ← d.channelCounters .efp
  let crv ← d.channelCounters .crv
  let shf ← d.channelCounters .shf
  pure ⟨starvation, axi, efp, crv, shf⟩

/-- Clears the counters of every client; the starvation counter stays. -/
def resetCounters (d : Driver) : Operation Unit := d.writeDebug .resetCounters 1

end CurveEngine.Driver
