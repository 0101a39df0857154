import CurveEngine.Device.Command

/-! The device behind its register window.

`read` and `write` are the accesses that a bus makes. An offset that no register has
is refused. On a production engine the debug bank reads as zero and takes no writes.
Reading the status register is what makes time pass. -/
namespace CurveEngine.Device.State
open Register

/-- The status word. Each read brings the engine one step nearer to being ready. -/
def readStatus (s : State) : UInt32 × State :=
  let word :=
    Status.errors.set s.errors <|
    Status.r1Null.put s.r1Null <|
    Status.r0Null.put s.r0Null <|
    Status.yes.put s.yes <|
    Status.enoughRandom.put (s.warmup == 0) <|
    Status.initializing.put (decide (s.init > 0)) <|
    Status.multiplying.put s.multiplying <|
    Status.busy.put (decide (s.busy > 0) || decide (s.init > 0) || s.multiplying) 0
  let busy := s.busy - 1
  (word,
   { s with
     busy
     init := s.init - 1
     warmup := s.warmup - 1
     trng := if busy == 0 && !s.multiplying then s.trng.refill else s.trng })

def capabilitiesWord (s : State) : UInt32 :=
  Capabilities.maxSize.set (UInt32.ofNat s.params.maxSize) <|
  Capabilities.wideWords.put s.params.wideWords <|
  Capabilities.dynamicSize.put s.params.dynamicSize <|
  Capabilities.shuffle.put s.params.shuffle <|
  Capabilities.debug.put s.params.debug 0

def versionWord (s : State) : UInt32 :=
  Version.minor.set (UInt32.ofNat s.params.versionMinor) <|
  Version.major.set (UInt32.ofNat s.params.versionMajor) 0

def memoryShapeWord (s : State) : UInt32 :=
  MemoryShape.opcodeSize.set (UInt32.ofNat opcodeSize) <|
  MemoryShape.opcodes.set (UInt32.ofNat s.params.opcodes) 0

def entropyShapeWord (s : State) : UInt32 :=
  EntropyShape.shuffleWidth.set (UInt32.ofNat s.params.shuffleWidth) <|
  EntropyShape.rawSize.set (UInt32.ofNat s.params.rawSize) 0

def bitWord (b : Bool) : UInt32 := if b then 1 else 0

/-- The content of a register, and the state after it has been read. The debug bank is
read as it would be on a debug engine. -/
def sourceWord (r : Source) (s : State) : UInt64 × State :=
  match r with
  | .status => let (word, s) := s.readStatus; (word.toUInt64, s)
  | .readData => s.readData
  | .capabilities => (s.capabilitiesWord.toUInt64, s)
  | .primeSize => (UInt64.ofNat s.size, s)
  | .version => (s.versionWord.toUInt64, s)
  | .limbWidth => (UInt64.ofNat s.params.limbWidth, s)
  | .memoryShape => (s.memoryShapeWord.toUInt64, s)
  | .entropyShape => (s.entropyShapeWord.toUInt64, s)
  | .debugStatus => (s.sequencer.statusWord.toUInt64, s)
  | .operationTime => ((UInt32.ofNat s.operationTime).toUInt64, s)
  | .rawFillTime => ((UInt32.ofNat (s.params.rawSize * 4)).toUInt64, s)
  | .ladderFlags => (s.sequencer.flagsWord.toUInt64, s)
  | .rawFifoStatus =>
    let (word, trng) := s.trng.rawStatus s.params.rawSize
    (word.toUInt64, { s with trng })
  | .rawBit => ((bitWord s.trng.rawBit).toUInt64, s)
  | .limb => (s.limb.toUInt64, s)
  | .waiting channel => (UInt64.ofNat (s.trng.waiting.get channel), s)
  | .limbReady => ((bitWord s.limbReady).toUInt64, s)
  | .starvation => (s.trng.starvation.toUInt64, s)
  | .served channel => ((s.trng.served.get channel).toUInt64, s)
  | .starved channel => ((s.trng.starved.get channel).toUInt64, s)

/-- Reads a register. -/
def readSource (r : Source) (s : State) : UInt64 × State :=
  let (value, t) := s.sourceWord r
  (if r.isDebug && !t.params.debug then 0 else value, t)

/-- Sets the prime size, unless it is fixed or out of range. -/
def setSize (size : Nat) (s : State) : State :=
  if !s.params.dynamicSize || size < minSize || size > s.params.maxSize then
    s.latch .sizeRefused
  else { s with size }

/-- Sets the blinding size, unless it is zero or not below the prime size. -/
def setBlinding (word : UInt32) (s : State) : State :=
  let bits := (BlindingField.bits.read word).toNat
  if !BlindingField.enable.isSet word then { s with blinding := 0 }
  else if bits ≥ s.size || bits = 0 then s.latch .blinding
  else { s with blinding := bits }

/-- Turns shuffling on, if the engine has it, or off, if it is not for production. -/
def setShuffle (enable : Bool) (s : State) : State :=
  if enable && !s.params.shuffle || !enable && !s.params.debug then s.latch .shuffle
  else { s with shuffle := enable }

def setZremask (word : UInt32) (s : State) : State :=
  { s with
    zremask :=
      if ZremaskField.enable.isSet word then some ((ZremaskField.period.read word).toNat + 1)
      else none }

/-- Generates a token of the prime size. -/
def drawToken (s : State) : State :=
  let (token, s) := s.draw s.size .axi
  { s with token := some token }

/-- Writes a register of the debug bank. -/
def writeDebug (r : Sink) (word : UInt32) (s : State) : State :=
  let enable := EnableField.enable.isSet word
  match r with
  | .halt =>
    if enable then { s with sequencer := { s.sequencer with haltPending := true } } else s
  | .breakpoint => { s with sequencer := s.sequencer.setBreakpoint word }
  | .steps => s.step word
  | .triggerArm => { s with triggerArmed := enable }
  | .triggerUp => { s with triggerUp := word }
  | .triggerDown => { s with triggerDown := word }
  | .opcodeAddress => { s with opcodeAddress := word }
  | .opcode => { s with program := s.program.setIfInBounds s.opcodeAddress.toNat word }
  | .trngControl => { s with trng := s.trng.control word }
  | .trngConfig => { s with trng := { s.trng with config := word } }
  | .limbWriteAddress => { s with limbWriteAddress := word }
  | .limb => { s with fp := s.fp.setIfInBounds s.limbWriteAddress.toNat word }
  | .limbReadAddress => { s with limb := s.fp.getD word.toNat 0, limbReady := true }
  | .xyShuffle => { s with xyShuffle := enable }
  | .axiMask => { s with axiMask := enable }
  | .tokenMask => { s with tokenMask := enable }
  | .resetCounters => { s with trng := s.trng.resetCounters }
  | _ => s

/-- Writes a register. -/
def writeSink (r : Sink) (value : UInt64) (s : State) : State :=
  let word := value.toUInt32
  let enable := EnableField.enable.isSet word
  match r with
  | .control => s.control word
  | .writeData => s.writeData value
  | .r0Null => { s with r0Null := enable }.occupy
  | .r1Null => { s with r1Null := enable }.occupy
  | .primeSize => (s.setSize (word &&& 0xffff).toNat).occupy
  | .blinding => (s.setBlinding word).occupy
  | .shuffle => (s.setShuffle enable).occupy
  | .zremask => (s.setZremask word).occupy
  | .token => s.drawToken.occupy
  | .irq => { s with irq := enable }
  | .errorAck => { s with errors := s.errors &&& ~~~(Latch.ofAckWord word) }
  | .smallScalar => { s with smallScalar := some (word &&& 0xffff).toNat }.occupy
  | .softReset => s.softReset
  | r => if s.params.debug then s.writeDebug r word else s

/-! ### Accesses -/

/-- A register as a bus access carries it: a word is its low half, a double word has
its halves swapped. -/
def onBus (size : AccessSize) (value : UInt64) : UInt64 :=
  match size with
  | .word => lowHalf value
  | .doubleWord => swapHalves value

/-- Whether an offset is that of a slot in the register window. -/
def isSlot (offset : UInt32) : Bool := offset % 8 == 0 && offset < windowSize

def read (size : AccessSize) (offset : UInt32) (s : State) : Except BusFault UInt64 × State :=
  match Source.ofOffset? offset with
  | none => (.error .loadRefused, s)
  | some r =>
    let (value, s) := s.readSource r
    (.ok (onBus size value), s)

def write (size : AccessSize) (offset : UInt32) (value : UInt64) (s : State) :
    Except BusFault Unit × State :=
  match Sink.ofOffset? offset with
  | some r => (.ok (), s.writeSink r (onBus size value))
  | none =>
    if isSlot offset && debugBase ≤ offset && !s.params.debug then (.ok (), s)
    else (.error .storeRefused, s)

end CurveEngine.Device.State
