import CurveEngine.Device.Multiply
import CurveEngine.Register.Control

/-! Commands and big-number transfers.

A control word opens a transfer or starts a point operation; which one it is follows
from its bits in a fixed order, so a word with several of them set still means one
thing. The data registers then move the words of the open transfer, the least
significant first. -/
namespace CurveEngine.Device.State
open Register

/-- Opens a transfer to the device. The register is cleared first, and words are then
added to it; writing a coordinate clears its point's infinity flag. -/
def openWrite (address : UInt32) (scalar : Bool) (s : State) : State :=
  if scalar then
    if s.warmup > 0 then { s.latch .notEnoughRandom with transfer := none }
    else { s with scalar := 0, transfer := some (.write .scalar 0) }
  else
    match Number.ofAddress? address with
    | none => { s.latch .unknownNumber with transfer := none }
    | some n =>
      { s with
        numbers := s.numbers.set n 0
        r0Null := s.r0Null && !(n == .xR0 || n == .yR0)
        r1Null := s.r1Null && !(n == .xR1 || n == .yR1)
        transfer := some (.write (.number n) 0) }

/-- Opens a transfer from the device, of a big number or of the token. -/
def openRead (address : UInt32) (token : Bool) (s : State) : State :=
  if token then { s with transfer := some (.read (s.token.getD 0) 0) }
  else
    match Number.ofAddress? address with
    | none => { s.latch .unknownNumber with transfer := none }
    | some n => { s with transfer := some (.read (s.numbers.get n) 0) }

/-- Performs the point operation that a control word asks for, if it asks for one. -/
def operate (word : UInt32) (s : State) : State :=
  let curve := s.curve
  let r0 := s.pointR0
  let r1 := s.pointR1
  let s :=
    if ControlField.add.isSet word then s.setR1 (curve.add r0 r1)
    else if ControlField.double.isSet word then s.setR1 (curve.double r0)
    else if ControlField.negate.isSet word then s.setR1 (curve.neg r0)
    else if ControlField.check.isSet word then { s with yes := curve.contains r0 }
    else if ControlField.equal.isSet word then { s with yes := r0 == r1 }
    else if ControlField.opposite.isSet word then { s with yes := r0 == curve.neg r1 }
    else s
  { s with operationTime := 1 }

/-- Carries out a control word. During a multiplication it is refused. -/
def control (word : UInt32) (s : State) : State :=
  if s.multiplying then s.latch .busyMultiplying
  else
    let s := s.occupy
    let address := ControlField.address.read word
    if ControlField.writeNumber.isSet word then
      s.openWrite address (ControlField.writeScalar.isSet word)
    else if ControlField.readNumber.isSet word then
      s.openRead address (ControlField.readToken.isSet word)
    else if ControlField.multiply.isSet word then
      startMultiplication { s with transfer := none }
    else operate word { s with transfer := none }

/-- The next word of the transfer from the device. -/
def readData (s : State) : UInt64 × State :=
  match s.transfer with
  | some (.read value index) =>
    (s.wordOf (UInt64.ofNat (value >>> (index * s.wordBits))),
     { s with transfer := some (.read value (index + 1)) })
  | _ => (0, s.latch .readRefused)

/-- Adds the next word of the transfer to the device. -/
def writeData (value : UInt64) (s : State) : State :=
  let s := match s.transfer with
    | some (.write destination index) =>
      let part := (s.wordOf value).toNat <<< (index * s.wordBits)
      let s := { s with transfer := some (.write destination (index + 1)) }
      match destination with
      | .scalar => { s with scalar := s.scalar ||| part }
      | .number n => { s with numbers := s.numbers.set n (s.numbers.get n ||| part) }
    | _ => s.latch .writeRefused
  s.occupy

end CurveEngine.Device.State
