import CurveEngine.Device.State

/-! Scalar multiplication on the device: start, walk, halt, finish.

`startMultiplication` checks the point in R1, settles the scalar, draws the random
values and lays out the run; `walk` then executes positions one by one until a
breakpoint stops it, until its budget of opcodes is used up, or until the run is over.
A finished run leaves its result in R1, masked by the token. -/
namespace CurveEngine.Device.State
open Register

/-- Number of bits of a natural number. -/
def bitLength (n : Nat) : Nat := if n = 0 then 0 else n.log2 + 1

/-- The scalar that a run uses, its number of ladder iterations, and the blinding
multiplier if it was blinded. -/
structure EffectiveScalar where
  value : Nat
  bits : Nat
  alpha : Option Nat
  deriving Repr, DecidableEq

/-- Settles the scalar. A small scalar size applies once and excludes blinding. -/
def effectiveScalar (s : State) : EffectiveScalar × State :=
  match s.smallScalar with
  | some bits => (⟨s.scalar &&& ((1 <<< bits) - 1), bits, none⟩, { s with smallScalar := none })
  | none =>
    if s.blinding > 0 then
      let (alpha, s) := s.draw s.blinding .axi
      let value := s.scalar + alpha * s.numbers.q
      (⟨value, max (s.size + s.blinding) (bitLength value), some alpha⟩, s)
    else (⟨s.scalar, max s.size (bitLength s.scalar), none⟩, s)

/-- Draws the random values of a run. The shuffling countermeasures draw as well, but
what they draw changes nothing that can be observed. -/
def drawRandoms (alpha : Option Nat) (s : State) : LadderRandoms × State :=
  let (phi0, s) := s.drawBelowP .efp
  let (phi1, s) := s.drawBelowP .efp
  let (lambda, s) := s.drawBelowP .efp
  let s := if s.shuffle then (s.draw s.params.shuffleWidth .shf).2 else s
  let s := if s.xyShuffle then (s.draw 1 .crv).2 else s
  (⟨alpha, phi0, phi1, lambda⟩, s)

/-- The result of the run in progress goes to R1, masked by the token, which is then
gone. -/
def finish (s : State) : State :=
  match s.sequencer.run with
  | none => s
  | some run =>
    let mask := if s.tokenMask then s.token.getD 0 else 0
    { s with
      numbers := (s.numbers.set .xR1 (run.result.coords.1 ^^^ mask)).set .yR1
        (run.result.coords.2 ^^^ mask)
      r1Null := run.result.isInfinity
      token := none
      warmup := warmupReads
      busy := s.params.latency
      sequencer := ({ s.sequencer with run := none, last := none }).raise .done }

/-- Executes one position: its writes appear in Fp memory and it becomes the last
opcode executed. -/
def arrive (run : LadderRun) (p : Position) (s : State) : State :=
  let layout := s.limbLayout
  { s with
    operationTime := s.operationTime + 1
    fp := p.writes.foldl (fun fp w => FpMemory.store layout w.slot w.value fp) s.fp
    sequencer := { s.sequencer with run := some run, last := some p } }

/-- Halts at the position just executed. -/
def halt (hit : Option Nat) (s : State) : State :=
  { s with sequencer := ({ s.sequencer with hit }).raise .hit }

/-- Executes the positions to come until a breakpoint or the budget stops the run. -/
def walk (passed : List Position) (result : Point) :
    Option Nat → List Position → State → State
  | _, [], s => s.finish
  | budget, p :: rest, s =>
    let s := s.arrive ⟨p :: passed, rest, result⟩ p
    let hit := s.sequencer.breakpointAt? p
    if hit.isSome || budget.any (· ≤ 1) then s.halt hit
    else walk (p :: passed) result (budget.map (· - 1)) rest s

/-- Goes on with the run in progress, for at most `budget` opcodes if one is given. -/
def proceed (budget : Option Nat) (s : State) : State :=
  match s.sequencer.run with
  | none => s.finish
  | some run => s.walk run.passed run.result budget run.pending

/-- Starts a multiplication of the point in R1 by the scalar. A point that is not on
the curve is refused. -/
def startMultiplication (s : State) : State :=
  let curve := s.curve
  let point := s.pointR1
  if !curve.contains point then s.latch .inputNotOnCurve
  else
    let (scalar, s) := s.effectiveScalar
    let (randoms, s) := s.drawRandoms scalar.alpha
    let run := LadderRun.start ⟨curve, point, scalar.value, scalar.bits, randoms⟩
    let budget := if s.sequencer.haltPending then some 1 else none
    let sequencer :=
      ({ s.sequencer with run := some run, hit := none, haltPending := false }).raise .start
    proceed budget { s with operationTime := 0, sequencer }

/-- Lets a halted multiplication go on: to the end, or for a number of opcodes. -/
def step (word : UInt32) (s : State) : State :=
  if !s.isHalted then s
  else if StepsField.resume.isSet word then
    proceed none { s with sequencer := { s.sequencer.raise .resume with hit := none } }
  else if StepsField.run.isSet word then
    proceed (some (max (StepsField.count.read word).toNat 1))
      { s with sequencer := { s.sequencer.raise .step with hit := none } }
  else s

end CurveEngine.Device.State
