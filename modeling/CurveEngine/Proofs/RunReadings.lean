import CurveEngine.Proofs.RoutineReadings

/-! What a run tells of itself.

`LadderInputs.readings` is the course of a multiplication as it can be read off its inputs:
the setup, an addition and a doubling for each bit of the scalar, the final subtraction and
the exit. The opcodes of the run tell exactly this (`readings_pending`), beside its random
values (`randoms_pending`). -/
namespace CurveEngine

namespace LadderInputs

/-- The pair of points when the bits from `j` up have been processed. -/
def pairAt (run : LadderInputs) (j : Nat) : Point × Point :=
  run.curve.ladder (run.scalar >>> j) (run.bits - j) (.infinity, run.point)

/-- Bit `j` of the scalar, if it is one that is processed. -/
def kapAt (run : LadderInputs) (j : Nat) : Bool := decide (j < run.bits) && run.scalar.testBit j

/-- What is told of the iteration for bit `j`. -/
def iterationReadings (run : LadderInputs) (j : Nat) : List Reading :=
  let before := run.pairAt (j + 1)
  let (added, doubled) := run.curve.ladderStep (run.scalar.testBit j) before.1 before.2
  [⟨.zaddu, j % 2 ^ 16, run.scalar.testBit j, run.kapAt (j + 1), true, false,
      added.1.coords, added.2.coords⟩,
    ⟨.zaddc, j % 2 ^ 16, run.scalar.testBit j, run.kapAt (j + 1), false, true,
      doubled.1.coords, doubled.2.coords⟩]

/-- What is told of a run. -/
def readings (run : LadderInputs) : List Reading :=
  ⟨.setup, (run.bits - 1) % 2 ^ 16, false, false, false, false, (0, 0), run.point.coords⟩ ::
    ((List.range run.bits).reverse.flatMap run.iterationReadings ++
      [⟨.subtractP, 0, run.kapAt 0, run.kapAt 1, false, false,
          (run.pairAt 0).1.coords, (run.pairAt 0).2.coords⟩,
        ⟨.exit, 0, run.kapAt 0, run.kapAt 1, false, false, (run.pairAt 0).2.coords,
          (run.curve.scalarMul run.scalar run.point run.bits).coords⟩])

/-- The frame when the bits from `j` up have been processed. -/
def frameAt (run : LadderInputs) (j : Nat) : LadderFrame where
  r0 := (run.pairAt j).1
  r1 := (run.pairAt j).2
  bit := min j (run.bits - 1)
  kap := run.kapAt j
  kapPrevious := run.kapAt (j + 1)

end LadderInputs

/-! ### Frames -/

/-- The last iteration of a ladder is the one for the lowest bit. -/
theorem Curve.ladder_last (c : Curve) (k m : Nat) (pair : Point × Point) :
    c.ladder k (m + 1) pair =
      (c.ladderStep (k.testBit 0) (c.ladder (k >>> 1) m pair).1
        (c.ladder (k >>> 1) m pair).2).2 := by
  induction m generalizing pair with
  | zero => rfl
  | succ m ih =>
    have hbit : (k >>> 1).testBit m = k.testBit (m + 1) := by
      rw [Nat.testBit_shiftRight, Nat.add_comm]
    rw [ladder, ih, ladder, hbit]

namespace LadderRun
variable {run : LadderInputs}

theorem initialFrame_eq (run : LadderInputs) : initialFrame run = run.frameAt run.bits := by
  have hpair : run.pairAt run.bits = (.infinity, run.point) := by
    rw [LadderInputs.pairAt, Nat.sub_self, Curve.ladder]
  simp only [initialFrame, LadderInputs.frameAt, hpair, LadderInputs.kapAt, Nat.lt_irrefl,
    Nat.not_lt_of_le (Nat.le_succ run.bits), decide_false, Bool.false_and,
    Nat.min_eq_right (Nat.sub_le run.bits 1)]

/-- An iteration leads from one pair of a run to the next one. -/
theorem pairAt_step {j : Nat} (hj : j < run.bits) :
    run.pairAt j = (run.curve.ladderStep (run.scalar.testBit j)
      (run.pairAt (j + 1)).1 (run.pairAt (j + 1)).2).2 := by
  have hbits : run.bits - j = run.bits - (j + 1) + 1 := by omega
  rw [LadderInputs.pairAt, hbits, Curve.ladder_last, LadderInputs.pairAt,
    Nat.testBit_shiftRight, Nat.add_zero, Nat.shiftRight_add]

theorem iteration_frameAt {j : Nat} (hj : j < run.bits) :
    (iteration run.curve (enter run.scalar j (run.frameAt (j + 1)))).2 = run.frameAt j := by
  have hpair := pairAt_step hj
  have hkap : run.kapAt j = run.scalar.testBit j := by
    rw [LadderInputs.kapAt, decide_eq_true hj, Bool.true_and]
  have hbit : min j (run.bits - 1) = j := by omega
  simp only [iteration, enter, LadderInputs.frameAt, hpair, hkap, hbit]

theorem ladderOpcodes_frameAt {n : Nat} (hn : n < run.bits) :
    ladderOpcodes run.curve run.scalar (n + 1) (run.frameAt (n + 1)) =
      (iteration run.curve (enter run.scalar n (run.frameAt (n + 1)))).1 ++
        ladderOpcodes run.curve run.scalar n (run.frameAt n) := by
  rw [← iteration_frameAt hn]
  rfl

theorem frameAfter_frameAt {n : Nat} (hn : n ≤ run.bits) :
    frameAfter run.curve run.scalar n (run.frameAt n) = run.frameAt 0 := by
  induction n with
  | zero => rfl
  | succ n ih => rw [frameAfter, iteration_frameAt hn, ih (Nat.le_of_succ_le hn)]

theorem lastFrame_eq (run : LadderInputs) : lastFrame run = run.frameAt 0 := by
  rw [lastFrame, initialFrame_eq, frameAfter_frameAt (Nat.le_refl _)]

end LadderRun

/-! ### The run -/

namespace LadderRun
open LadderFrame
variable {f : LadderFrame}

/-- The writes of the random values of a run. -/
def drawnAt (randoms : LadderRandoms) : List (Nat × SlotWrite) :=
  [(Microcode.Address.phi0Ready, ⟨Microcode.Slot.phi0, randoms.phi0⟩),
    (Microcode.Address.phi1Ready, ⟨Microcode.Slot.phi1, randoms.phi1⟩),
    (Microcode.Address.lambdaReady, ⟨Microcode.Slot.lambda, randoms.lambda⟩)]

/-- The blinding of a run, if it has one. -/
def blinding (randoms : LadderRandoms) (f : LadderFrame) : List Position :=
  match randoms.alpha with
  | some alpha =>
    f.routine Microcode.blindInit
      [(Microcode.Address.alphaReady, ⟨Microcode.Slot.alpha, alpha⟩)]
  | none => []

theorem opening_eq (run : LadderInputs) (f : LadderFrame) :
    opening run f = f.routine Microcode.checkOnCurve [] ++ blinding run.randoms f ++
      f.routine Microcode.setup
        (drawnAt run.randoms ++ pointsAt Microcode.Address.setupDone f.r0 f.r1) := rfl

theorem readings_opening (run : LadderInputs) (f : LadderFrame) :
    (opening run f).filterMap Position.reading? =
      [.ofFlags .setup (f.flags .setup) f.r0.coords f.r1.coords] := by
  have hsetup := readings_last (r := Microcode.setup) f .setup 11 (drawnAt run.randoms) f.r0 f.r1
    rfl (by decide) (by decide) rfl rfl
  have hblinding : (blinding run.randoms f).filterMap Position.reading? = [] := by
    unfold blinding
    split
    · exact readings_quiet (by decide)
    · rfl
  rw [opening_eq, List.filterMap_append, List.filterMap_append,
    readings_quiet (r := Microcode.checkOnCurve) (by decide), hblinding, List.nil_append]
  exact hsetup

theorem readings_iteration (c : Curve) (f : LadderFrame) :
    (iteration c f).1.filterMap Position.reading? =
      let (added, doubled) := c.ladderStep f.kap f.r0 f.r1
      [⟨.zaddu, f.bit % 2 ^ 16, f.kap, f.kapPrevious, true, false,
          added.1.coords, added.2.coords⟩,
        ⟨.zaddc, f.bit % 2 ^ 16, f.kap, f.kapPrevious, false, true,
          doubled.1.coords, doubled.2.coords⟩] := by
  have hzaddu (f : LadderFrame) (P Q : Point) := readings_last (r := Microcode.zaddu) f .zaddu 7 []
    P Q rfl (by decide) (by decide) rfl rfl
  have hzaddc (f : LadderFrame) (P Q : Point) := readings_last (r := Microcode.zaddc) f .zaddc 7 []
    P Q rfl (by decide) (by decide) rfl rfl
  simp only [Reading.ofFlags_flags] at hzaddu hzaddc
  rw [iteration, List.filterMap_append]
  exact congrArg₂ (· ++ ·) (hzaddu _ _ _) (hzaddc _ _ _)

theorem readings_ladderOpcodes {run : LadderInputs} {n : Nat} (hn : n ≤ run.bits) :
    (ladderOpcodes run.curve run.scalar n (run.frameAt n)).filterMap Position.reading? =
      (List.range n).reverse.flatMap run.iterationReadings := by
  induction n with
  | zero => rfl
  | succ n ih =>
    rw [ladderOpcodes_frameAt hn, List.filterMap_append, readings_iteration, ih (Nat.le_of_succ_le hn),
      List.range_succ, List.reverse_append, List.reverse_singleton, List.singleton_append,
      List.flatMap_cons]
    rfl

theorem readings_closing (f : LadderFrame) :
    (closing f).filterMap Position.reading? =
      [⟨.subtractP, f.bit % 2 ^ 16, f.kap, f.kapPrevious, false, false, f.r0.coords, f.r1.coords⟩,
        ⟨.exit, f.bit % 2 ^ 16, f.kap, f.kapPrevious, false, false, f.r1.coords, f.r0.coords⟩] := by
  have hsubtract := readings_last (r := Microcode.subtractP) f .subtractP 3 [] f.r0 f.r1
    rfl (by decide) (by decide) rfl rfl
  have hexit := readings_last (r := Microcode.exit) f .exit 7 [] f.r1 f.r0
    rfl (by decide) (by decide) rfl rfl
  simp only [Reading.ofFlags_flags] at hsubtract hexit
  rw [closing, List.filterMap_append, List.filterMap_append,
    readings_quiet (r := Microcode.exitCheck) (by decide), List.append_nil]
  exact congrArg₂ (· ++ ·) hsubtract hexit

/-- A run tells of its ladder, iteration by iteration. -/
theorem readings_pending (run : LadderInputs) :
    (start run).pending.filterMap Position.reading? = run.readings := by
  have hladder := readings_ladderOpcodes (Nat.le_refl run.bits)
  rw [← initialFrame_eq] at hladder
  have hlow : min 0 (run.bits - 1) % 2 ^ 16 = 0 := by
    simp only [Nat.zero_min, Nat.zero_mod]
  rw [pending_start, List.filterMap_append, List.filterMap_append, readings_opening,
    Reading.ofFlags_flags, hladder, lastFrame_eq, readings_closing]
  simp only [LadderInputs.frameAt, hlow]
  rfl

theorem randoms_ladderOpcodes (c : Curve) (scalar n : Nat) (f : LadderFrame) (phase : TracePhase) :
    (ladderOpcodes c scalar n f).filterMap (Position.random? phase) = [] := by
  induction n generalizing f with
  | zero => rfl
  | succ n ih =>
    rw [ladderOpcodes, List.filterMap_append, ih, iteration, List.filterMap_append,
      randoms_undrawn (r := Microcode.zaddu) (by decide),
      randoms_undrawn (r := Microcode.zaddc) (by decide)]
    rfl

theorem randoms_closing (f : LadderFrame) (phase : TracePhase) :
    (closing f).filterMap (Position.random? phase) = [] := by
  rw [closing, List.filterMap_append, List.filterMap_append,
    randoms_undrawn (r := Microcode.subtractP) (by decide),
    randoms_undrawn (r := Microcode.exit) (by decide),
    randoms_undrawn (r := Microcode.exitCheck) (by decide)]
  rfl

end LadderRun

/-- The random value of a phase. -/
def LadderRandoms.get? (randoms : LadderRandoms) : TracePhase → Option Nat
  | .alpha => randoms.alpha
  | .phi0 => some randoms.phi0
  | .phi1 => some randoms.phi1
  | .lambda => some randoms.lambda
  | _ => none

namespace LadderRun
open LadderFrame

/-- What a run draws while it is blinded. -/
theorem randoms_blinding (randoms : LadderRandoms) (f : LadderFrame) (phase : TracePhase) :
    (blinding randoms f).filterMap (Position.random? phase) =
      if phase = .alpha then randoms.alpha.toList else [] := by
  unfold blinding
  cases randoms.alpha with
  | none => exact (ite_self []).symm
  | some alpha =>
    cases phase with
    | alpha => exact randoms_once (r := Microcode.blindInit) .alpha 2 (by decide) (by decide) rfl
    | phi0 | phi1 | lambda | setup | zaddu | zaddc | subtractP | exit =>
      exact randoms_none (by decide)

/-- What a run draws while the ladder is set up. -/
theorem randoms_setup (f : LadderFrame) (randoms : LadderRandoms) (phase : TracePhase) :
    (f.routine Microcode.setup
        (drawnAt randoms ++ pointsAt Microcode.Address.setupDone f.r0 f.r1)).filterMap
        (Position.random? phase) =
      if phase = .alpha then [] else (randoms.get? phase).toList := by
  cases phase with
  | phi0 => exact randoms_once (r := Microcode.setup) .phi0 2 (by decide) (by decide) rfl
  | phi1 => exact randoms_once (r := Microcode.setup) .phi1 3 (by decide) (by decide) rfl
  | lambda => exact randoms_once (r := Microcode.setup) .lambda 5 (by decide) (by decide) rfl
  | alpha => exact randoms_none (by decide)
  | setup | zaddu | zaddc | subtractP | exit =>
    exact List.filterMap_eq_nil_iff.mpr fun p _ => Position.random?_of_step rfl p

theorem randoms_opening (run : LadderInputs) (f : LadderFrame) (phase : TracePhase) :
    (opening run f).filterMap (Position.random? phase) = (run.randoms.get? phase).toList := by
  rw [opening_eq, List.filterMap_append, List.filterMap_append,
    randoms_undrawn (r := Microcode.checkOnCurve) (by decide), List.nil_append, randoms_blinding,
    randoms_setup]
  split
  · rename_i halpha
    rw [halpha, List.append_nil]
    rfl
  · rfl

/-- A run tells of each of its random values once. -/
theorem randoms_pending (run : LadderInputs) (phase : TracePhase) :
    (start run).pending.filterMap (Position.random? phase) = (run.randoms.get? phase).toList := by
  rw [pending_start, List.filterMap_append, List.filterMap_append, randoms_opening,
    randoms_ladderOpcodes, randoms_closing, List.append_nil, List.append_nil]

end LadderRun

end CurveEngine
