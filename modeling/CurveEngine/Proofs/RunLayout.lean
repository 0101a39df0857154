import CurveEngine.Trace.Points
import CurveEngine.Ladder
import Mathlib.Algebra.Group.Nat.Defs
import Mathlib.Tactic.Common

/-! How a run is laid out.

A run is its opening, an iteration for each bit of the scalar from the most significant
one down, and its closing (`pending_start`). It begins at the entry of the microcode and
ends at its last opcode, which no other opcode of the run shares (`pending_ends`). -/
namespace CurveEngine
open Register

/-- The spot that the debug bank shows for an opcode. -/
def Position.spot (p : Position) : Spot :=
  ⟨UInt32.ofNat p.pc &&& DebugStatus.pc.mask, p.state⟩

/-- Every address of the microcode is shown as it is. -/
theorem Position.spot_of_lt {p : Position} (h : p.pc < 2 ^ 12) :
    p.spot = ⟨UInt32.ofNat p.pc, p.state⟩ := by
  have hmask : DebugStatus.pc.mask.toNat = 2 ^ 12 - 1 := by decide
  have hpc : UInt32.ofNat p.pc &&& DebugStatus.pc.mask = UInt32.ofNat p.pc := by
    apply UInt32.toNat_inj.mp
    rw [UInt32.toNat_and, hmask, Nat.and_two_pow_sub_one_eq_mod, UInt32.toNat_ofNat']
    omega
  rw [spot, hpc]

namespace LadderRun

/-- The opcodes of the iterations for the `n` low bits. -/
def ladderOpcodes (c : Curve) (scalar : Nat) : Nat → LadderFrame → List Position
  | 0, _ => []
  | n + 1, f =>
    let (opcodes, next) := iteration c (enter scalar n f)
    opcodes ++ ladderOpcodes c scalar n next

/-- The frame after the iterations for the `n` low bits. -/
def frameAfter (c : Curve) (scalar : Nat) : Nat → LadderFrame → LadderFrame
  | 0, f => f
  | n + 1, f => frameAfter c scalar n (iteration c (enter scalar n f)).2

theorem iterations_eq (c : Curve) (scalar n : Nat) (f : LadderFrame) (laid : Array Position) :
    iterations c scalar n f laid =
      (laid ++ (ladderOpcodes c scalar n f).toArray, frameAfter c scalar n f) := by
  induction n generalizing f laid with
  | zero => simp only [iterations, ladderOpcodes, frameAfter, Array.append_empty]
  | succ n ih =>
    simp only [iterations, ladderOpcodes, frameAfter, ih, Prod.mk.injEq, and_true]
    rw [← Array.toList_inj]
    simp

/-- The frame in which a run closes. -/
def lastFrame (inputs : LadderInputs) : LadderFrame :=
  frameAfter inputs.curve inputs.scalar inputs.bits (initialFrame inputs)

theorem pending_start (inputs : LadderInputs) :
    (start inputs).pending = opening inputs (initialFrame inputs) ++
      (ladderOpcodes inputs.curve inputs.scalar inputs.bits (initialFrame inputs) ++
        closing (lastFrame inputs)) := by
  simp only [start, iterations_eq, lastFrame]
  simp

/-- The frames of a run carry the pairs of the ladder. -/
theorem frameAfter_pair (c : Curve) (scalar n : Nat) (f : LadderFrame) :
    ((frameAfter c scalar n f).r0, (frameAfter c scalar n f).r1) =
      c.ladder scalar n (f.r0, f.r1) := by
  induction n generalizing f with
  | zero => rfl
  | succ n ih => exact ih _

/-- Nothing of a run has been executed when it is laid out. -/
theorem start_eq (inputs : LadderInputs) :
    start inputs = ⟨[], (start inputs).pending, (start inputs).result⟩ := by
  have hpassed : (start inputs).passed = [] := rfl
  rw [← hpassed]

/-- All of a run is still to come when it is laid out. -/
theorem positions_start (inputs : LadderInputs) :
    (start inputs).positions = (start inputs).pending := by
  have hpassed : (start inputs).passed = [] := rfl
  rw [positions, hpassed, List.reverse_nil, List.nil_append]

/-- A run computes a multiple of its point. -/
theorem result_start (inputs : LadderInputs) :
    (start inputs).result = inputs.curve.scalarMul inputs.scalar inputs.point inputs.bits := by
  have hpair := congrArg Prod.fst (frameAfter_pair inputs.curve inputs.scalar inputs.bits
    (initialFrame inputs))
  simp only [start, iterations_eq]
  exact hpair

/-! ### Where a run begins and ends -/

theorem pc_routine {f : LadderFrame} {r : Microcode.Routine} {writes : List (Nat × SlotWrite)}
    {p : Position} (h : p ∈ f.routine r writes) : p.pc < r.start + r.length := by
  obtain ⟨i, hi, rfl⟩ := List.mem_map.mp h
  exact Nat.add_lt_add_left (List.mem_range.mp hi) _

theorem pc_opening {inputs : LadderInputs} {f : LadderFrame} {p : Position}
    (h : p ∈ opening inputs f) : p.pc < Microcode.Address.finish := by
  have hcheck : Microcode.checkOnCurve.start + Microcode.checkOnCurve.length ≤ 0x87 := by decide
  have hblind : Microcode.blindInit.start + Microcode.blindInit.length ≤ 0x87 := by decide
  have hsetup : Microcode.setup.start + Microcode.setup.length ≤ 0x87 := by decide
  rcases List.mem_append.mp h with h | h
  · rcases List.mem_append.mp h with h | h
    · exact Nat.lt_of_lt_of_le (pc_routine h) hcheck
    · split at h
      · exact Nat.lt_of_lt_of_le (pc_routine h) hblind
      · exact absurd h List.not_mem_nil
  · exact Nat.lt_of_lt_of_le (pc_routine h) hsetup

theorem pc_ladderOpcodes {c : Curve} {scalar n : Nat} {f : LadderFrame} {p : Position}
    (h : p ∈ ladderOpcodes c scalar n f) : p.pc < Microcode.Address.finish := by
  have hzaddu : Microcode.zaddu.start + Microcode.zaddu.length ≤ 0x87 := by decide
  have hzaddc : Microcode.zaddc.start + Microcode.zaddc.length ≤ 0x87 := by decide
  induction n generalizing f with
  | zero => exact absurd h List.not_mem_nil
  | succ n ih =>
    rcases List.mem_append.mp h with h | h
    · rcases List.mem_append.mp h with h | h
      · exact Nat.lt_of_lt_of_le (pc_routine h) hzaddu
      · exact Nat.lt_of_lt_of_le (pc_routine h) hzaddc
    · exact ih h

/-- What runs before the last opcode of a run. -/
def closingBody (f : LadderFrame) : List Position :=
  f.routine Microcode.subtractP (pointsAt Microcode.Address.subtractPDone f.r0 f.r1) ++
  f.routine Microcode.exit (pointsAt Microcode.Address.exitDone f.r1 f.r0) ++
  f.routine { Microcode.exitCheck with length := Microcode.exitCheck.length - 1 } []

/-- The last opcode of a run. -/
def finishAt (f : LadderFrame) : Position :=
  ⟨Microcode.Address.finish, .exit, f.flags .exit, []⟩

theorem closing_eq (f : LadderFrame) : closing f = closingBody f ++ [finishAt f] := by
  rw [closing, closingBody, List.append_assoc _ _ [finishAt f]]
  rfl

theorem pc_closingBody {f : LadderFrame} {p : Position} (h : p ∈ closingBody f) :
    p.pc < Microcode.Address.finish := by
  have hsubtract : Microcode.subtractP.start + Microcode.subtractP.length ≤ 0x87 := by decide
  have hexit : Microcode.exit.start + Microcode.exit.length ≤ 0x87 := by decide
  rcases List.mem_append.mp h with h | h
  · rcases List.mem_append.mp h with h | h
    · exact Nat.lt_of_lt_of_le (pc_routine h) hsubtract
    · exact Nat.lt_of_lt_of_le (pc_routine h) hexit
  · exact pc_routine h

/-- The first opcode of a run. -/
def entryAt (inputs : LadderInputs) : Position :=
  ⟨Microcode.Address.entry, .checkOnCurve, (initialFrame inputs).flags .checkOnCurve, []⟩

/-- What runs between the first opcode and the last one. -/
def middle (inputs : LadderInputs) : List Position :=
  (opening inputs (initialFrame inputs)).tail ++
    (ladderOpcodes inputs.curve inputs.scalar inputs.bits (initialFrame inputs) ++
      closingBody (lastFrame inputs))

/-- A run begins at the entry and ends at its last opcode. -/
theorem pending_ends (inputs : LadderInputs) :
    (start inputs).pending = entryAt inputs :: (middle inputs ++ [finishAt (lastFrame inputs)]) := by
  have hopening : opening inputs (initialFrame inputs) =
      entryAt inputs :: (opening inputs (initialFrame inputs)).tail := rfl
  rw [pending_start, closing_eq, hopening]
  simp only [middle, List.cons_append, List.append_assoc]

theorem spot_entryAt (inputs : LadderInputs) : (entryAt inputs).spot = TracePoints.standard.entry :=
  Position.spot_of_lt (show Microcode.Address.entry < 2 ^ 12 by decide)

/-- A breakpoint at the entry is one on the first opcode. -/
theorem pc_entryAt (inputs : LadderInputs) :
    (TracePoints.standard.entry.pc &&& Breakpoint.address.mask).toNat = (entryAt inputs).pc := by
  show _ = Microcode.Address.entry
  decide

theorem spot_finishAt (f : LadderFrame) : (finishAt f).spot = TracePoints.standard.last :=
  Position.spot_of_lt (show Microcode.Address.finish < 2 ^ 12 by decide)

/-- No opcode before the last one is at the last spot. -/
theorem spot_middle {inputs : LadderInputs} {p : Position} (h : p ∈ middle inputs) :
    p.spot ≠ TracePoints.standard.last := by
  have hpc : p.pc < Microcode.Address.finish := by
    rcases List.mem_append.mp h with h | h
    · exact pc_opening (List.mem_of_mem_tail h)
    · rcases List.mem_append.mp h with h | h
      · exact pc_ladderOpcodes h
      · exact pc_closingBody h
  have hfinish : Microcode.Address.finish = 0x87 := rfl
  intro hspot
  rw [Position.spot_of_lt (by omega), TracePoints.standard, Spot.mk.injEq] at hspot
  have hsame := congrArg UInt32.toNat hspot.1
  rw [UInt32.toNat_ofNat', UInt32.toNat_ofNat'] at hsame
  omega

end LadderRun

end CurveEngine
