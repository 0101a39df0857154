import CurveEngine.Proofs.RunStores
import Mathlib.Tactic.Ring

/-! The program of a run, routine by routine.

`program` lists the routines that a run executes: the blinding only if the scalar is blinded, and
the two routines of the ladder once for each bit. The opcodes of a run are those of its program
(`places_start`), so how long it is and how often it passes a point can be counted routine by
routine (`sum_program`). Where an iteration has added and where it has doubled is in no other
routine; what is stored there, from one iteration to the next, is what the ladder computes step
by step (`stores_start`). -/
namespace CurveEngine
open Microcode

/-- The opcodes of a routine: their addresses in order, each in the state of the routine. -/
def Microcode.Routine.places (r : Routine) : List (Nat × MachineState) :=
  (List.range r.length).map fun i => (r.start + i, r.state)

/-- The routine that a phase is in. -/
def TracePhase.routine : TracePhase → Routine
  | .alpha => blindInit
  | .phi0 | .phi1 | .lambda | .setup => Microcode.setup
  | .zaddu => Microcode.zaddu
  | .zaddc => Microcode.zaddc
  | .subtractP => Microcode.subtractP
  | .exit => Microcode.exit

/-- The place of a spot. -/
def Spot.place (spot : Spot) : Nat × MachineState := (spot.pc.toNat, spot.state)

/-- The place of an opcode. -/
def Position.place (p : Position) : Nat × MachineState := (p.pc, p.state)

/-- What the iterations for the `n` low bits compute, one after the other: each the pair after the
addition, then the pair after the doubling. -/
def Curve.ladderSteps (c : Curve) (k : Nat) :
    Nat → Point × Point → List ((Point × Point) × (Point × Point))
  | 0, _ => []
  | n + 1, pair =>
    let step := c.ladderStep (k.testBit n) pair.1 pair.2
    step :: c.ladderSteps k n step.2

namespace LadderInputs
variable (run : LadderInputs)

/-- The routines of a run, in the order of execution. -/
def program : List Routine :=
  checkOnCurve :: (if run.randoms.alpha.isSome then [blindInit] else []) ++ setup ::
    (List.replicate run.bits [zaddu, zaddc]).flatten ++ [subtractP, exit, exitCheck]

/-- How often a run passes the point of a phase. -/
def occurrences : TracePhase → Nat
  | .zaddu | .zaddc => run.bits
  | .alpha => if run.randoms.alpha.isSome then 1 else 0
  | .phi0 | .phi1 | .lambda | .setup | .subtractP | .exit => 1

/-- The steps of the ladder of a run. -/
def ladderSteps : List ((Point × Point) × (Point × Point)) :=
  run.curve.ladderSteps run.scalar run.bits (.infinity, run.point)

/-- Whatever is counted in a program is counted in its routines, those of the ladder once for
each bit. -/
theorem sum_program (g : Routine → Nat) :
    (run.program.map g).sum = g checkOnCurve + (if run.randoms.alpha.isSome then g blindInit else 0) +
      g setup + run.bits * (g zaddu + g zaddc) + g subtractP + g exit + g exitCheck := by
  have hladder (n : Nat) :
      ((List.replicate n [zaddu, zaddc]).flatten.map g).sum = n * (g zaddu + g zaddc) := by
    induction n with
    | zero => rw [Nat.zero_mul]; rfl
    | succ n ih =>
      rw [List.replicate_succ, List.flatten_cons, List.map_append, List.sum_append, ih]
      simp only [List.map_cons, List.map_nil, List.sum_cons, List.sum_nil]
      ring
  rw [program]
  split
  · simp only [List.map_append, List.map_cons, List.map_nil, List.sum_append, List.sum_cons,
      List.sum_nil, hladder]
    omega
  · simp only [List.map_append, List.map_cons, List.map_nil, List.sum_append, List.sum_cons,
      List.sum_nil, hladder]
    omega

end LadderInputs

namespace LadderFrame
variable (f : LadderFrame) (r : Routine) (ws : List (Nat × SlotWrite))

/-- A routine passes its own places. -/
theorem places_routine : (f.routine r ws).map Position.place = r.places := by
  rw [routine, List.map_map]
  rfl

end LadderFrame

namespace LadderRun
open LadderFrame (places_routine)
variable (run : LadderInputs)

/-! ### The program -/

theorem places_ladderOpcodes (c : Curve) (scalar n : Nat) (f : LadderFrame) :
    (ladderOpcodes c scalar n f).map Position.place =
      (List.replicate n [zaddu, zaddc]).flatten.flatMap Routine.places := by
  induction n generalizing f with
  | zero => rfl
  | succ n ih =>
    rw [ladderOpcodes, List.map_append, ih, iteration, List.map_append, places_routine,
      places_routine, List.replicate_succ, List.flatten_cons, List.flatMap_append]
    rfl

theorem places_opening (f : LadderFrame) :
    (opening run f).map Position.place =
      (checkOnCurve :: (if run.randoms.alpha.isSome then [blindInit] else []) ++ [setup]).flatMap
        Routine.places := by
  rw [opening_eq, List.map_append, List.map_append, places_routine, places_routine, blinding]
  cases run.randoms.alpha with
  | none => rfl
  | some alpha => rfl

theorem places_closing (f : LadderFrame) :
    (closing f).map Position.place = [subtractP, exit, exitCheck].flatMap Routine.places := by
  rw [closing, List.map_append, List.map_append, places_routine, places_routine, places_routine]
  rfl

/-- A run executes the opcodes of its program. -/
theorem places_start :
    (start run).positions.map Position.place = run.program.flatMap Routine.places := by
  rw [positions_start, pending_start, List.map_append, List.map_append, places_opening,
    places_ladderOpcodes, places_closing, ← List.flatMap_append, ← List.flatMap_append]
  congr 1
  simp only [LadderInputs.program, List.append_assoc, List.cons_append, List.nil_append]

theorem length_start :
    (start run).positions.length =
      40 + 16 * run.bits + if run.randoms.alpha.isSome then 4 else 0 := by
  have hlength (r : Routine) : r.places.length = r.length := by
    rw [Routine.places, List.length_map, List.length_range]
  have hplaces := congrArg List.length (places_start run)
  rw [List.length_map, List.length_flatMap, run.sum_program] at hplaces
  rw [hplaces]
  simp only [hlength]
  show 8 + (if _ then 4 else 0) + 12 + run.bits * (8 + 8) + 4 + 8 + 8 = _
  omega

/-! ### Visits -/

/-- The opcodes of a run that are executed at a spot. -/
def visits (spot : Spot) (r : LadderRun) : List Position :=
  r.positions.filter fun p => p.place == spot.place

theorem length_visits (spot : Spot) :
    ((start run).visits spot).length = (run.program.map fun r => r.places.count spot.place).sum := by
  have hcount : ((start run).visits spot).length =
      ((start run).positions.map Position.place).count spot.place := by
    rw [visits, ← List.countP_eq_length_filter, List.count, List.countP_map]
    rfl
  rw [hcount, places_start, List.count_flatMap]
  rfl

/-- The point of a phase is in one routine, once. -/
theorem count_places : ∀ point ∈ TracePoints.standard.phases,
    ∀ r ∈ [checkOnCurve, blindInit, setup, zaddu, zaddc, subtractP, exit, exitCheck],
      r.places.count point.1.place = if r = point.2.routine then 1 else 0 := by
  decide

/-- A run passes the point of each phase as often as its inputs tell. -/
theorem length_visits_point {spot : Spot} {phase : TracePhase}
    (h : (spot, phase) ∈ TracePoints.standard.phases) :
    ((start run).visits spot).length = run.occurrences phase := by
  have hcount := count_places _ h
  simp only [List.forall_mem_cons] at hcount
  obtain ⟨hcheck, hblind, hsetup, hzaddu, hzaddc, hsubtract, hexit, hexitCheck, -⟩ := hcount
  rw [length_visits, run.sum_program, hcheck, hblind, hsetup, hzaddu, hzaddc, hsubtract, hexit,
    hexitCheck]
  cases phase <;>
    simp [TracePhase.routine, LadderInputs.occurrences, checkOnCurve, blindInit, setup, zaddu,
      zaddc, subtractP, exit, exitCheck]

/-- A run is at the last spot only when it ends. -/
theorem place_last_iff {i : Nat} {p : Position} (h : (start run).positions[i]? = some p) :
    p.place = TracePoints.standard.last.place ↔ i + 1 = (start run).positions.length := by
  have hends : (start run).positions =
      (entryAt run :: middle run) ++ [finishAt (lastFrame run)] := by
    rw [positions_start, pending_ends, List.cons_append]
  have hi : i < (start run).positions.length := (List.getElem?_eq_some_iff.mp h).1
  rw [hends, List.length_append, List.length_singleton] at hi ⊢
  rw [hends] at h
  rcases Nat.lt_succ_iff_lt_or_eq.mp hi with hi | rfl
  · refine ⟨fun hplace => ?_, fun hlast => by omega⟩
    rw [List.getElem?_append_left hi] at h
    obtain ⟨hpc, hstate⟩ := Prod.mk.inj hplace
    have hspot : p.spot = TracePoints.standard.last := by
      rw [Position.spot_of_lt (hpc.trans_lt (by decide)), hpc, hstate]
      rfl
    rcases List.mem_cons.mp (List.mem_of_getElem? h) with rfl | hmem
    · cases hstate
    · exact absurd hspot (spot_middle hmem)
  · rw [List.getElem?_concat_length, Option.some.injEq] at h
    rw [← h]
    exact ⟨fun _ => rfl, fun _ => rfl⟩

/-! ### What is stored -/

/-- What the opcodes at a spot store. -/
def stores (spot : Spot) (positions : List Position) : List (List SlotWrite) :=
  (positions.filter fun p => p.place == spot.place).map Position.writes

theorem stores_append (spot : Spot) (a b : List Position) :
    stores spot (a ++ b) = stores spot a ++ stores spot b := by
  rw [stores, List.filter_append, List.map_append]
  rfl

/-- Where an iteration has added. -/
def addedSpot : Spot := ⟨UInt32.ofNat Address.zadduDone, .zaddu⟩

/-- Where an iteration has doubled. -/
def doubledSpot : Spot := ⟨UInt32.ofNat Address.zaddcDone, .zaddc⟩

theorem stores_iteration (c : Curve) (f : LadderFrame) :
    let step := c.ladderStep f.kap f.r0 f.r1
    stores addedSpot (iteration c f).1 = [LadderFrame.writes step.1.1 step.1.2] ∧
      stores doubledSpot (iteration c f).1 = [LadderFrame.writes step.2.1 step.2.2] :=
  ⟨rfl, rfl⟩

theorem stores_ladderOpcodes (c : Curve) (scalar n : Nat) (f : LadderFrame) :
    let steps := c.ladderSteps scalar n (f.r0, f.r1)
    stores addedSpot (ladderOpcodes c scalar n f) =
        steps.map (fun step => LadderFrame.writes step.1.1 step.1.2) ∧
      stores doubledSpot (ladderOpcodes c scalar n f) =
        steps.map fun step => LadderFrame.writes step.2.1 step.2.2 := by
  induction n generalizing f with
  | zero => exact ⟨rfl, rfl⟩
  | succ n ih =>
    obtain ⟨hadded, hdoubled⟩ := stores_iteration c (enter scalar n f)
    obtain ⟨ihAdded, ihDoubled⟩ := ih (iteration c (enter scalar n f)).2
    simp only [ladderOpcodes, stores_append, hadded, hdoubled, ihAdded, ihDoubled]
    exact ⟨rfl, rfl⟩

/-- Opcodes elsewhere store nothing at a spot. -/
theorem stores_eq_nil {spot : Spot} {positions : List Position}
    (h : spot.place ∉ positions.map Position.place) : stores spot positions = [] := by
  rw [stores, List.map_eq_nil_iff, List.filter_eq_nil_iff]
  intro p hp hplace
  exact h (List.mem_map.mpr ⟨p, hp, beq_iff_eq.mp hplace⟩)

/-- Neither spot of an iteration is in another routine. -/
theorem stores_outside {spot : Spot} (h : spot = addedSpot ∨ spot = doubledSpot) (f g : LadderFrame) :
    stores spot (opening run f) = [] ∧ stores spot (closing g) = [] := by
  have hopening (blinded : Bool) : spot.place ∉
      (checkOnCurve :: (if blinded then [blindInit] else []) ++ [setup]).flatMap Routine.places := by
    rcases h with rfl | rfl <;> cases blinded <;> decide
  have hclosing : spot.place ∉ [subtractP, exit, exitCheck].flatMap Routine.places := by
    rcases h with rfl | rfl <;> decide
  exact ⟨stores_eq_nil (places_opening run f ▸ hopening _),
    stores_eq_nil (places_closing g ▸ hclosing)⟩

/-- What a run stores in its iterations is what its ladder computes. -/
theorem stores_start :
    stores addedSpot (start run).positions =
        run.ladderSteps.map (fun step => LadderFrame.writes step.1.1 step.1.2) ∧
      stores doubledSpot (start run).positions =
        run.ladderSteps.map fun step => LadderFrame.writes step.2.1 step.2.2 := by
  obtain ⟨hadded, hdoubled⟩ := stores_ladderOpcodes run.curve run.scalar run.bits (initialFrame run)
  obtain ⟨hopens, hcloses⟩ := stores_outside run (.inl rfl) (initialFrame run) (lastFrame run)
  obtain ⟨hopens', hcloses'⟩ := stores_outside run (.inr rfl) (initialFrame run) (lastFrame run)
  simp only [positions_start, pending_start, stores_append, hopens, hcloses, hopens', hcloses',
    hadded, hdoubled, List.nil_append, List.append_nil]
  exact ⟨rfl, rfl⟩

end LadderRun

namespace LadderInputs
variable {run : LadderInputs}

/-- A routine of a run stores only at points of its phases. -/
theorem Executes.at_point {r : Routine} {ws : List (Nat × SlotWrite)} (h : run.Executes r ws) :
    ∀ pc ∈ ws.map Prod.fst, ∃ point ∈ TracePoints.standard.phases,
      (pc, r.state) = point.1.place := by
  cases h with
  | checkOnCurve | exitCheck => decide
  | blindInit =>
    show ∀ pc ∈ [Address.alphaReady], _
    decide
  | setup =>
    show ∀ pc ∈ [Address.phi0Ready, Address.phi1Ready, Address.lambdaReady] ++
      List.replicate 5 Address.setupDone, _
    decide
  | zaddu =>
    show ∀ pc ∈ List.replicate 5 Address.zadduDone, _
    decide
  | zaddc =>
    show ∀ pc ∈ List.replicate 5 Address.zaddcDone, _
    decide
  | subtractP =>
    show ∀ pc ∈ List.replicate 5 Address.subtractPDone, _
    decide
  | exit =>
    show ∀ pc ∈ List.replicate 5 Address.exitDone, _
    decide

/-- An opcode of a run that stores something is at the point of a phase. -/
theorem Has.at_point {p : Position} (h : run.Has p) (hwrites : p.writes ≠ []) :
    ∃ point ∈ TracePoints.standard.phases, p.place = point.1.place := by
  obtain ⟨f, r, ws, hexecutes, hmem⟩ := h
  obtain ⟨i, -, rfl⟩ := List.mem_map.mp hmem
  obtain ⟨w, hw⟩ := List.exists_mem_of_ne_nil _ hwrites
  obtain ⟨v, hv, -⟩ := List.mem_map.mp hw
  obtain ⟨hmem, hpc⟩ := List.mem_filter.mp hv
  obtain ⟨point, hpoint, hplace⟩ := hexecutes.at_point v.1 (List.mem_map_of_mem hmem)
  refine ⟨point, hpoint, ?_⟩
  rw [← hplace, beq_iff_eq.mp hpc]
  rfl

end LadderInputs

namespace LadderRun

/-- **The layout and the result of a run.** For any inputs, whatever the modulus: a run computes
the multiple of its point; it executes the opcodes of its program, in address order and each in
the state of its routine; it is at the last spot only when it ends; it passes the points of the
ladder once for each bit, that of the blinding if there is one, and each other point once; and it
stores only at these points. In its i-th iteration it stores the two pairs that the i-th step of
the ladder computes, each coordinate in its slot, and the denominator that they have in common. -/
theorem start_layout (run : LadderInputs) :
    (start run).result = run.curve.scalarMul run.scalar run.point run.bits ∧
    ((start run).positions.map Position.place = run.program.flatMap Routine.places ∧
      (start run).positions.length =
        40 + 16 * run.bits + if run.randoms.alpha.isSome then 4 else 0) ∧
    (∀ (i : Nat) (p : Position), (start run).positions[i]? = some p →
      (p.place = TracePoints.standard.last.place ↔ i + 1 = (start run).positions.length)) ∧
    (∀ point ∈ TracePoints.standard.phases,
      ((start run).visits point.1).length = run.occurrences point.2) ∧
    (∀ p ∈ (start run).positions, p.writes ≠ [] →
      ∃ point ∈ TracePoints.standard.phases, p.place = point.1.place) ∧
    ∀ spot : Spot,
      ((spot, .zaddu) ∈ TracePoints.standard.phases →
        ((start run).visits spot).map Position.writes =
          run.ladderSteps.map fun step => [
            ⟨Slot.xR0, step.1.1.coords.1⟩, ⟨Slot.yR0, step.1.1.coords.2⟩,
            ⟨Slot.xR1, step.1.2.coords.1⟩, ⟨Slot.yR1, step.1.2.coords.2⟩, ⟨Slot.zR01, 1⟩]) ∧
      ((spot, .zaddc) ∈ TracePoints.standard.phases →
        ((start run).visits spot).map Position.writes =
          run.ladderSteps.map fun step => [
            ⟨Slot.xR0, step.2.1.coords.1⟩, ⟨Slot.yR0, step.2.1.coords.2⟩,
            ⟨Slot.xR1, step.2.2.coords.1⟩, ⟨Slot.yR1, step.2.2.coords.2⟩, ⟨Slot.zR01, 1⟩]) := by
  obtain ⟨hadded, hdoubled⟩ := stores_start run
  refine ⟨result_start run, ⟨places_start run, length_start run⟩,
    fun i p h => place_last_iff run h, fun point hpoint => length_visits_point run hpoint,
    fun p hmem hwrites => ?_, fun spot => ⟨fun hspot => ?_, fun hspot => ?_⟩⟩
  · rw [positions_start] at hmem
    exact (has_pending hmem).at_point hwrites
  · have hspot' : spot = addedSpot := by simpa [TracePoints.standard, addedSpot] using hspot
    rw [hspot']
    exact hadded
  · have hspot' : spot = doubledSpot := by simpa [TracePoints.standard, doubledSpot] using hspot
    rw [hspot']
    exact hdoubled

/-- A blinded run of three bits modulo a number that is not a prime. -/
def blinded15 : LadderInputs where
  curve := ⟨15, 2, 3, 5⟩
  point := .affine 20 7
  scalar := 6
  bits := 3
  randoms := ⟨some 9, 1, 2, 4⟩

theorem start_layout_blinded15 :
    (start blinded15).positions.length = 92 ∧ ((start blinded15).visits addedSpot).length = 3 ∧
      ((start blinded15).visits addedSpot).map Position.writes =
        [[⟨16, 20⟩, ⟨17, 7⟩, ⟨18, 20⟩, ⟨19, 7⟩, ⟨26, 1⟩],
          [⟨16, 7⟩, ⟨17, 11⟩, ⟨18, 9⟩, ⟨19, 1⟩, ⟨26, 1⟩],
          [⟨16, 7⟩, ⟨17, 11⟩, ⟨18, 0⟩, ⟨19, 0⟩, ⟨26, 1⟩]] := by
  obtain ⟨-, ⟨-, hlength⟩, -, hvisits, -, hstores⟩ := start_layout blinded15
  have hpoint : (addedSpot, TracePhase.zaddu) ∈ TracePoints.standard.phases := by decide
  exact ⟨hlength, hvisits _ hpoint, ((hstores addedSpot).1 hpoint).trans (by decide +kernel)⟩

end LadderRun

end CurveEngine
