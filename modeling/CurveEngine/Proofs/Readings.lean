import CurveEngine.Proofs.Slots
import CurveEngine.Proofs.Tracing

/-! What a trace tells of the opcodes it was made of.

At every spot of the standard points the engine has just stored the numbers that the driver
looks at. What the driver then reads is therefore in the opcode itself (`Position.reading?`,
`Position.random?`), however Fp memory looked before, and a trace of a stretch of a run is
what its opcodes tell, one after the other (`readings_follow`, `random?_follow`). -/
namespace CurveEngine
open Register Device

/-! ### Readings -/

/-- The flags and the points of the ladder at one moment. -/
structure Reading where
  phase : TracePhase
  /-- Index of the scalar bit being processed. -/
  bit : Nat
  kap : Bool
  kapPrevious : Bool
  inZaddu : Bool
  inZaddc : Bool
  /-- The coordinates of R0. -/
  r0 : Nat × Nat
  /-- The coordinates of R1. -/
  r1 : Nat × Nat
  deriving Repr, DecidableEq

/-- A reading of a word of ladder flags. -/
def Reading.ofFlags (phase : TracePhase) (flags : UInt32) (r0 r1 : Nat × Nat) : Reading where
  phase
  bit := (LadderFlags.scalarBit.get flags).toNat
  kap := LadderFlags.kap.test flags
  kapPrevious := LadderFlags.kapPrevious.test flags
  inZaddu := LadderFlags.inZaddu.test flags
  inZaddc := LadderFlags.inZaddc.test flags
  r0
  r1

theorem Reading.ofFlags_flags (phase : TracePhase) (f : LadderFrame) (state : MachineState)
    (r0 r1 : Nat × Nat) :
    Reading.ofFlags phase (f.flags state) r0 r1 =
      ⟨phase, f.bit % 2 ^ 16, f.kap, f.kapPrevious, state == .zaddu, state == .zaddc, r0, r1⟩ := by
  have hbit : (LadderFlags.scalarBit.get (f.flags state)).toNat = f.bit % 2 ^ 16 := by
    have hmask : LadderFlags.scalarBit.mask.toNat = 2 ^ 16 - 1 := by decide
    rw [LadderFrame.flags, BitField.get_set (by decide) (by decide), UInt32.toNat_and, hmask,
      Nat.and_two_pow_sub_one_eq_mod, UInt32.toNat_ofNat']
    omega
  rw [ofFlags, hbit]
  simp (disch := decide) only [LadderFrame.flags, BitField.test_set_of_apart,
    BitField.test_put_of_apart, BitField.test_put]

/-- What a trace step tells. -/
def TraceStep.reading (step : TraceStep) : Reading :=
  .ofFlags step.phase step.flags (step.xR0.value, step.yR0.value) (step.xR1.value, step.yR1.value)

/-- The steps of a trace, as far as they tell of the ladder. -/
def Trace.readings (t : Trace) : List Reading := t.steps.toList.map TraceStep.reading

/-- The random value that a phase has drawn. -/
def Trace.random? (phase : TracePhase) (t : Trace) : Option LimbNumber :=
  match phase with
  | .alpha => t.alpha
  | .phi0 => t.phi0
  | .phi1 => t.phi1
  | .lambda => t.lambda
  | _ => none

/-! ### What an opcode tells -/

/-- The slot of the random value that a phase draws. -/
def TracePhase.drawn? : TracePhase → Option Nat
  | .alpha => some Microcode.Slot.alpha
  | .phi0 => some Microcode.Slot.phi0
  | .phi1 => some Microcode.Slot.phi1
  | .lambda => some Microcode.Slot.lambda
  | _ => none

/-- The slots that a phase has just stored to, as far as they are read. -/
def TracePhase.slots (phase : TracePhase) : List Nat :=
  match phase.drawn? with
  | some slot => [slot]
  | none =>
    [Microcode.Slot.xR0, Microcode.Slot.yR0, Microcode.Slot.xR1, Microcode.Slot.yR1]

/-- The phase that has produced its values at an opcode address. -/
def TracePhase.at? (pc : Nat) (state : MachineState) : Option TracePhase :=
  TracePoints.standard.phaseAt? ⟨UInt32.ofNat pc &&& DebugStatus.pc.mask, state⟩

namespace Position

/-- The phase that has produced its values at an opcode. -/
def phase? (p : Position) : Option TracePhase := TracePhase.at? p.pc p.state

/-- The number that an opcode stores to a slot. -/
def stored (slot : Nat) (p : Position) : Nat :=
  ((p.writes.find? fun w => w.slot == slot).map SlotWrite.value).getD 0

/-- The reading that a trace takes at an opcode. -/
def reading? (p : Position) : Option Reading :=
  match p.phase? with
  | none => none
  | some phase =>
    match phase.drawn? with
    | some _ => none
    | none => some (.ofFlags phase p.flags
        (p.stored Microcode.Slot.xR0, p.stored Microcode.Slot.yR0)
        (p.stored Microcode.Slot.xR1, p.stored Microcode.Slot.yR1))

theorem reading?_of_none {p : Position} (h : p.phase? = none) : p.reading? = none := by
  rw [reading?, h]

theorem reading?_of_drawn {p : Position} {phase : TracePhase} {slot : Nat}
    (h : p.phase? = some phase) (hdrawn : phase.drawn? = some slot) : p.reading? = none := by
  simp only [reading?, h, hdrawn]

/-- The random value that a trace notes for a phase at an opcode. -/
def random? (phase : TracePhase) (p : Position) : Option Nat :=
  if p.phase? = some phase then phase.drawn?.map p.stored else none

theorem random?_of_step {phase : TracePhase} (h : phase.drawn? = none) (p : Position) :
    p.random? phase = none := by
  rw [random?, h, Option.map_none, ite_self]

/-- Whether an opcode stores all that its phase is read for, each to a slot of its own. -/
def selfContained (p : Position) : Bool :=
  decide (p.writes.map SlotWrite.slot).Nodup &&
    p.writes.all (fun w => decide (w.slot < Microcode.Slot.count)) &&
      match p.phase? with
      | none => true
      | some phase => phase.slots.all fun slot => (p.writes.map SlotWrite.slot).contains slot

/-- Every number that an opcode stores fits into its slot. -/
def Fits (size : Nat) (p : Position) : Prop := ∀ w ∈ p.writes, w.value < 2 ^ (size + 4)

end Position

/-! ### What is read after an opcode -/

section Read
variable {size slot : Nat} {memory : FpMemory}

/-- After a few numbers have been stored, a slot that was not among them reads the same. -/
theorem slotOf_stores_of_not_mem {l : LimbLayout} (h : l.Roomy memory)
    (hslot : slot < Microcode.Slot.count) {writes : List SlotWrite}
    (hplaced : ∀ w ∈ writes, w.slot < Microcode.Slot.count)
    (hnot : slot ∉ writes.map SlotWrite.slot) :
    State.slotOf l slot (writes.foldl (fun fp w => FpMemory.store l w.slot w.value fp) memory) =
      State.slotOf l slot memory := by
  induction writes generalizing memory with
  | nil => rfl
  | cons w rest ih =>
    rw [List.map_cons, List.mem_cons, not_or] at hnot
    rw [List.forall_mem_cons] at hplaced
    rw [List.foldl_cons, ih (h.store l _ _) hplaced.2 hnot.2,
      State.slotOf_store_of_ne h hslot hplaced.1 hnot.1]

/-- After a few numbers have been stored to different slots, each can be read. -/
theorem value_stores {writes : List SlotWrite} (h : FpMemory.Holds size memory)
    (hplaced : ∀ w ∈ writes, w.slot < Microcode.Slot.count)
    (hdistinct : (writes.map SlotWrite.slot).Nodup) {w : SlotWrite} (hw : w ∈ writes)
    (hvalue : w.value < 2 ^ (size + 4)) :
    (State.slotOf (.ofSize size 32) w.slot
      (writes.foldl (fun fp w => FpMemory.store (.ofSize size 32) w.slot w.value fp)
        memory)).value = w.value := by
  induction writes generalizing memory with
  | nil => exact absurd hw List.not_mem_nil
  | cons first rest ih =>
    rw [List.map_cons, List.nodup_cons] at hdistinct
    rw [List.forall_mem_cons] at hplaced
    have hholds := h.store first.slot first.value
    rw [List.foldl_cons]
    rcases List.mem_cons.mp hw with rfl | hw
    · rw [slotOf_stores_of_not_mem hholds.roomy hplaced.1 hplaced.2 hdistinct.1]
      exact State.value_slotOf_store h hplaced.1 hvalue
    · exact ih hholds hplaced.2 hdistinct.2 hw

theorem holds_memoryNext (h : FpMemory.Holds size memory) (p : Position) :
    FpMemory.Holds size (Trace.memoryNext (.ofSize size 32) memory p) := by
  rw [Trace.memoryNext]
  induction p.writes generalizing memory with
  | nil => exact h
  | cons w rest ih => exact ih (h.store w.slot w.value)

/-- A slot that an opcode stores to reads back what it has stored. -/
theorem Position.value_stored {p : Position} (h : FpMemory.Holds size memory)
    (hself : p.selfContained = true) (hfits : p.Fits size)
    (hslot : slot ∈ p.writes.map SlotWrite.slot) :
    (State.slotOf (.ofSize size 32) slot
      (Trace.memoryNext (.ofSize size 32) memory p)).value = p.stored slot := by
  simp only [selfContained, Bool.and_eq_true, decide_eq_true_eq, List.all_eq_true] at hself
  obtain ⟨⟨hdistinct, hplaced⟩, -⟩ := hself
  obtain ⟨found, hfound⟩ : ∃ w, p.writes.find? (fun w => w.slot == slot) = some w := by
    obtain ⟨w, hw, rfl⟩ := List.mem_map.mp hslot
    rw [← Option.isSome_iff_exists, List.find?_isSome]
    exact ⟨w, hw, beq_self_eq_true _⟩
  have hmem := List.mem_of_find?_eq_some hfound
  have hsame : (found.slot == slot) = true :=
    List.find?_some (p := fun w : SlotWrite => w.slot == slot) hfound
  rw [stored, hfound, ← beq_iff_eq.mp hsame]
  exact value_stores h hplaced hdistinct hmem (hfits found hmem)

end Read

/-! ### What a trace is told -/

namespace Trace
open Driver (stepLines)
variable {size : Nat} {memory : FpMemory} {p : Position}

theorem readings_addLines (lines : List String) (t : Trace) :
    (lines.foldl (fun t line => t.addLine line) t).readings = t.readings := by
  induction lines generalizing t with
  | nil => rfl
  | cons line rest ih => exact ih (t.addLine line)

theorem random?_addLines (lines : List String) (phase : TracePhase) (t : Trace) :
    (lines.foldl (fun t line => t.addLine line) t).random? phase = t.random? phase := by
  induction lines generalizing t with
  | nil => rfl
  | cons line rest ih => exact (ih (t.addLine line)).trans (by cases phase <;> rfl)

/-- A trace to which a step and its lines are added. -/
def withStep (step : TraceStep) (t : Trace) : Trace :=
  let logged := (stepLines step).foldl (fun t line => t.addLine line) t
  { logged with steps := logged.steps.push step }

theorem readings_withStep (step : TraceStep) (t : Trace) :
    (t.withStep step).readings = t.readings ++ [step.reading] := by
  rw [← readings_addLines (stepLines step) t]
  show ((_ : Array TraceStep).push step).toList.map TraceStep.reading = _
  rw [Array.toList_push, List.map_append]
  rfl

theorem random?_withSteps (steps : Array TraceStep) (phase : TracePhase) (t : Trace) :
    ({ t with steps } : Trace).random? phase = t.random? phase := by
  cases phase <;> rfl

theorem random?_withStep (step : TraceStep) (phase : TracePhase) (t : Trace) :
    (t.withStep step).random? phase = t.random? phase :=
  (random?_withSteps _ phase _).trans (random?_addLines (stepLines step) phase t)

/-- What is recorded for a phase. -/
theorem record_eq (l : LimbLayout) (memory : FpMemory) (p : Position) {phase : TracePhase}
    (h : phase.drawn? = none) (t : Trace) :
    t.record l memory p phase = t.withStep (stepOf l memory p phase) := by
  cases phase with
  | alpha | phi0 | phi1 | lambda => cases h
  | setup | zaddu | zaddc | subtractP | exit => rfl

theorem readings_record_drawn (l : LimbLayout) (memory : FpMemory) (p : Position)
    {phase : TracePhase} {slot : Nat} (h : phase.drawn? = some slot) (t : Trace) :
    (t.record l memory p phase).readings = t.readings := by
  cases phase with
  | alpha | phi0 | phi1 | lambda => rfl
  | setup | zaddu | zaddc | subtractP | exit => cases h

theorem random?_record_drawn (l : LimbLayout) (memory : FpMemory) (p : Position)
    {phase : TracePhase} {slot : Nat} (h : phase.drawn? = some slot) (other : TracePhase)
    (t : Trace) :
    (t.record l memory p phase).random? other =
      if phase = other then some (State.slotOf l slot memory) else t.random? other := by
  cases phase with
  | alpha | phi0 | phi1 | lambda =>
    cases h
    cases other <;> rfl
  | setup | zaddu | zaddc | subtractP | exit => cases h

/-- What is read for a phase is what its opcode has stored. -/
theorem value_of_phase {phase : TracePhase} (h : FpMemory.Holds size memory)
    (hself : p.selfContained = true) (hfits : p.Fits size) (hphase : p.phase? = some phase)
    {slot : Nat} (hslot : slot ∈ phase.slots) :
    (State.slotOf (.ofSize size 32) slot (memoryNext (.ofSize size 32) memory p)).value =
      p.stored slot := by
  refine Position.value_stored h hself hfits ?_
  simp only [Position.selfContained, hphase, Bool.and_eq_true, List.all_eq_true,
    List.contains_iff_mem] at hself
  exact hself.2 slot hslot

/-- One more look adds the reading of its opcode. -/
theorem readings_observe (h : FpMemory.Holds size memory)
    (hself : p.selfContained = true) (hfits : p.Fits size) {t : Trace}
    (hpoints : t.options.points = .standard) :
    (t.observe (.ofSize size 32) (memoryNext (.ofSize size 32) memory p) p).readings =
      t.readings ++ p.reading?.toList := by
  have hlook : t.options.points.phaseAt? p.spot = p.phase? := by rw [hpoints]; rfl
  simp only [observe, hlook, Position.reading?]
  cases hphase : p.phase? with
  | none => exact (List.append_nil _).symm
  | some phase =>
    cases hdrawn : phase.drawn? with
    | some slot =>
      simp only [hdrawn, Option.toList_none, List.append_nil]
      exact readings_record_drawn _ _ _ hdrawn _
    | none =>
      have hread (slot : Nat) (hslot : slot ∈ phase.slots) :=
        value_of_phase h hself hfits hphase hslot
      simp only [TracePhase.slots, hdrawn, List.mem_cons, List.not_mem_nil, or_false,
        forall_eq_or_imp, forall_eq] at hread
      obtain ⟨hxR0, hyR0, hxR1, hyR1⟩ := hread
      simp only [hdrawn, Option.toList_some]
      rw [record_eq _ _ _ hdrawn, readings_withStep]
      simp only [stepOf, TraceStep.reading, hxR0, hyR0, hxR1, hyR1]
      rfl

/-- One more look notes the random value of its opcode. -/
theorem random?_observe (h : FpMemory.Holds size memory)
    (hself : p.selfContained = true) (hfits : p.Fits size) {t : Trace}
    (hpoints : t.options.points = .standard) (other : TracePhase) :
    ((t.observe (.ofSize size 32) (memoryNext (.ofSize size 32) memory p) p).random? other).map
        LimbNumber.value =
      (p.random? other).or ((t.random? other).map LimbNumber.value) := by
  have hlook : t.options.points.phaseAt? p.spot = p.phase? := by rw [hpoints]; rfl
  have hcounted : ({ t with stepCount := t.stepCount + 1 } : Trace).random? other =
      t.random? other := by cases other <;> rfl
  simp only [observe, hlook, Position.random?]
  cases hphase : p.phase? with
  | none =>
    simp only [reduceCtorEq, if_false, Option.none_or]
    exact congrArg (Option.map LimbNumber.value) hcounted
  | some phase =>
    simp only [Option.some.injEq]
    cases hdrawn : phase.drawn? with
    | none =>
      have hnone : (if phase = other then other.drawn?.map fun slot => p.stored slot else none) =
          (none : Option Nat) := by
        split
        · rename_i hsame
          rw [← hsame, hdrawn, Option.map_none]
        · rfl
      rw [record_eq _ _ _ hdrawn, random?_withStep, hcounted, hnone, Option.none_or]
    | some slot =>
      have hslot : slot ∈ phase.slots := by
        rw [TracePhase.slots, hdrawn]
        exact List.mem_singleton_self slot
      have hread := value_of_phase h hself hfits hphase hslot
      rw [random?_record_drawn _ _ _ hdrawn, hcounted]
      split
      · rename_i hsame
        rw [← hsame, hdrawn, Option.map_some, Option.map_some, hread, Option.some_or]
      · rw [Option.none_or]

/-- A trace of a stretch of a run tells what its opcodes tell. -/
theorem readings_follow {positions : List Position}
    (h : FpMemory.Holds size memory)
    (hself : ∀ p ∈ positions, p.selfContained = true) (hfits : ∀ p ∈ positions, p.Fits size)
    {t : Trace} (hpoints : t.options.points = .standard) :
    (t.follow (.ofSize size 32) (.ofSize size 32) positions memory).readings =
      t.readings ++ positions.filterMap Position.reading? := by
  induction positions generalizing memory t with
  | nil => exact (List.append_nil _).symm
  | cons p rest ih =>
    rw [List.forall_mem_cons] at hself hfits
    have hobserve := readings_observe h hself.1 hfits.1 hpoints
    rw [follow, ih (holds_memoryNext h p) hself.2 hfits.2 (by rwa [options_observe]), hobserve,
      List.append_assoc, List.filterMap_cons]
    cases p.reading? with
    | none => rfl
    | some reading => rfl

/-- It has the random values that were drawn last. -/
theorem random?_follow {positions : List Position}
    (h : FpMemory.Holds size memory)
    (hself : ∀ p ∈ positions, p.selfContained = true) (hfits : ∀ p ∈ positions, p.Fits size)
    {t : Trace} (hpoints : t.options.points = .standard) (phase : TracePhase) :
    ((t.follow (.ofSize size 32) (.ofSize size 32) positions memory).random? phase).map
        LimbNumber.value =
      (positions.filterMap (Position.random? phase)).getLast?.or
        ((t.random? phase).map LimbNumber.value) := by
  induction positions generalizing memory t with
  | nil => rfl
  | cons p rest ih =>
    rw [List.forall_mem_cons] at hself hfits
    have hobserve := random?_observe h hself.1 hfits.1 hpoints phase
    rw [follow, ih (holds_memoryNext h p) hself.2 hfits.2 (by rwa [options_observe]), hobserve,
      List.filterMap_cons]
    cases p.random? phase with
    | none => rfl
    | some value =>
      rw [Option.some_or, List.getLast?_cons, Option.some_or]
      cases (rest.filterMap (Position.random? phase)).getLast? with
      | none => rfl
      | some last => rfl

end Trace

end CurveEngine
