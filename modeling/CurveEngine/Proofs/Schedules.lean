import CurveEngine.Proofs.Breakpoints
import CurveEngine.Proofs.Releasing

/-! A multiplication under a debugger.

A debugger arms breakpoints, halts a multiplication, lets it go on for some opcodes or to
the end, and looks at the status and the debug bank meanwhile. In whatever order it does
so, each opcode of the run is executed once and the run is finished once. What stays the
same on the way is what the multiplication comes to when it is let go (`prospect`): it is
kept by every stretch of the run (`prospect_walk`) and by every access of a debugger
(`prospect_serve`), and does not depend on what is armed at the start
(`prospect_multiply`). So two multiplications that are over have come to the same
(`multiply_schedule`). -/
namespace CurveEngine.Device
open Register

namespace State
variable {s t : State}

/-! ### What a multiplication comes to -/

/-- What a multiplication leaves behind, on an engine as it was built. -/
structure Outcome where
  params : Parameters
  numbers : NumberFile
  r1Null : Bool
  token : Option Nat
  fp : FpMemory
  operationTime : Nat

def outcome (s : State) : Outcome :=
  ⟨s.params, s.numbers, s.r1Null, s.token, s.fp, s.operationTime⟩

/-- What the multiplication in progress, if there is one, leaves behind when all that is to
come of its run has been executed. -/
def prospect (s : State) : Outcome :=
  match s.sequencer.run with
  | none => s.outcome
  | some run => (s.after ⟨run.pending.reverse, [], run.result⟩).finish.outcome

theorem prospect_resting (hresting : s.multiplying = false) : s.prospect = s.outcome := by
  have hrun : s.sequencer.run = none := Option.not_isSome_iff_eq_none.mp (Bool.eq_false_iff.mp hresting)
  rw [prospect, hrun]

theorem prospect_run {run : LadderRun} (hrun : s.sequencer.run = some run) :
    s.prospect = (s.after ⟨run.pending.reverse, [], run.result⟩).finish.outcome := by
  rw [prospect, hrun]

theorem outcome_finish {run : LadderRun} (hrun : s.sequencer.run = some run) :
    s.finish.outcome =
      { s.outcome with
        numbers := (s.numbers.set .xR1 (run.result.coords.1 ^^^ s.mask)).set .yR1
          (run.result.coords.2 ^^^ s.mask)
        r1Null := run.result.isInfinity
        token := none } := by
  simp only [finish, hrun]
  rfl

/-- The result of a run replaces R1 and the token, and what the run has executed is in
memory. -/
theorem outcome_finish_after (s : State) (run : LadderRun) :
    (s.after run).finish.outcome =
      { s.outcome with
        numbers := (s.numbers.set .xR1 (run.result.coords.1 ^^^ s.mask)).set .yR1
          (run.result.coords.2 ^^^ s.mask)
        r1Null := run.result.isInfinity
        token := none
        fp := memoryAfter s.limbLayout run.passed s.fp
        operationTime := s.operationTime + run.passed.length } := rfl

/-- What a run depends on while it is executed. -/
def footprint (s : State) : Option LadderRun × Outcome × Nat × Bool :=
  (s.sequencer.run, s.outcome, s.size, s.tokenMask)

theorem prospect_frame (same : t.footprint = s.footprint) : t.prospect = s.prospect := by
  simp only [footprint, outcome, Prod.mk.injEq, Outcome.mk.injEq] at same
  obtain ⟨hrun, ⟨hparams, hnumbers, hnull, htoken, hfp, htime⟩, hsize, hmask⟩ := same
  unfold prospect
  rw [hrun]
  cases s.sequencer.run with
  | none => simp only [outcome, hparams, hnumbers, hnull, htoken, hfp, htime]
  | some run =>
    simp only [outcome_finish_after]
    simp only [outcome, mask, limbLayout, limbCount, hparams, hnumbers, htoken, hfp, htime, hsize,
      hmask]

/-! ### Stretches of a run -/

/-- Executing the next position changes nothing of what the run comes to. -/
theorem outcome_arrive (s : State) (run : LadderRun) (p : Position) (rest : List Position)
    (result : Point) :
    ((s.arrive run p).after ⟨rest.reverse, [], result⟩).finish.outcome =
      (s.after ⟨(p :: rest).reverse, [], result⟩).finish.outcome := by
  have hmemory (layout : LimbLayout) (memory : FpMemory) :
      memoryAfter layout (rest.reverse ++ [p]) memory =
        memoryAfter layout rest.reverse (memoryAfter layout [p] memory) := List.foldr_append
  simp only [outcome_finish_after, List.reverse_cons, hmemory, List.length_append, List.length_singleton,
    ← Nat.add_assoc, Nat.add_right_comm _ rest.reverse.length 1]
  rfl

/-- Wherever a run stops, it comes to what it would have come to. -/
theorem prospect_walk {passed : List Position} {result : Point}
    (hrun : ∃ run, s.sequencer.run = some run ∧ run.result = result) (budget : Option Nat)
    (pending : List Position) :
    (s.walk passed result budget pending).prospect =
      (s.after ⟨pending.reverse, [], result⟩).finish.outcome := by
  induction pending generalizing s passed budget with
  | nil =>
    obtain ⟨run, hsome, rfl⟩ := hrun
    show s.finish.prospect = _
    rw [prospect_resting s.multiplying_finish, outcome_finish hsome]
    rfl
  | cons p rest ih =>
    rw [← outcome_arrive s ⟨p :: passed, rest, result⟩]
    simp only [State.walk]
    split
    · refine Eq.trans (prospect_frame ?_) (prospect_run (s := s.arrive _ p) rfl)
      simp only [footprint, halt, run_raise]
      rfl
    · exact ih ⟨_, rfl, rfl⟩ _

theorem prospect_proceed (s : State) (budget : Option Nat) :
    (s.proceed budget).prospect = s.prospect := by
  cases hrun : s.sequencer.run with
  | none => simp only [proceed, finish, hrun]
  | some run =>
    rw [proceed_run hrun, prospect_walk ⟨run, hrun, rfl⟩, prospect_run hrun]

theorem prospect_step (s : State) (word : UInt32) : (s.step word).prospect = s.prospect := by
  rcases s.step_cases word with hstep | ⟨-, event, budget, -, hstep⟩
  · rw [hstep]
  · rw [hstep, prospect_proceed]
    refine prospect_frame ?_
    simp only [footprint, released, run_raise]
    rfl

end State

/-! ### What a debugger does -/

/-- The registers that a debugger writes to follow a multiplication. -/
def following : List Sink := [.breakpoint, .steps, .halt, .limbReadAddress]

/-- What a debugger asks of an engine to follow a multiplication: writes of those registers,
and reads of the status and of the debug bank. -/
def Request.Follows : Request → Prop
  | .read _ offset => offset = Source.status.offset ∨ debugBase ≤ offset
  | .write _ offset _ => ∃ r ∈ following, offset = r.offset

instance : DecidablePred Request.Follows
  | .read _ offset => inferInstanceAs (Decidable (offset = Source.status.offset ∨ debugBase ≤ offset))
  | .write _ offset _ => inferInstanceAs (Decidable (∃ r ∈ following, offset = r.offset))

namespace State
variable {s : State}

theorem prospect_readSource {r : Source} (hr : r ≠ .readData) (s : State) :
    (s.readSource r).2.prospect = s.prospect := by
  cases r with
  | readData => exact absurd rfl hr
  | _ => exact prospect_frame rfl

theorem prospect_writeSink {r : Sink} (hr : r ∈ following) (value : UInt64) (s : State) :
    (s.writeSink r value).prospect = s.prospect := by
  have hdebug (t : State) (ht : t.prospect = s.prospect) :=
    debug_keeps (P := fun u => u.prospect = s.prospect) rfl ht
  cases r with
  | breakpoint | limbReadAddress => exact hdebug _ (prospect_frame rfl)
  | steps => exact hdebug _ (s.prospect_step _)
  | halt =>
    exact hdebug _ (writeDebug_halt_keeps (P := fun u => u.prospect = s.prospect)
      (fun _ => prospect_frame rfl) _)
  | _ => exact absurd hr (by decide)

/-- Whatever a debugger does, the multiplication comes to the same. -/
theorem prospect_serve {request : Request} (h : request.Follows) (s : State) :
    (s.serve request).prospect = s.prospect := by
  cases request with
  | read size offset =>
    simp only [serve, State.read]
    split
    · rfl
    · rename_i r hr
      refine prospect_readSource ?_ s
      rintro rfl
      rw [← Source.offset_of_ofOffset? hr] at h
      exact h.elim (absurd · (by decide)) (absurd · (by decide))
  | write size offset value =>
    obtain ⟨r, hr, rfl⟩ := h
    simp only [serve, State.write, Sink.ofOffset?_offset]
    exact prospect_writeSink hr _ s

theorem prospect_serveAll {requests : List Request} (h : ∀ request ∈ requests, request.Follows)
    (s : State) : (s.serveAll requests).prospect = s.prospect :=
  List.foldlRecOn requests serve (motive := fun t => t.prospect = s.prospect) rfl
    fun _ ht request hrequest => (prospect_serve (h request hrequest) _).trans ht

/-! ### The beginning -/

/-- A control word that starts a multiplication. -/
def Multiplies (word : UInt32) : Prop :=
  ¬OpensTransfer word ∧ Control.multiply.test word = true

theorem control_multiplies {word : UInt32} (h : Multiplies word) (hresting : s.multiplying = false) :
    s.control word = s.begun.startMultiplication := by
  obtain ⟨hwrite, hread⟩ := not_or.mp h.1
  rw [control_begun hresting hwrite hread, if_pos h.2]

/-- A multiplication that is not refused comes to what its run was laid out for. -/
theorem prospect_control {word : UInt32} (h : Multiplies word) (hresting : s.multiplying = false)
    (hidle : s.sequencer.state = .idle) :
    (s.control word).prospect =
      if s.curve.contains s.pointR1 then s.begun.launched.prospect else s.outcome := by
  rw [control_multiplies h hresting]
  split
  · rename_i hpoint
    rw [startMultiplication_walk (s := s.begun) hpoint hidle, prospect_walk ⟨_, rfl, rfl⟩,
      prospect_run (s := s.begun.launched) rfl]
  · rename_i hpoint
    rw [startMultiplication_refused (s := s.begun) (Bool.eq_false_iff.mpr hpoint)]
    exact prospect_resting (s := s.begun.latch .inputNotOnCurve) hresting

/-- An engine with breakpoints armed as given, on which a halt is pending or not. -/
def watched (breakpoints : Vector (Option Breakpoint) breakpointCount) (pending : Bool)
    (s : State) : State :=
  s.withSequencer { s.sequencer with breakpoints, haltPending := pending }

/-- What a multiplication comes to does not depend on what is armed when it starts. -/
theorem prospect_multiply {word : UInt32} (h : Multiplies word) (hresting : s.multiplying = false)
    (hidle : s.sequencer.state = .idle)
    (breakpoints : Vector (Option Breakpoint) breakpointCount) (pending : Bool) :
    ((s.watched breakpoints pending).control word).prospect = (s.control word).prospect := by
  have hlaunched : (s.watched breakpoints pending).begun.launched.prospect =
      s.begun.launched.prospect := by
    have hinputs : (s.watched breakpoints pending).begun.inputs = s.begun.inputs :=
      inputs_withSequencer s.begun _
    refine prospect_frame ?_
    simp only [footprint, launched, hinputs]
    rfl
  rw [prospect_control (s := s.watched breakpoints pending) h hresting hidle, hlaunched,
    prospect_control h hresting hidle]
  rfl

/-- While nothing is armed, a multiplication is over at once. -/
theorem resting_multiply {word : UInt32} (h : Multiplies word) (hresting : s.multiplying = false)
    (hidle : s.sequencer.state = .idle) (hunarmed : s.sequencer.Unarmed)
    (hpending : s.sequencer.haltPending = false) : (s.control word).multiplying = false := by
  rw [control_multiplies h hresting]
  by_cases hpoint : s.curve.contains s.pointR1 = true
  · rw [startMultiplication_finished (s := s.begun) hpoint hidle hunarmed hpending]
    exact (still_finish rfl _).2
  · rw [startMultiplication_refused (s := s.begun) (Bool.eq_false_iff.mpr hpoint)]
    exact hresting

theorem read_operationTime {t : State} (same : t.outcome = s.outcome) (size : AccessSize) :
    (t.read size Source.operationTime.offset).1 = (s.read size Source.operationTime.offset).1 := by
  have hparams : t.params = s.params := congrArg Outcome.params same
  have htime : t.operationTime = s.operationTime := congrArg Outcome.operationTime same
  have hread (u : State) : (u.read size Source.operationTime.offset).1 =
      .ok (onBus size (if Source.operationTime.isDebug && !u.params.debug then 0
        else (UInt32.ofNat u.operationTime).toUInt64)) := by
    rw [read, Source.ofOffset?_offset]
    rfl
  rw [hread, hread, hparams, htime]

end State

/-- **A multiplication does not depend on how it is followed.** However it is halted,
stepped and resumed, a multiplication that is over leaves the same in R1, the same token,
the same Fp memory and the same operation time as one that nothing stops. -/
theorem multiply_schedule (s : State)
    (breakpoints : Vector (Option Breakpoint) breakpointCount) (pending : Bool)
    (size : AccessSize) (command : UInt64) (schedule : List Request)
    (hs : s.sequencer.Steady) (hresting : s.multiplying = false)
    (hcommand : State.Multiplies (State.onBus size command).toUInt32)
    (hschedule : ∀ request ∈ schedule, request.Follows)
    (hover : (((s.watched breakpoints pending).serve
      (.write size Sink.control.offset command)).serveAll schedule).multiplying = false) :
    let plain := (s.watched (Vector.replicate breakpointCount none) false).serve
      (.write size Sink.control.offset command)
    let followed := ((s.watched breakpoints pending).serve
      (.write size Sink.control.offset command)).serveAll schedule
    plain.multiplying = false ∧
      followed.numbers.get .xR1 = plain.numbers.get .xR1 ∧
      followed.numbers.get .yR1 = plain.numbers.get .yR1 ∧
      followed.r1Null = plain.r1Null ∧ followed.token = plain.token ∧ followed.fp = plain.fp ∧
      followed.operationTime = plain.operationTime ∧
      ∀ size, (followed.read size Source.operationTime.offset).1 =
        (plain.read size Source.operationTime.offset).1 := by
  intro plain followed
  have hidle : s.sequencer.state = .idle := by
    rwa [Sequencer.Steady, show s.sequencer.run.isSome = false from hresting] at hs
  have hserve (t : State) : t.serve (.write size Sink.control.offset command) =
      t.control (State.onBus size command).toUInt32 := by
    simp only [State.serve, State.write, Sink.ofOffset?_offset]
    rfl
  have hrest : plain.multiplying = false := by
    rw [show plain = _ from hserve _]
    exact State.resting_multiply (s := s.watched _ false) hcommand hresting hidle rfl rfl
  have hprospect : followed.prospect = plain.prospect := by
    refine (State.prospect_serveAll hschedule _).trans ?_
    rw [show plain = _ from hserve _, hserve, State.prospect_multiply hcommand hresting hidle,
      State.prospect_multiply hcommand hresting hidle]
  have houtcome : followed.outcome = plain.outcome := by
    rw [← State.prospect_resting hover, hprospect, State.prospect_resting hrest]
  have hnumbers : followed.numbers = plain.numbers := congrArg State.Outcome.numbers houtcome
  refine ⟨hrest, by rw [hnumbers], by rw [hnumbers], congrArg State.Outcome.r1Null houtcome,
    congrArg State.Outcome.token houtcome, congrArg State.Outcome.fp houtcome,
    congrArg State.Outcome.operationTime houtcome, State.read_operationTime houtcome⟩

/-- The small engine with the point `(3, 6)` in R1, a token, and a scalar cut down to one bit. -/
def primed97 : State :=
  Driver.curve97.serveAll [
    .write .word Sink.control.offset (Command.writeNumber Number.xR1.address).word.toUInt64,
    .write .word Sink.writeData.offset 3,
    .write .word Sink.control.offset (Command.writeNumber Number.yR1.address).word.toUInt64,
    .write .word Sink.writeData.offset 6,
    .write .word Sink.token.offset 0,
    .write .word Sink.smallScalar.offset 1]

theorem reachable_primed97 : Reachable primed97 := Driver.reachable_curve97.serveAll _

/-- From a halt on the first opcode: some steps, a breakpoint in the ladder, and to the end. -/
def schedule97 : List Request := [
  .read .word Source.status.offset,
  .write .word Sink.steps.offset (Steps.count.set 20 (Steps.run.put true 0)).toUInt64,
  .write .word Sink.breakpoint.offset
    (Driver.breakpointWord 1 (UInt32.ofNat Microcode.zaddu.start) 0 .idle).toUInt64,
  .write .word Sink.steps.offset (Steps.resume.put true 0).toUInt64,
  .read .doubleWord Source.debugStatus.offset,
  .write .word Sink.limbReadAddress.offset 0,
  .write .word Sink.breakpoint.offset (Register.Breakpoint.id.set 1 0).toUInt64,
  .write .word Sink.steps.offset (Steps.resume.put true 0).toUInt64]

theorem multiply_schedule_primed97 :
    let multiply := Request.write .word Sink.control.offset
      (Command.operate .multiply).word.toUInt64
    let unarmed := Vector.replicate breakpointCount none
    let plain := (primed97.watched unarmed false).serve multiply
    let halted := (primed97.watched unarmed true).serve multiply
    let followed := halted.serveAll schedule97
    halted.isHalted = true ∧ followed.multiplying = false ∧
      followed.numbers.get .xR1 = plain.numbers.get .xR1 ∧
      followed.numbers.get .yR1 = plain.numbers.get .yR1 ∧ followed.fp = plain.fp := by
  intro multiply unarmed plain halted followed
  have hhalted : halted.isHalted = true := by decide +kernel
  have hover : followed.multiplying = false := by decide +kernel
  have hcommand : State.Multiplies (Command.operate .multiply).word :=
    ⟨by rw [State.OpensTransfer]; decide, by decide⟩
  obtain ⟨-, hx, hy, -, -, hfp, -⟩ := multiply_schedule primed97 unarmed true .word
    (Command.operate .multiply).word.toUInt64 schedule97 reachable_primed97.coherent.steady
    (by decide +kernel) hcommand (by decide) hover
  exact ⟨hhalted, hover, hx, hy, hfp⟩

end CurveEngine.Device
