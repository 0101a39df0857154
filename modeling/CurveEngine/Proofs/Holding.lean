import CurveEngine.Proofs.Orderly
import CurveEngine.Proofs.Schedules

/-! The token of an engine, from one access to the next.

Four kinds of access reach the token or the run in progress: one that generates a token, a
soft reset, a command that starts a run, and a write of the register that steps and resumes
it. Every other access leaves both as they are (`serve_cases`). An access that goes on with a
run either halts it, and then the token is kept, or brings it to its end, and then the masked
result is in R1 and the token is gone (`Executes.brought`). A transfer opened to read the token
carries what the token was when it was opened, so one opened without a token yields zeros
(`Silent`). -/
namespace CurveEngine.Device
open Register

/-- The access writes a register. -/
def Request.Writes (r : Sink) : Request → Prop
  | .read .. => False
  | .write _ offset _ => offset = r.offset

instance (r : Sink) : DecidablePred (Request.Writes r)
  | .read .. => inferInstanceAs (Decidable False)
  | .write _ offset _ => inferInstanceAs (Decidable (offset = r.offset))

/-- The access writes a control word with a property. -/
def Request.Commands (P : UInt32 → Prop) : Request → Prop
  | .read .. => False
  | .write size offset value =>
    offset = Sink.control.offset ∧ P (State.onBus size value).toUInt32

namespace State
variable {s t : State} {request : Request}

/-- The token for the next result, and the run in progress. -/
def holding (s : State) : Option Nat × Option LadderRun := (s.token, s.sequencer.run)

/-! ### Accesses that reach neither -/

theorem holding_readSource (r : Source) (s : State) : (s.readSource r).2.holding = s.holding :=
  readSource_keeps (P := fun t => t.holding = s.holding) (fun _ _ _ _ _ _ => rfl) r

theorem holding_openWrite (s : State) (address : UInt32) (scalar : Bool) :
    (s.openWrite address scalar).holding = s.holding :=
  openWrite_keeps (P := fun t => t.holding = s.holding) (fun _ _ _ _ _ _ => rfl) address scalar

theorem holding_openRead (s : State) (address : UInt32) (token : Bool) :
    (s.openRead address token).holding = s.holding :=
  openRead_keeps (P := fun t => t.holding = s.holding) (fun _ _ => rfl) address token

theorem holding_operate (s : State) (word : UInt32) : (s.operate word).holding = s.holding :=
  operate_keeps (P := fun t => t.holding = s.holding) (fun _ _ _ _ => rfl) word

theorem holding_writeData (s : State) (value : UInt64) : (s.writeData value).holding = s.holding :=
  writeData_keeps (P := fun t => t.holding = s.holding) (fun _ _ _ _ _ => rfl) value

/-- What a setting of the engine does not touch. -/
def engaged (s : State) : Option Nat × Option LadderRun × Option Transfer :=
  (s.token, s.sequencer.run, s.transfer)

theorem holding_of_engaged (same : t.engaged = s.engaged) : t.holding = s.holding :=
  congrArg (fun e => (e.1, e.2.1)) same

theorem transfer_of_engaged (same : t.engaged = s.engaged) : t.transfer = s.transfer :=
  congrArg (fun e => e.2.2) same

/-- Registers whose writes reach the token, the run in progress or the open transfer. -/
def engaging : List Sink := [.control, .writeData, .token, .softReset, .steps]

theorem engaged_writeSink {r : Sink} (hr : r ∉ engaging) (value : UInt64) (s : State) :
    (s.writeSink r value).engaged = s.engaged := by
  have hdebug (t : State) (ht : t.engaged = s.engaged) :=
    debug_keeps (P := fun u => u.engaged = s.engaged) rfl ht
  cases r with
  | control | writeData | token | softReset | steps => exact absurd (by decide) hr
  | primeSize => exact setSize_keeps (P := fun u => u.engaged = s.engaged) (fun _ _ => rfl) _
  | blinding => exact setBlinding_keeps (P := fun u => u.engaged = s.engaged) (fun _ _ => rfl) _
  | shuffle => exact setShuffle_keeps (P := fun u => u.engaged = s.engaged) (fun _ _ => rfl) _
  | r0Null | r1Null | zremask | irq | errorAck | smallScalar => rfl
  | halt =>
    exact hdebug _ (writeDebug_halt_keeps (P := fun u => u.engaged = s.engaged) (fun _ => rfl) _)
  | _ => exact hdebug _ rfl

/-! ### Starting and going on -/

/-- A control word that starts a run: the engine is at rest, with a point of the curve in R1. -/
structure StartsOn (s : State) (word : UInt32) : Prop where
  word : Multiplies word
  resting : s.multiplying = false
  point : s.curve.contains s.pointR1 = true

/-- An access that starts a run. -/
def Starts (s : State) (request : Request) : Prop := request.Commands s.StartsOn

/-- An access that goes on with a run: with the one that it starts, or with the one in progress,
which it steps or resumes. -/
inductive Executes (s : State) (request : Request) : LadderRun → Prop
  | start (h : s.Starts request) : s.Executes request (.start s.begun.inputs)
  | goOn {run : LadderRun} (h : request.Writes .steps) (hrun : s.sequencer.run = some run) :
    s.Executes request run

/-- A control word that starts no run. -/
theorem holding_control {word : UInt32} (h : ¬s.StartsOn word) :
    (s.control word).holding = s.holding := by
  cases hresting : s.multiplying with
  | true =>
    rw [State.control, hresting, if_pos rfl]
    rfl
  | false =>
    by_cases hwrite : Control.writeNumber.test word = true
    · simp only [State.control, ControlField.agrees, hresting, hwrite]
      exact holding_openWrite s.occupy _ _
    by_cases hread : Control.readNumber.test word = true
    · simp only [State.control, ControlField.agrees, hresting, hwrite, hread]
      exact holding_openRead s.occupy _ _
    rw [control_begun hresting hwrite hread]
    split
    · rename_i hmultiply
      have hoff : s.begun.curve.contains s.begun.pointR1 = false := Bool.eq_false_iff.mpr fun hpoint =>
        h ⟨⟨not_or.mpr ⟨hwrite, hread⟩, hmultiply⟩, hresting, hpoint⟩
      rw [startMultiplication_refused hoff]
      rfl
    · exact holding_operate s.begun word

/-- The result of a run is in R1, under a mask. -/
structure Receives (s : State) (result : Point) (mask : Nat) : Prop where
  x : s.numbers.get .xR1 = result.coords.1 ^^^ mask
  y : s.numbers.get .yR1 = result.coords.2 ^^^ mask
  null : s.r1Null = result.isInfinity

/-- Where a stretch of a run leaves an engine with this token and this mask: halted with the
result to come, or at rest with the result in R1. -/
inductive Brought (token : Option Nat) (mask : Nat) (result : Point) (t : State) : Prop
  | halted {run : LadderRun} (hrun : t.sequencer.run = some run) (hresult : run.result = result)
    (htoken : t.token = token)
  | delivered (hrun : t.sequencer.run = none) (htoken : t.token = none)
    (hreceives : t.Receives result mask)

theorem brought_finish {run : LadderRun} (hrun : s.sequencer.run = some run) :
    s.finish.Brought s.token s.mask run.result := by
  have hended : s.finish.sequencer.run = none := by
    simpa [multiplying] using s.multiplying_finish
  have hleft : s.finish.outcome = _ := outcome_finish hrun
  refine .delivered hended (congrArg Outcome.token hleft) ⟨?_, ?_, ?_⟩
  · exact congrArg (fun o => o.numbers.get .xR1) hleft
  · exact congrArg (fun o => o.numbers.get .yR1) hleft
  · exact congrArg Outcome.r1Null hleft

/-- A stretch of a run halts it with the same token, or delivers its result. -/
theorem brought_walk {passed : List Position} {result : Point}
    (hrun : ∃ run, s.sequencer.run = some run ∧ run.result = result) (budget : Option Nat)
    (pending : List Position) :
    (s.walk passed result budget pending).Brought s.token s.mask result := by
  induction pending generalizing s passed budget with
  | nil =>
    obtain ⟨run, hsome, rfl⟩ := hrun
    exact brought_finish hsome
  | cons p rest ih =>
    simp only [State.walk]
    split
    · exact .halted (run_raise _ _) rfl rfl
    · exact ih (s := s.arrive ⟨p :: passed, rest, result⟩ p) ⟨_, rfl, rfl⟩ _

theorem brought_step {run : LadderRun} (hrun : s.sequencer.run = some run) (word : UInt32) :
    (s.step word).Brought s.token s.mask run.result := by
  rcases s.step_cases word with hstep | ⟨-, event, budget, -, hstep⟩
  · rw [hstep]
    exact .halted hrun rfl rfl
  · have hreleased : (s.released event).sequencer.run = some run := (run_raise _ _).trans hrun
    rw [hstep, proceed_run hreleased]
    exact brought_walk (s := s.released event) ⟨run, hreleased, rfl⟩ _ _

theorem StartsOn.brought {word : UInt32} (h : s.StartsOn word) (hidle : s.sequencer.state = .idle) :
    (s.control word).Brought s.token s.mask (LadderRun.start s.begun.inputs).result := by
  rw [control_multiplies h.word h.resting, startMultiplication_walk (s := s.begun) h.point hidle]
  exact brought_walk (s := s.begun.launched) ⟨_, rfl, rfl⟩ _ _

/-- A step of an engine that executes no run. -/
theorem holding_step (hs : s.Orderly) (hrun : s.sequencer.run = none) (word : UInt32) :
    (s.step word).holding = s.holding := by
  rcases s.step_cases word with hstep | ⟨hhalted, -⟩
  · rw [hstep]
  · have hsome := hs.sequencer.halted_iff.mp hhalted
    rw [hrun] at hsome
    cases hsome

/-! ### One access -/

theorem serve_write (s : State) (size : AccessSize) (r : Sink) (value : UInt64) :
    s.serve (.write size r.offset value) = s.writeSink r (onBus size value) := by
  simp only [serve, State.write, Sink.ofOffset?_offset]

/-- A debug engine is stepped, and any other left alone. -/
theorem writeSink_steps_cases (s : State) (value : UInt64) :
    s.writeSink .steps value = s.step value.toUInt32 ∨ s.writeSink .steps value = s :=
  debug_keeps (P := fun t => t = s.step value.toUInt32 ∨ t = s) (.inr rfl) (.inl rfl)

/-- An access that writes no register is a read, or changes nothing. -/
theorem serve_forms (s : State) (request : Request) :
    (∃ r, s.serve request = (s.readSource r).2) ∨ s.serve request = s ∨
      ∃ (size : AccessSize) (r : Sink) (value : UInt64), request = .write size r.offset value := by
  cases request with
  | read size offset =>
    simp only [serve, State.read]
    split
    · exact .inr (.inl rfl)
    · exact .inl ⟨_, rfl⟩
  | write size offset value =>
    cases hsink : Sink.ofOffset? offset with
    | some r => exact .inr (.inr ⟨size, r, value, by rw [Sink.offset_of_ofOffset? hsink]⟩)
    | none =>
      refine .inr (.inl ?_)
      simp only [serve, State.write, hsink]
      split
      · rfl
      · rfl

theorem holding_token (h : request.Writes .token) (s : State) :
    (s.serve request).holding = (some (s.draw s.size .axi).1, s.sequencer.run) := by
  cases request with
  | read => exact h.elim
  | write size offset value =>
    obtain rfl : offset = Sink.token.offset := h
    rw [serve_write]
    rfl

theorem holding_softReset (h : request.Writes .softReset) (s : State) :
    (s.serve request).holding = (none, none) := by
  cases request with
  | read => exact h.elim
  | write size offset value =>
    obtain rfl : offset = Sink.softReset.offset := h
    rw [serve_write]
    rfl

/-- Going on with a run halts it with the same token, or delivers its result. -/
theorem Executes.brought {run : LadderRun} (h : s.Executes request run) (hs : s.Orderly) :
    (s.serve request).Brought s.token s.mask run.result := by
  cases request with
  | read =>
    rcases h with h | ⟨h, -⟩
    · exact h.elim
    · exact h.elim
  | write size offset value =>
    rcases h with ⟨rfl, h⟩ | ⟨hoffset, hrun⟩
    · have hidle := (hs.sequencer.idle_or_halted.resolve_right fun ⟨_, hrun⟩ =>
        Bool.false_ne_true (h.resting.symm.trans hrun)).1
      rw [serve_write]
      exact h.brought hidle
    · obtain rfl : offset = Sink.steps.offset := hoffset
      rw [serve_write]
      rcases s.writeSink_steps_cases (onBus size value) with hsteps | hsteps
      · rw [hsteps]
        exact brought_step hrun _
      · rw [hsteps]
        exact .halted hrun rfl rfl

/-- **What an access can do.** It generates a token, resets the engine, goes on with a run, or
leaves the token and the run in progress as they are. -/
theorem serve_cases (hs : s.Orderly) (request : Request) :
    request.Writes .token ∨ request.Writes .softReset ∨ (∃ run, s.Executes request run) ∨
      (s.serve request).holding = s.holding := by
  rcases s.serve_forms request with ⟨r, hserve⟩ | hserve | ⟨size, r, value, rfl⟩
  · rw [hserve]
    exact .inr (.inr (.inr (s.holding_readSource r)))
  · rw [hserve]
    exact .inr (.inr (.inr rfl))
  · rw [serve_write]
    cases r with
    | token => exact .inl rfl
    | softReset => exact .inr (.inl rfl)
    | control =>
      refine .inr (.inr ?_)
      by_cases hstarts : s.StartsOn (onBus size value).toUInt32
      · exact .inl ⟨_, .start ⟨rfl, hstarts⟩⟩
      · exact .inr (holding_control hstarts)
    | steps =>
      refine .inr (.inr ?_)
      cases hrun : s.sequencer.run with
      | some run => exact .inl ⟨run, .goOn rfl hrun⟩
      | none =>
        right
        rcases s.writeSink_steps_cases (onBus size value) with hsteps | hsteps
        · rw [hsteps, holding_step hs hrun]
        · rw [hsteps]
    | writeData => exact .inr (.inr (.inr (s.holding_writeData _)))
    | _ => exact .inr (.inr (.inr (holding_of_engaged (engaged_writeSink (by decide) _ s))))

/-! ### Reading the token -/

/-- A control word that opens a transfer of the token. -/
structure AsksToken (word : UInt32) : Prop where
  write : Control.writeNumber.test word = false
  read : Control.readNumber.test word = true
  token : Control.readToken.test word = true

/-- No transfer is open, or one that yields zeros. -/
def Silent (s : State) : Prop := s.transfer = none ∨ ∃ index, s.transfer = some (.read 0 index)

theorem Silent.frame (h : s.Silent) (same : t.transfer = s.transfer) : t.Silent := by
  rw [Silent, same]
  exact h

/-- Without a token, a transfer of it yields zeros; during a multiplication none is opened. -/
theorem silent_control (hs : s.Orderly) (htoken : s.token = none) {word : UInt32}
    (h : AsksToken word) : (s.control word).Silent := by
  cases hresting : s.multiplying with
  | true =>
    rw [State.control, hresting, if_pos rfl]
    exact .inl (hs.closed hresting)
  | false =>
    simp only [State.control, ControlField.agrees, hresting, h.write, h.read, State.openRead,
      h.token, occupy, htoken]
    exact .inr ⟨0, rfl⟩

theorem silent_serve (hs : s.Orderly) (htoken : s.token = none)
    (h : request.Commands AsksToken) : (s.serve request).Silent := by
  cases request with
  | read => exact h.elim
  | write size offset value =>
    obtain ⟨rfl, hword⟩ := h
    rw [serve_write]
    exact silent_control hs htoken hword

theorem transfer_step (s : State) (word : UInt32) : (s.step word).transfer = s.transfer :=
  step_keeps (P := fun t => t.transfer = s.transfer) word fun _ _ _ _ _ _ _ _ => rfl

theorem Silent.readSource (h : s.Silent) (r : Source) : (s.readSource r).2.Silent := by
  cases r with
  | readData =>
    show s.readData.2.Silent
    rcases h with hnone | ⟨index, hread⟩
    · simp only [State.readData, hnone]
      exact .inl hnone
    · simp only [State.readData, hread]
      exact .inr ⟨index + 1, rfl⟩
  | _ => exact h.frame rfl

theorem Silent.writeData (h : s.Silent) (value : UInt64) : (s.writeData value).Silent := by
  rcases h with hnone | ⟨index, hread⟩
  · simp only [State.writeData, hnone]
    exact .inl hnone
  · simp only [State.writeData, hread]
    exact .inr ⟨index, hread⟩

/-- Only a control word opens another transfer. -/
theorem Silent.serve (h : s.Silent) (hcontrol : ¬request.Writes .control) :
    (s.serve request).Silent := by
  rcases s.serve_forms request with ⟨r, hserve⟩ | hserve | ⟨size, r, value, rfl⟩
  · rw [hserve]
    exact h.readSource r
  · rwa [hserve]
  · rw [serve_write]
    cases r with
    | control => exact absurd rfl hcontrol
    | writeData => exact h.writeData _
    | token => exact h.frame rfl
    | softReset => exact .inl rfl
    | steps =>
      rcases s.writeSink_steps_cases (onBus size value) with hsteps | hsteps
      · rw [hsteps]
        exact h.frame (s.transfer_step _)
      · rwa [hsteps]
    | _ => exact h.frame (transfer_of_engaged (engaged_writeSink (by decide) _ s))

theorem onBus_zero (size : AccessSize) : onBus size 0 = 0 := by
  cases size <;> rfl

/-- Zeros are read. -/
theorem Silent.read (h : s.Silent) (size : AccessSize) :
    (s.read size Source.readData.offset).1 = .ok 0 := by
  have hzero : s.readData.1 = 0 := by
    rcases h with hnone | ⟨index, hread⟩
    · simp only [State.readData, hnone]
    · simp only [State.readData, hread, Nat.zero_shiftRight, wordOf]
      split
      · rfl
      · rfl
  rw [State.read, Source.ofOffset?_offset]
  show Except.ok (onBus size s.readData.1) = _
  rw [hzero, onBus_zero]

end State

end CurveEngine.Device
