import CurveEngine.Proofs.Releasing

/-! The debug machine between two accesses.

That a multiplication is in progress shows in five places: in the state of the debug
machine, in the run, in the last opcode executed, in the breakpoint of a halt, and in that
no transfer is open. They change one after the other while a run is executed (`Underway`),
but an access ends only when all of them agree again (`Orderly`). So every reachable state
is orderly (`Reachable.orderly`), no event is ever lost on the debug machine, and the two
registers that show a multiplication never contradict each other (`run_halt_machine`). -/
namespace CurveEngine.Device
open Register

namespace Sequencer

/-- A run is being executed. -/
structure Underway (q : Sequencer) : Prop where
  state : q.state = .running
  run : q.run.isSome = true
  hit : q.hit = none
  stray : q.stray = 0

/-- The parts of the debug machine agree with each other. -/
structure Orderly (q : Sequencer) : Prop where
  steady : q.Steady
  last : q.last = q.run.bind LadderRun.current?
  arrived : ∀ run, q.run = some run → run.current?.isSome = true
  hit : ∀ id, q.hit = some id → q.run.isSome = true ∧ id < breakpointCount
  stray : q.stray = 0

variable {q : Sequencer}

theorem orderly_idle : Sequencer.idle.Orderly := ⟨rfl, rfl, nofun, nofun, rfl⟩

/-- The machine is idle without a run, or halted with one. -/
theorem Orderly.idle_or_halted (h : q.Orderly) :
    q.state = .idle ∧ q.run.isSome = false ∨ q.state = .halted ∧ q.run.isSome = true := by
  have hsteady := h.steady
  rw [Steady] at hsteady
  cases hrun : q.run.isSome with
  | false =>
    rw [hrun] at hsteady
    exact .inl ⟨hsteady, rfl⟩
  | true =>
    rw [hrun] at hsteady
    exact .inr ⟨hsteady, rfl⟩

theorem Orderly.halted_iff (h : q.Orderly) : q.state = .halted ↔ q.run.isSome = true := by
  rcases h.idle_or_halted with ⟨hstate, hrun⟩ | ⟨hstate, hrun⟩
  · rw [hstate, hrun]
    exact iff_of_false nofun Bool.false_ne_true
  · exact iff_of_true hstate hrun

theorem Orderly.isSome_last (h : q.Orderly) : q.last.isSome = q.run.isSome := by
  rw [h.last]
  cases hrun : q.run with
  | none => rfl
  | some run => exact h.arrived run hrun

/-- What a halted machine is told to go on with has a transition. -/
theorem Orderly.release (h : q.Orderly) (hhalted : q.state = .halted) {event : RunEvent}
    (hevent : RunState.next? .halted event = some .running) :
    ({ q.raise event with hit := none } : Sequencer).Underway := by
  simp only [raise, hhalted, hevent]
  exact ⟨rfl, h.halted_iff.mp hhalted, rfl, h.stray⟩

/-- What is armed changes nothing for now. -/
theorem Orderly.arm (h : q.Orderly) (pending : Bool)
    (breakpoints : Vector (Option Breakpoint) breakpointCount) :
    ({ q with haltPending := pending, breakpoints } : Sequencer).Orderly :=
  ⟨h.steady, h.last, h.arrived, h.hit, h.stray⟩

end Sequencer

namespace State
variable {s : State}

/-- The debug machine is in order, and no transfer is open during a multiplication. -/
structure Orderly (s : State) : Prop where
  sequencer : s.sequencer.Orderly
  closed : s.multiplying = true → s.transfer = none

theorem Orderly.frame {t : State} (h : s.Orderly)
    (same : (t.sequencer, t.transfer) = (s.sequencer, s.transfer)) : t.Orderly := by
  obtain ⟨hsequencer, htransfer⟩ := Prod.mk.inj same
  refine ⟨hsequencer ▸ h.sequencer, fun hmultiplying => htransfer.trans (h.closed ?_)⟩
  rwa [multiplying, ← hsequencer]

/-- At rest, transfers come and go. -/
theorem Orderly.resting {t : State} (h : s.Orderly) (hresting : s.multiplying = false)
    (same : t.sequencer = s.sequencer) : t.Orderly := by
  refine ⟨same ▸ h.sequencer, fun hmultiplying => ?_⟩
  rw [multiplying, same] at hmultiplying
  exact absurd (hresting.symm.trans hmultiplying) Bool.false_ne_true

/-- A transfer that is open is open at rest. -/
theorem Orderly.resting_of_transfer (h : s.Orderly) (hopen : s.transfer ≠ none) :
    s.multiplying = false :=
  Bool.eq_false_iff.mpr fun hmultiplying => hopen (h.closed hmultiplying)

/-! ### Running a multiplication -/

theorem orderly_finish (h : s.sequencer.Underway) : s.finish.Orderly := by
  obtain ⟨run, hrun⟩ := Option.isSome_iff_exists.mp h.run
  simp only [finish, hrun, Sequencer.raise, h.state, RunState.next?]
  refine ⟨⟨rfl, rfl, ?_, fun id hid => ?_, h.stray⟩, ?_⟩
  · rintro _ ⟨⟩
  · cases h.hit.symm.trans hid
  · rintro ⟨⟩

/-- A run that halts has arrived somewhere, if need be at a breakpoint that exists. -/
theorem orderly_halt (h : s.sequencer.Underway) (hclosed : s.transfer = none)
    {run : LadderRun} {p : Position} (hcurrent : run.current? = some p) :
    ((s.arrive run p).halt ((s.arrive run p).sequencer.breakpointAt? p)).Orderly := by
  have hstate : (s.arrive run p).sequencer.state = .running := h.state
  simp only [halt, Sequencer.raise, hstate, RunState.next?]
  refine ⟨⟨rfl, hcurrent.symm, ?_, fun id hid => ⟨rfl, ?_⟩, h.stray⟩, fun _ => hclosed⟩
  · rintro _ ⟨⟩
    rw [hcurrent]
    rfl
  · exact (Sequencer.armed_of_breakpointAt? hid).1

/-- However far a run goes, order is restored when it stops. -/
theorem orderly_walk (h : s.sequencer.Underway) (hclosed : s.transfer = none)
    (passed : List Position) (result : Point) (budget : Option Nat) (pending : List Position) :
    (s.walk passed result budget pending).Orderly := by
  induction pending generalizing s passed budget with
  | nil => exact orderly_finish h
  | cons p rest ih =>
    simp only [State.walk]
    split
    · exact orderly_halt h hclosed rfl
    · exact ih (s := s.arrive ⟨p :: passed, rest, result⟩ p) ⟨h.state, rfl, h.hit, h.stray⟩ hclosed _ _

theorem orderly_proceed (h : s.sequencer.Underway) (hclosed : s.transfer = none)
    (budget : Option Nat) : (s.proceed budget).Orderly := by
  obtain ⟨run, hrun⟩ := Option.isSome_iff_exists.mp h.run
  rw [proceed_run hrun]
  exact orderly_walk h hclosed _ _ _ _

theorem Orderly.startMultiplication (h : s.Orderly) (hresting : s.multiplying = false)
    (hclosed : s.transfer = none) : s.startMultiplication.Orderly := by
  by_cases hpoint : s.curve.contains s.pointR1 = true
  · have hlaunched : s.launched.sequencer.Underway := ⟨rfl, rfl, rfl, h.sequencer.stray⟩
    have hidle : s.sequencer.state = .idle :=
      (h.sequencer.idle_or_halted.resolve_right fun ⟨_, hrun⟩ =>
        Bool.false_ne_true (hresting.symm.trans hrun)).1
    rw [startMultiplication_walk hpoint hidle]
    exact orderly_walk hlaunched hclosed _ _ _ _
  · rw [startMultiplication_refused (Bool.eq_false_iff.mpr hpoint)]
    exact h.frame rfl

theorem Orderly.step (h : s.Orderly) (word : UInt32) : (s.step word).Orderly := by
  rcases s.step_cases word with hstep | ⟨hhalted, event, budget, hevent, hstep⟩
  · rwa [hstep]
  · rw [hstep]
    exact orderly_proceed (s := s.released event) (h.sequencer.release hhalted hevent)
      (h.closed (h.sequencer.halted_iff.mp hhalted)) budget

/-! ### Accesses -/

theorem sequencer_operate (s : State) (word : UInt32) :
    (s.operate word).sequencer = s.sequencer :=
  operate_keeps (P := fun t => t.sequencer = s.sequencer) (fun _ _ _ _ => rfl) word

theorem Orderly.control (h : s.Orderly) (word : UInt32) : (s.control word).Orderly := by
  cases hresting : s.multiplying with
  | true =>
    rw [State.control, hresting, if_pos rfl]
    exact h.frame rfl
  | false =>
    by_cases hopens : OpensTransfer word
    · exact h.resting hresting (congrArg Prod.fst (s.core_control hopens))
    obtain ⟨hwrite, hread⟩ := not_or.mp hopens
    have hbegun : s.begun.Orderly := h.resting hresting rfl
    rw [control_begun hresting hwrite hread]
    split
    · exact hbegun.startMultiplication hresting rfl
    · exact hbegun.resting hresting (sequencer_operate _ _)

theorem Orderly.writeData (h : s.Orderly) (value : UInt64) : (s.writeData value).Orderly := by
  cases htransfer : s.transfer with
  | none =>
    have hrefused : s.writeData value = (s.latch .writeRefused).occupy := by
      simp only [State.writeData, htransfer]
    rw [hrefused]
    exact h.frame rfl
  | some transfer =>
    refine h.resting (h.resting_of_transfer ?_) (congrArg Prod.fst (s.core_writeData value))
    rw [htransfer]
    exact Option.some_ne_none transfer

theorem Orderly.readData (h : s.Orderly) : s.readData.2.Orderly := by
  unfold State.readData
  split
  · rename_i htransfer
    refine h.resting (h.resting_of_transfer ?_) rfl
    rw [htransfer]
    exact Option.some_ne_none _
  · exact h.frame rfl

theorem Orderly.setSize (h : s.Orderly) (size : Nat) : (s.setSize size).Orderly :=
  setSize_keeps (fun _ _ => h.frame rfl) size

theorem Orderly.setBlinding (h : s.Orderly) (word : UInt32) : (s.setBlinding word).Orderly :=
  setBlinding_keeps (fun _ _ => h.frame rfl) word

theorem Orderly.setShuffle (h : s.Orderly) (enable : Bool) : (s.setShuffle enable).Orderly :=
  setShuffle_keeps (fun _ _ => h.frame rfl) enable

/-- A reset throws a multiplication away with all that belongs to it. -/
theorem Orderly.softReset (h : s.Orderly) : s.softReset.Orderly :=
  ⟨⟨rfl, rfl, nofun, nofun, h.sequencer.stray⟩, nofun⟩

theorem Orderly.writeDebug (h : s.Orderly) (r : Sink) (word : UInt32) :
    (s.writeDebug r word).Orderly := by
  unfold State.writeDebug
  cases r with
  | halt => exact writeDebug_halt_keeps (fun _ => ⟨h.sequencer.arm _ _, h.closed⟩) word
  | breakpoint => exact ⟨h.sequencer.arm _ _, h.closed⟩
  | steps => exact h.step word
  | triggerArm | triggerUp | triggerDown | opcodeAddress | opcode | trngControl | trngConfig
  | limbWriteAddress | limb | limbReadAddress | xyShuffle | axiMask | tokenMask
  | resetCounters => exact h.frame rfl
  | _ => exact h

theorem Orderly.writeSink (h : s.Orderly) (r : Sink) (value : UInt64) :
    (s.writeSink r value).Orderly := by
  have hdebug := debug_keeps h (h.writeDebug r value.toUInt32)
  unfold State.writeSink
  cases r with
  | control => exact h.control _
  | writeData => exact h.writeData value
  | primeSize => exact (h.setSize _).frame rfl
  | blinding => exact (h.setBlinding _).frame rfl
  | shuffle => exact (h.setShuffle _).frame rfl
  | softReset => exact h.softReset
  | r0Null | r1Null | zremask | token | irq | errorAck | smallScalar => exact h.frame rfl
  | _ => exact hdebug

theorem Orderly.readSource (h : s.Orderly) (r : Source) : (s.readSource r).2.Orderly := by
  cases r with
  | readData => exact h.readData
  | status | rawFifoStatus => exact h.frame rfl
  | _ => exact h

end State

theorem Reachable.orderly {s : State} (h : Reachable s) : s.Orderly :=
  h.invariant (fun _ _ => ⟨Sequencer.orderly_idle, nofun⟩) (fun r _ _ hs => hs.readSource r)
    fun r value _ _ hs => hs.writeSink r value

namespace State

/-- The status register shows a multiplication in progress. -/
theorem read_status (size : AccessSize) (s : State) :
    s.read size Source.status.offset =
      (.ok (onBus size s.readStatus.1.toUInt64), s.readStatus.2) := by
  rw [read, Source.ofOffset?_offset]
  rfl

theorem read_debugStatus (size : AccessSize) {s : State} (hdebug : s.params.debug = true) :
    s.read size Source.debugStatus.offset =
      (.ok (onBus size s.sequencer.statusWord.toUInt64), s) := by
  simp only [read, Source.ofOffset?_offset, readSource_of_debug hdebug .debugStatus rfl]
  rfl

end State

/-- **The debug machine is never out of step.** Between two accesses it is idle or halted:
halted during a multiplication, at the position that the run has come to and with no
transfer open, and idle otherwise. A breakpoint is hit only by a halt, every event has had
a transition, and what the status registers show is so. -/
theorem run_halt_machine (s : State) (hs : Reachable s) :
    (s.sequencer.state = .idle ∨ s.sequencer.state = .halted) ∧
      (s.sequencer.state = .halted ↔ s.sequencer.run.isSome = true) ∧
      (s.sequencer.run.isSome = true ↔ s.sequencer.last.isSome = true) ∧
      (∀ run, s.sequencer.run = some run →
        s.sequencer.last = run.current? ∧ s.transfer = none) ∧
      (∀ id, s.sequencer.hit = some id → s.sequencer.state = .halted ∧ id < 4) ∧
      (∀ size, ∃ value t, s.read size Source.status.offset = (.ok (State.onBus size value), t) ∧
        Status.multiplying.test value.toUInt32 = s.multiplying) ∧
      (s.params.debug = true → ∀ size, ∃ value t,
        s.read size Source.debugStatus.offset = (.ok (State.onBus size value), t) ∧
          DebugStatus.halted.test value.toUInt32 = s.multiplying) ∧
      s.sequencer.stray = 0 := by
  have horder := hs.orderly
  have hhalted := horder.sequencer.halted_iff
  refine ⟨?_, hhalted, ?_, fun run hrun => ⟨?_, ?_⟩, fun id hid => ?_, fun size => ?_,
    fun hdebug size => ?_, horder.sequencer.stray⟩
  · exact horder.sequencer.idle_or_halted.imp And.left And.left
  · rw [horder.sequencer.isSome_last]
  · rw [horder.sequencer.last, hrun]
    rfl
  · refine horder.closed ?_
    rw [State.multiplying, hrun]
    rfl
  · obtain ⟨hrun, hbound⟩ := horder.sequencer.hit id hid
    exact ⟨hhalted.mpr hrun, hbound⟩
  · refine ⟨_, _, s.read_status size, ?_⟩
    rw [UInt32.toUInt32_toUInt64]
    exact s.multiplying_readStatus
  · refine ⟨_, _, State.read_debugStatus size hdebug, ?_⟩
    rw [UInt32.toUInt32_toUInt64, Sequencer.halted_statusWord, Sequencer.isHalted, Bool.eq_iff_iff,
      beq_iff_eq]
    exact hhalted

/-- An engine on which the last of the breakpoints has halted a multiplication of infinity. -/
def caught97 : State :=
  Driver.curve97.serveAll [
    .write .word Sink.r1Null.offset 1,
    .write .word Sink.breakpoint.offset
      (Driver.breakpointWord 3 (UInt32.ofNat Microcode.Address.entry) 0 .idle).toUInt64,
    .write .word Sink.control.offset (Command.operate .multiply).word.toUInt64]

theorem reachable_caught97 : Reachable caught97 := Driver.reachable_curve97.serveAll _

/-- The halted engine is at the position that its last breakpoint covers. -/
theorem run_halt_machine_caught97 :
    caught97.sequencer.hit = some 3 ∧ caught97.sequencer.state = .halted ∧
      caught97.sequencer.last.isSome = true ∧ caught97.sequencer.stray = 0 := by
  obtain ⟨-, hhalted, hlast, -, hhit, -, -, hstray⟩ := run_halt_machine caught97 reachable_caught97
  have hbreakpoint : caught97.sequencer.hit = some 3 := by decide +kernel
  have hstate := (hhit 3 hbreakpoint).1
  exact ⟨hbreakpoint, hstate, hlast.mp (hhalted.mp hstate), hstray⟩

end CurveEngine.Device
