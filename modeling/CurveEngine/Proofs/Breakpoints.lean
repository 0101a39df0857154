import CurveEngine.Proofs.Product
import CurveEngine.Proofs.Tracing

/-! The breakpoint of a traced multiplication.

A multiplication does not depend on the breakpoints, except for where it halts
(`launched_withBreakpoints`). The breakpoint that a trace arms on its entry stops the run
there (`walk_entry`), and when it has been removed nothing stops the run any more
(`does_release`), so that a multiplication that has been halted ends as one that has
not. -/
namespace CurveEngine
open Register Procedure Device Operation

namespace Device

namespace Sequencer
variable {q : Sequencer}

/-- No breakpoint is armed, except perhaps the first. -/
def UnarmedBeyond (q : Sequencer) : Prop :=
  q.breakpoints.setIfInBounds 0 none = Vector.replicate breakpointCount none

theorem Unarmed.beyond (h : q.Unarmed) : q.UnarmedBeyond := by
  rw [UnarmedBeyond, h]
  rfl

/-- Where the first breakpoint is armed. -/
theorem breakpoints_setBreakpoint (q : Sequencer) (address : UInt32) :
    ∃ b : Breakpoint, b.address = address &&& Register.Breakpoint.address.mask ∧ b.state = 0 ∧
      (q.setBreakpoint
        (Driver.breakpointWord Driver.traceBreakpoint address 0 .idle)).breakpoints =
        q.breakpoints.setIfInBounds 0 (some b) := by
  have hid : Register.Breakpoint.id.get
      (Driver.breakpointWord Driver.traceBreakpoint address 0 .idle) = 0 := by
    simp (disch := decide) only [Driver.breakpointWord, BitField.get_set_of_apart, BitField.get_set]
    rfl
  have henable : Register.Breakpoint.enable.test
      (Driver.breakpointWord Driver.traceBreakpoint address 0 .idle) = true := by
    simp (disch := decide) only [Driver.breakpointWord, BitField.test_set_of_apart,
      BitField.test_put]
  refine ⟨⟨_, _, _⟩, ?_, ?_,
    by simp only [setBreakpoint, BreakpointField.agrees, henable, if_true, hid]; rfl⟩
  · simp (disch := decide) only [Driver.breakpointWord, BitField.get_set_of_apart, BitField.get_set]
  · simp (disch := decide) only [Driver.breakpointWord, BitField.get_set]
    rfl

theorem UnarmedBeyond.setBreakpoint (h : q.UnarmedBeyond) (address : UInt32) :
    (q.setBreakpoint
      (Driver.breakpointWord Driver.traceBreakpoint address 0 .idle)).UnarmedBeyond := by
  obtain ⟨b, -, -, harmed⟩ := q.breakpoints_setBreakpoint address
  rw [UnarmedBeyond, harmed, Vector.setIfInBounds_setIfInBounds]
  exact h

/-- The first breakpoint stops at every opcode it covers. -/
theorem breakpointAt?_first {b : Breakpoint} {p : Position}
    (hfirst : q.breakpoints[0]? = some (some b)) (hcovers : b.covers p = true) :
    q.breakpointAt? p = some 0 := by
  rw [breakpointAt?, show List.range breakpointCount = [0, 1, 2, 3] from rfl,
    List.find?_cons_of_pos]
  simp only [hfirst]
  exact hcovers

end Sequencer

namespace State
variable {s : State} {bs : Vector (Option Breakpoint) breakpointCount}

/-- A state with other breakpoints. -/
def withBreakpoints (bs : Vector (Option Breakpoint) breakpointCount) (s : State) : State :=
  { s with sequencer := { s.sequencer with breakpoints := bs } }

/-- A state without breakpoints. -/
def disarmed (s : State) : State := s.withBreakpoints (Vector.replicate breakpointCount none)

theorem disarmed_eq (h : s.sequencer.Unarmed) : s.disarmed = s := by
  have hbreakpoints : s.sequencer.breakpoints = Vector.replicate breakpointCount none := h
  rw [disarmed, ← hbreakpoints]
  rfl

/-- A state with another debug machine. -/
def withSequencer (q : Sequencer) (s : State) : State := { s with sequencer := q }

theorem effectiveScalar_withSequencer (s : State) (q : Sequencer) :
    (s.withSequencer q).effectiveScalar =
      (s.effectiveScalar.1, s.effectiveScalar.2.withSequencer q) := by
  have hsmall : (s.withSequencer q).smallScalar = s.smallScalar := rfl
  have hblinding : (s.withSequencer q).blinding = s.blinding := rfl
  unfold State.effectiveScalar
  rw [hsmall, hblinding]
  cases s.smallScalar with
  | some bits => rfl
  | none =>
    dsimp only
    split
    · rfl
    · rfl

theorem drawRandoms_withSequencer (s : State) (q : Sequencer) (alpha : Option Nat) :
    (s.withSequencer q).drawRandoms alpha =
      ((s.drawRandoms alpha).1, (s.drawRandoms alpha).2.withSequencer q) := by
  have hbelow (u : State) : (u.withSequencer q).drawBelowP .efp =
      ((u.drawBelowP .efp).1, (u.drawBelowP .efp).2.withSequencer q) := rfl
  have hdraw (on : Bool) (bits : Nat) (channel : Channel) (u : State) :
      (if on then ((u.withSequencer q).draw bits channel).2 else u.withSequencer q) =
        (if on then (u.draw bits channel).2 else u).withSequencer q := by
    cases on <;> rfl
  simp only [drawRandoms, hbelow]
  generalize (((s.drawBelowP .efp).2.drawBelowP .efp).2.drawBelowP .efp).2 = u
  have hshuffle : (u.withSequencer q).shuffle = u.shuffle := rfl
  have hwidth : (u.withSequencer q).params = u.params := rfl
  rw [hshuffle, hwidth, hdraw]
  generalize (if u.shuffle then (u.draw u.params.shuffleWidth .shf).2 else u) = v
  have hxy : (v.withSequencer q).xyShuffle = v.xyShuffle := rfl
  rw [hxy, hdraw]

/-- What a multiplication starts from does not depend on the debug machine. -/
theorem inputs_withSequencer (s : State) (q : Sequencer) :
    (s.withSequencer q).inputs = s.inputs := by
  simp only [inputs, effectiveScalar_withSequencer, drawRandoms_withSequencer]
  rfl

theorem inputs_withBreakpoints (s : State) : (s.withBreakpoints bs).inputs = s.inputs :=
  s.inputs_withSequencer _

theorem launched_withBreakpoints (s : State) :
    (s.withBreakpoints bs).launched = s.launched.withBreakpoints bs := by
  have htrng (q : Sequencer) : (s.withSequencer q).trngAfter = s.trngAfter := by
    simp only [trngAfter, effectiveScalar_withSequencer, drawRandoms_withSequencer]
    rfl
  simp only [launched, inputs_withBreakpoints]
  rw [show (s.withBreakpoints bs).trngAfter = s.trngAfter from htrng _]
  rfl

/-- A state with the first breakpoint armed at an address. -/
def armedAt (address : UInt32) (s : State) : State :=
  { s with
    sequencer := s.sequencer.setBreakpoint
      (Driver.breakpointWord Driver.traceBreakpoint address 0 .idle) }

/-- A multiplication that has been laid out, behind a breakpoint. -/
def launchedBehind (address : UInt32) (s : State) : State := (s.armedAt address).begun.launched

theorem launchedBehind_eq (address : UInt32) (s : State) :
    s.launchedBehind address =
      s.disarmed.begun.launched.withBreakpoints (s.armedAt address).sequencer.breakpoints := by
  rw [← launched_withBreakpoints]
  rfl

theorem fp_launchedBehind (address : UInt32) (s : State) : (s.launchedBehind address).fp = s.fp :=
  calc (s.armedAt address).begun.launched.fp
    _ = (s.armedAt address).begun.fp := rfl
    _ = s.fp := rfl

theorem limbLayout_launchedBehind (address : UInt32) (s : State) :
    (s.launchedBehind address).limbLayout = s.limbLayout :=
  calc (s.armedAt address).begun.launched.limbLayout
    _ = (s.armedAt address).begun.limbLayout := rfl
    _ = s.limbLayout := rfl

/-- When the breakpoint has been removed, none is armed any more. -/
theorem launchedBehind_disarmed (h : s.sequencer.UnarmedBeyond) (address : UInt32) :
    (s.launchedBehind address).withBreakpoints
        ((s.launchedBehind address).sequencer.breakpoints.setIfInBounds 0 none) =
      s.disarmed.begun.launched := by
  have hremoved : (s.launchedBehind address).sequencer.breakpoints.setIfInBounds 0 none =
      Vector.replicate breakpointCount none := h.setBreakpoint address
  rw [hremoved, launchedBehind_eq]
  rfl

theorem haltedAt_withBreakpoints (hstate : s.sequencer.state = .running) (run : LadderRun)
    (hit : Option Nat) :
    (s.haltedAt run hit).withBreakpoints bs = (s.withBreakpoints bs).haltedAt run hit := by
  rw [haltedAt_eq hstate, haltedAt_eq (s := s.withBreakpoints bs) hstate]
  rfl

/-- Behind a breakpoint the same run is laid out. -/
theorem startMultiplication_behind {address : UInt32} (h : s.curve.contains s.pointR1 = true)
    (hidle : s.sequencer.state = .idle) :
    (s.armedAt address).begun.startMultiplication =
      walk [] (LadderRun.start s.disarmed.begun.inputs).result
        (if s.sequencer.haltPending then some 1 else none)
        (LadderRun.start s.disarmed.begun.inputs).pending
        ((s.launchedBehind address).after
          ⟨[], (LadderRun.start s.disarmed.begun.inputs).pending,
            (LadderRun.start s.disarmed.begun.inputs).result⟩) := by
  have hinputs : (s.armedAt address).begun.inputs = s.disarmed.begun.inputs :=
    (inputs_withBreakpoints s.begun).trans (inputs_withBreakpoints s.begun).symm
  have hlaid := launched_after (s.armedAt address).begun
  rw [startMultiplication_walk (s := (s.armedAt address).begun) h hidle, ← hlaid, hinputs]
  rfl

/-- The breakpoint stops a run at its first opcode. -/
theorem startMultiplication_entry {address : UInt32} {p : Position} {rest : List Position}
    (h : s.curve.contains s.pointR1 = true) (hidle : s.sequencer.state = .idle)
    (hpending : (LadderRun.start s.disarmed.begun.inputs).pending = p :: rest)
    (haddress : (address &&& Register.Breakpoint.address.mask).toNat = p.pc) :
    (s.armedAt address).begun.startMultiplication =
      (s.launchedBehind address).haltedAt
        ⟨[p], rest, (LadderRun.start s.disarmed.begun.inputs).result⟩ (some 0) := by
  obtain ⟨b, hb, hstate, harmed⟩ := s.sequencer.breakpoints_setBreakpoint address
  have hfirst : (s.launchedBehind address).sequencer.breakpoints[0]? = some (some b) := by
    show (Sequencer.setBreakpoint _ s.sequencer).breakpoints[0]? = _
    rw [harmed]
    exact Vector.getElem?_setIfInBounds_self_of_lt (by decide)
  have hcovers : b.covers p = true := by
    simp only [Breakpoint.covers, hb, hstate, haddress, beq_self_eq_true, Bool.true_or, Bool.and_self]
  rw [startMultiplication_behind h hidle, hpending]
  exact walk_covered (Sequencer.breakpointAt?_first hfirst hcovers) [] rest _ _

/-- What a multiplication leaves of a state when it goes on to its end with nothing armed. -/
structure Over (s t : State) : Prop where
  resting : t.multiplying = false
  unarmed : t.sequencer.Unarmed
  params : t.params = s.params
  errors : t.errors = s.errors

theorem over_finish (s : State) (run : LadderRun) :
    s.Over (s.disarmed.begun.launched.after run).finish where
  resting := (still_finish (s := s.disarmed.begun.launched) rfl run).2
  unarmed := rfl
  params := params_finish s.disarmed.begun.launched run
  errors := errors_finish s.disarmed.begun.launched run

theorem over_finished (s : State) : s.Over s.disarmed.begun.finished := s.over_finish _

end State

end Device

namespace Driver
variable {d : Driver} {s : State}

theorem does_writeBreakpoint (hdebug : s.params.debug = true) (word : UInt32) :
    Does State.Coherent (d.writeBreakpoint traceBreakpoint word) s ()
      { s with sequencer := s.sequencer.setBreakpoint word } := by
  have hwrite : s.writeSink .breakpoint word.toUInt64 =
      { s with sequencer := s.sequencer.setBreakpoint word } := by
    simp only [State.writeSink, hdebug, if_true, State.writeDebug, UInt32.toUInt32_toUInt64]
  rw [← hwrite]
  exact does_writeDebug hdebug (by decide) word

theorem does_setBreakpoint (hdebug : s.params.debug = true) (address : UInt32) :
    Does State.Coherent (d.setBreakpoint traceBreakpoint address 0 .idle) s ()
      (s.armedAt address) := does_writeBreakpoint hdebug _

theorem does_removeBreakpoint (hdebug : s.params.debug = true) :
    Does State.Coherent (d.removeBreakpoint traceBreakpoint) s ()
      (s.withBreakpoints (s.sequencer.breakpoints.setIfInBounds 0 none)) :=
  does_writeBreakpoint hdebug _

theorem does_resume (hdebug : s.params.debug = true) :
    Does State.Coherent d.resume s () (s.step (Steps.resume.put true 0)) := by
  rw [← writeSink_steps hdebug]
  exact does_writeDebug hdebug (by decide) _

variable {address : UInt32} {run : LadderRun} {hit : Option Nat}

/-- Without its breakpoint a halted multiplication is executed to its end. -/
theorem resumed (h : s.sequencer.UnarmedBeyond) (run : LadderRun) (hit : Option Nat) :
    (((s.launchedBehind address).haltedAt run hit).withBreakpoints
        (((s.launchedBehind address).haltedAt run hit).sequencer.breakpoints.setIfInBounds 0
          none)).step (Steps.resume.put true 0) =
      (s.disarmed.begun.launched.after ⟨run.pending.reverse ++ run.passed, [], run.result⟩).finish := by
  have hbreakpoints : ((s.launchedBehind address).haltedAt run hit).sequencer.breakpoints =
      (s.launchedBehind address).sequencer.breakpoints := by
    rw [State.haltedAt_eq rfl]
    rfl
  have hunarmed : s.disarmed.begun.launched.sequencer.Unarmed := rfl
  rw [hbreakpoints, State.haltedAt_withBreakpoints rfl, State.launchedBehind_disarmed h,
    State.resume_walk rfl rfl _ _ (by decide)]
  exact State.walk_through (fun p _ => hunarmed.breakpointAt? p) run.passed run.result

/-- A multiplication that is let go without its breakpoint finishes. -/
theorem does_resumeFinish (hdebug : s.params.debug = true) (h : s.sequencer.UnarmedBeyond) :
    Does State.Coherent d.resume
      (((s.launchedBehind address).haltedAt run hit).withBreakpoints
        (((s.launchedBehind address).haltedAt run hit).sequencer.breakpoints.setIfInBounds 0 none))
      ()
      (s.disarmed.begun.launched.after
        ⟨run.pending.reverse ++ run.passed, [], run.result⟩).finish := by
  have hresume := does_resume (d := d)
    (s := ((s.launchedBehind address).haltedAt run hit).withBreakpoints
      (((s.launchedBehind address).haltedAt run hit).sequencer.breakpoints.setIfInBounds 0 none))
    hdebug
  rwa [resumed h] at hresume

/-- A release that returns has finished the multiplication. -/
theorem release_only (hdebug : s.params.debug = true) (h : s.sequencer.UnarmedBeyond) {u v : State}
    (hu : u.Alike ((s.launchedBehind address).haltedAt run hit))
    (hreturns : Returns bus d.release u () v) :
    v.Alike (s.disarmed.begun.launched.after
      ⟨run.pending.reverse ++ run.passed, [], run.result⟩).finish := by
  simp only [release, returns_bind] at hreturns
  obtain ⟨_, x, hremove, _, y, hresume, hsettle⟩ := hreturns
  have hx := ((does_removeBreakpoint (s := (s.launchedBehind address).haltedAt run hit) hdebug).only
    u () x hu hremove).2
  have hy := ((does_resumeFinish hdebug h).only x () y hx hresume).2
  exact (settle_only hsettle).1.trans hy

theorem does_release (hdebug : s.params.debug = true) (hclear : s.errors = 0)
    (hpatient : max s.params.latency 3 < d.checks) (h : s.sequencer.UnarmedBeyond) :
    Does State.Coherent d.release ((s.launchedBehind address).haltedAt run hit) ()
      (s.disarmed.begun.launched.after
        ⟨run.pending.reverse ++ run.passed, [], run.result⟩).finish := by
  have hremove := does_removeBreakpoint (d := d)
    (s := (s.launchedBehind address).haltedAt run hit) hdebug
  have hover := s.over_finish ⟨run.pending.reverse ++ run.passed, [], run.result⟩
  exact hremove.bind ((does_resumeFinish hdebug h).bind ((does_settle _).coherent hover.resting
    (hover.errors.trans hclear) (by rwa [hover.params])))

end Driver

end CurveEngine
