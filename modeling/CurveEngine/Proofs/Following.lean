import CurveEngine.Proofs.Awaiting
import CurveEngine.Proofs.Releasing

/-! Following a multiplication to its end.

A traced multiplication is let go on for one opcode after the other. Each of them leaves fewer
opcodes to be executed (`opcodesLeft_step`), so that the stepping ends, whatever the points of
interest and with or without a step limit: at the last point, or where nothing is left to be
halted. The run is then let go, and without another breakpoint it is over (`resting_resume`). -/
namespace CurveEngine
open Register Procedure Device

variable {c : Crew} {s t u : State}

/-! ### What is left of a run -/

namespace Device.State

/-- Between two accesses a multiplication in progress is halted. -/
theorem Coherent.isHalted_eq (h : s.Coherent) : s.isHalted = s.multiplying := by
  have hstate : s.sequencer.state = if s.multiplying then .halted else .idle := h.steady
  rw [State.isHalted, Sequencer.isHalted, hstate]
  cases s.multiplying <;> rfl

/-- Opcodes that the multiplication in progress has still to execute. -/
def opcodesLeft (s : State) : Nat := (s.sequencer.run.map fun run => run.pending.length).getD 0

/-- A multiplication that goes on for one opcode comes nearer to its end, or is over. -/
theorem opcodesLeft_step (hs : s.Coherent) (hrunning : s.multiplying = true) :
    (s.step (Steps.count.set 1 (Steps.run.put true 0))).multiplying = false ∨
      (s.step (Steps.count.set 1 (Steps.run.put true 0))).opcodesLeft < s.opcodesLeft := by
  obtain ⟨run, hrun⟩ := Option.isSome_iff_exists.mp hrunning
  have hreleased : (s.released .step).sequencer.run = some run := (run_raise _ _).trans hrun
  have hstep : s.step (Steps.count.set 1 (Steps.run.put true 0)) =
      (s.released .step).walk run.passed run.result (some 1) run.pending := by
    have hresume : Steps.resume.test (Steps.count.set 1 (Steps.run.put true 0)) = false := by decide
    have hsteps : Steps.run.test (Steps.count.set 1 (Steps.run.put true 0)) = true := by decide
    have hcount : Steps.count.get (Steps.count.set 1 (Steps.run.put true 0)) = 1 := by decide
    rw [step_run (hs.isHalted_eq.trans hrunning) hresume hsteps, hcount]
    exact proceed_run hreleased (some 1)
  rw [hstep]
  cases hpending : run.pending with
  | nil => exact .inl (multiplying_finish _)
  | cons q rest =>
    right
    have hbudget (hit : Option Nat) :
        (hit.isSome || (some 1).any fun n => decide (n ≤ 1)) = true := by
      cases hit <;> rfl
    rw [State.walk, if_pos (hbudget _)]
    simp only [opcodesLeft, hrun, State.halt, run_raise, State.arrive, Option.map_some,
      Option.getD_some, hpending, List.length_cons]
    exact Nat.lt_succ_self _

/-- Without a breakpoint a multiplication that is let go on is over. -/
theorem resting_resume (hs : s.sequencer.Steady) (hunarmed : s.sequencer.Unarmed) :
    (s.step (Steps.resume.put true 0)).multiplying = false := by
  have hnone (id : Nat) (hid : id < breakpointCount) :
      s.sequencer.breakpoints[id]? = some none := by
    rw [hunarmed, Vector.getElem?_replicate, if_pos hid]
  refine (resume_halts hs (hnone 0 (by decide))).resolve_right ?_
  rintro ⟨id, b, q, -, hid, hhalted⟩
  have hbreakpoints := congrArg (fun armament => armament.2.2)
    (s.armament_step (Steps.resume.put true 0))
  have harmed := hhalted.armed
  rw [show (s.step _).sequencer.breakpoints = s.sequencer.breakpoints from hbreakpoints,
    hnone id hid] at harmed
  cases harmed

theorem sequencer_writeSink_breakpoint (hdebug : s.params.debug = true) (word : UInt32) :
    (s.writeSink .breakpoint word.toUInt64).sequencer = s.sequencer.setBreakpoint word := by
  simp only [writeSink, hdebug, if_true, writeDebug, UInt32.toUInt32_toUInt64]

end Device.State

namespace Driver
open State

/-! ### Traced multiplications -/

section Traced

theorem calm_holdsIdle (hlooks : max s.params.latency 3 ≤ c.looks) :
    Calm c s.params (HoldsIdle s) (fun r word => SparesCaller r word ∧ StartsNothing r word) where
  upholds := upholds_holdsIdle s
  params _ ht := ht.1.2.1
  coherent _ ht := ht.1.1
  resting _ ht := ht.2
  patient := hlooks

theorem mayTransfer_bystands :
    MayTransfer (fun r word => SparesCaller r word ∧ StartsNothing r word) where
  data := bystands (by decide) (by decide) (by decide) (by decide)
  opens _ h := ⟨sparesCaller_of_ne (by decide) (by decide) _, by decide, fun _ => opensTransfer h⟩
  token := bystands (by decide) (by decide) (by decide) (by decide) 1
  flags := sparesCaller_nullSink

variable {layout : LimbLayout} {trace : Trace}

/-- The writes of looking at a halted run. -/
def LooksOn (r : Sink) (word : UInt32) : Prop :=
  SparesCaller r word ∧ (Peripheral r ∨ r = .limbReadAddress)

/-- Looking at a halted run leaves it where it is. -/
theorem built_following (s : State) (q : Sequencer) :
    Built s.params (fun t => Holds s t ∧ t.sequencer = q) LooksOn where
  upholds := by
    have hsequencer : Upholds (fun t => t.sequencer = q)
        (fun r _ => Peripheral r ∨ r = .limbReadAddress) := by
      refine ⟨fun r t ht => ?_, ?_, fun _ => .inl (by simp [Peripheral])⟩
      · exact (congrArg Prod.fst (core_readSource r t)).trans ht
      · rintro r value t (hperipheral | rfl) ht
        · exact (congrArg Prod.fst (core_writeSink hperipheral value t)).trans ht
        · show (if t.params.debug then _ else t : State).sequencer = q
          split <;> exact ht
    exact (upholds_holds s).and hsequencer
  params _ ht := ht.1.2.1

theorem concur_writeDebug (hdebug : s.params.debug = true) {r : Sink} {word : UInt32}
    {Q : Except DriverError Unit → State → Prop} (h : Q (.ok ()) (s.writeSink r word.toUInt64)) :
    Concur c (fun d => (d.writeDebug r word).run) s Q := by
  have hensure : Concur c (fun d => d.ensureDebug.run) s fun x t => x = .ok () ∧ t = s :=
    .ensureDebug ⟨by rw [if_pos hdebug], rfl⟩
  refine hensure.operation (fun _ t ht => ?_) fun _ _ he => nomatch he.1
  obtain ⟨-, rfl⟩ := ht
  exact (Concur.write r word (Q := fun _ => Q (.ok ())) h).map fun _ _ hu => hu

/-- The debug bank shows where the engine is halted, if it is. -/
theorem concur_debugStatus (hdebug : s.params.debug = true) {Q : UInt32 → State → Prop}
    (h : Q s.sequencer.statusWord s) : Concur c (fun d => d.read .debugStatus) s Q := by
  refine .read .debugStatus ?_
  rw [readSource_of_debug hdebug .debugStatus rfl]
  simp only [State.sourceWord, UInt32.toUInt32_toUInt64]
  exact h

theorem concur_debugSnapshot (hdebug : s.params.debug = true) :
    Concur c (fun d => d.debugSnapshot.run) s fun x t =>
      x = .ok (.ofWord s.sequencer.statusWord) ∧ t = s := by
  have hensure : Concur c (fun d => d.ensureDebug.run) s fun x t => x = .ok () ∧ t = s :=
    .ensureDebug ⟨by rw [if_pos hdebug], rfl⟩
  have hread : Concur c (fun d => (d.readDebug .debugStatus).run) s fun x t =>
      x = .ok s.sequencer.statusWord ∧ t = s := by
    refine hensure.operation (fun _ t ht => ?_) fun _ _ he => nomatch he.1
    obtain ⟨-, rfl⟩ := ht
    exact (concur_debugStatus hdebug (Q := fun word u => word = t.sequencer.statusWord ∧ u = t)
      ⟨rfl, rfl⟩).map fun word u hword => ⟨congrArg _ hword.1, hword.2⟩
  refine hread.operation (fun word t ht => ?_) fun _ _ he => nomatch he.1
  obtain ⟨hword, rfl⟩ := ht
  cases Except.ok.inj hword
  exact .pure ⟨rfl, rfl⟩

/-- The multiplication is halted, or it is over; either is seen at the first look. -/
theorem concur_pollHaltedOrOver (hdebug : s.params.debug = true) (hu : Holds s u) :
    Concur c (fun d => (d.pollUntil d.isHaltedOrOver).run) u fun x t =>
      x = .ok () ∧ Holds s t ∧ t.sequencer = u.sequencer := by
  let Still (t : State) : Prop := Holds s t ∧ t.sequencer = u.sequencer
  have hdebug' (t : State) (ht : Still t) : t.params.debug = true := by rw [ht.1.2.1, hdebug]
  have hlook (t : State) (ht : Still t) : Concur c isHaltedOrOver t fun found v =>
      Still v ∧ (found = false → 0 < 0) := by
    have hhalted : Concur c isHalted t fun halted v => halted = t.isHalted ∧ v = t :=
      (concur_debugStatus (hdebug' t ht) (Q := fun word v => word = t.sequencer.statusWord ∧ v = t)
        ⟨rfl, rfl⟩).bind fun word v ⟨hword, hv⟩ =>
          .pure ⟨by rw [hword, Sequencer.halted_statusWord]; rfl, hv⟩
    refine hhalted.bind fun halted v ⟨hbit, hv⟩ => ?_
    subst hv
    cases halted with
    | true => exact .pure ⟨ht, nofun⟩
    | false =>
      have hstatus : Concur c status v fun word w =>
          Status.multiplying.test word = false ∧ Still w := by
        refine .status ⟨?_, (built_following s u.sequencer).upholds.read .status v ht⟩
        rw [State.multiplying_readStatus, ← ht.1.1.isHalted_eq]
        exact hbit.symm
      refine hstatus.bind fun word w ⟨hword, hw⟩ => .pure ⟨hw, fun hover => ?_⟩
      rw [hword] at hover
      cases hover
  exact .pollUntil (fun _ => 0) hlook ⟨hu, rfl⟩ (Nat.zero_le _)

/-- What a wait for a halt finds: a multiplication that is over, or one that is halted where it was
when the wait began. -/
inductive Finds (s u t : State) : Except DriverError (Option DebugSnapshot) → Prop
  | ended (hholds : Holds s t) (hover : t.multiplying = false) : Finds s u t (.ok none)
  | halted (here : DebugSnapshot) (hholds : Holds s t) (hrunning : t.multiplying = true)
      (hsame : t.sequencer = u.sequencer) : Finds s u t (.ok (some here))

theorem concur_waitHaltedOrOver (hdebug : s.params.debug = true) (hu : Holds s u) :
    Concur c (fun d => d.waitHaltedOrOver.run) u fun x t => Finds s u t x := by
  refine (concur_pollHaltedOrOver hdebug hu).operation (fun _ t ht => ?_) fun _ _ he => nomatch he.1
  have hdebug' : t.params.debug = true := by rw [ht.2.1.2.1, hdebug]
  refine (concur_debugSnapshot hdebug').operation (fun here v hv => ?_) fun _ _ he => nomatch he.1
  obtain ⟨hhere, rfl⟩ := hv
  cases Except.ok.inj hhere
  have hbit : (DebugSnapshot.ofWord v.sequencer.statusWord).halted = v.multiplying :=
    v.sequencer.halted_statusWord.trans ht.2.1.1.isHalted_eq
  rw [hbit]
  cases hrunning : v.multiplying with
  | false => exact .pure (.ended ht.2.1 hrunning)
  | true => exact .pure (.halted _ ht.2.1 hrunning ht.2.2)

/-- A halted multiplication goes on for one opcode. -/
theorem concur_runOne (hdebug : s.params.debug = true) (hu : Holds s u)
    (hrunning : u.multiplying = true) :
    Concur c (fun d => (d.runOpcodes 1).run) u fun x v => x = .ok () ∧ Holds s v ∧
      (v.multiplying = false ∨ v.opcodesLeft < u.opcodesLeft) := by
  have hdebug' : u.params.debug = true := by rw [hu.2.1, hdebug]
  refine concur_writeDebug hdebug' ⟨rfl, ?_, ?_⟩
  · exact (upholds_holds s).write .steps _ u (mayTrace_sparesCaller.steps _) hu
  · rw [writeSink_steps hdebug']
    exact opcodesLeft_step hu.1 hrunning

/-- What follows a spot, of interest or not, goes on from where the multiplication is halted. -/
theorem concur_visit (hdebug : s.params.debug = true) {points : TracePoints} {spot : Spot}
    {q : Sequencer} {G : Driver → Tracing Unit}
    (hG : ∀ trace v, Holds s v ∧ v.sequencer = q →
      Concur c (fun d => (G d).on trace) v fun x t => Responsive x.1 ∧ Holds s t)
    (hu : Holds s u ∧ u.sequencer = q) :
    Concur c (fun d => (do
      modify fun t => { t with stepCount := t.stepCount + 1 }
      match points.phaseAt? spot with
      | some phase => d.recordPhase layout phase spot
      | none => pure ()
      G d : Tracing Unit).on trace) u fun x t => Responsive x.1 ∧ Holds s t := by
  have hbuilt := built_following s q
  have hlimb (word : UInt32) : LooksOn .limbReadAddress word :=
    ⟨mayTrace_sparesCaller.limb word, .inr rfl⟩
  have hcount := Recording.Concurs.modify (c := c) (I := fun t => Holds s t ∧ t.sequencer = q)
    (fun t : Trace => { t with stepCount := t.stepCount + 1 }) trace u hu
  refine hcount.recording (fun _ trace' v hv => ?_) fun _ _ _ he => ⟨he.1.cast, he.2.1⟩
  cases points.phaseAt? spot with
  | none => exact hG trace' v hv.2
  | some phase =>
    exact (hbuilt.recordPhase hdebug hlimb layout phase spot trace' v hv.2).recording
      (fun _ trace' w hw => hG trace' w hw.2) fun _ _ _ he => ⟨he.1.cast, he.2.1⟩

theorem stepOpcodes_on (d : Driver) (layout : LimbLayout) (fuel : Nat) (trace : Trace) :
    (d.stepOpcodes layout (fuel + 1)).on trace =
      (if trace.atLimit then do
        modify fun t => t.addLine "step limit reached"
        throw .stepLimit
      else do
        d.runOpcodes 1
        let halted ← d.waitHaltedOrOver
        match halted with
        | none => throw .unexpectedHalt
        | some here => do
          modify fun t => { t with stepCount := t.stepCount + 1 }
          let spot : Spot := ⟨here.pc, here.state⟩
          match trace.options.points.phaseAt? spot with
          | some phase => d.recordPhase layout phase spot
          | none => pure ()
          if spot = trace.options.points.last then pure ()
          else d.stepOpcodes layout fuel : Tracing Unit).on trace := rfl

/-- A turn of stepping ends it, or brings the multiplication nearer to its end. -/
theorem concur_turn (hdebug : s.params.debug = true) {fuel : Driver → Nat} (hu : Holds s u)
    (hrunning : u.multiplying = true)
    (hrest : ∀ trace v, Holds s v → v.multiplying = true → v.opcodesLeft < u.opcodesLeft →
      Concur c (fun d => (d.stepOpcodes layout (fuel d)).on trace) v fun x t =>
        Responsive x.1 ∧ Holds s t) :
    Concur c (fun d => (d.stepOpcodes layout (fuel d + 1)).on trace) u fun x t =>
      Responsive x.1 ∧ Holds s t := by
  simp only [stepOpcodes_on]
  split
  · exact .pure (a := (Except.error DriverError.stepLimit, trace.addLine "step limit reached"))
      ⟨.error nofun, hu⟩
  refine (concur_runOne hdebug hu hrunning).recordingLift (fun _ v hv => ?_) fun _ _ he =>
    nomatch he.1
  refine (concur_waitHaltedOrOver hdebug hv.2.1).recordingLift (fun halted w hw => ?_) fun _ _ he =>
    nomatch he
  cases hw with
  | ended hholds _ =>
    exact .pure (a := (Except.error DriverError.unexpectedHalt, trace)) ⟨.error nofun, hholds⟩
  | halted here hholds hrunning' hsame =>
    have hless : w.opcodesLeft < u.opcodesLeft := by
      rw [opcodesLeft, hsame]
      refine hv.2.2.resolve_left fun hover => ?_
      rw [multiplying, hsame] at hrunning'
      exact Bool.false_ne_true (hover.symm.trans hrunning')
    refine concur_visit hdebug (q := w.sequencer) (fun trace' w' hw' => ?_) ⟨hholds, rfl⟩
    split
    · exact .pure (a := (Except.ok (), trace')) ⟨.ok (), hw'.1⟩
    · refine hrest trace' w' hw'.1 ?_ ?_
      · rw [multiplying, hw'.2]
        exact hrunning'
      · rw [opcodesLeft, hw'.2]
        exact hless

/-- Stepping through a multiplication takes no more turns than there are opcodes left, and one to
find out that it is over. -/
theorem concur_stepOpcodes (hdebug : s.params.debug = true) {fuel : Driver → Nat} {turns m : Nat}
    (hfuel : ∀ d, c.Has turns d → m ≤ fuel d) (hu : Holds s u) (hrunning : u.multiplying = true)
    (hleft : u.opcodesLeft < m) :
    Concur c (fun d => (d.stepOpcodes layout (fuel d)).on trace) u fun x t =>
      Responsive x.1 ∧ Holds s t := by
  -- a bound on the opcodes left is a bound on the turns, and so on the fuel; the induction is on it
  induction m generalizing fuel trace u with
  | zero => exact absurd hleft (Nat.not_lt_zero _)
  | succ m ih =>
    have hturn : Concur c (fun d => (d.stepOpcodes layout (fuel d - 1 + 1)).on trace) u fun x t =>
        Responsive x.1 ∧ Holds s t :=
      concur_turn hdebug hu hrunning fun trace v hv hrunning hless =>
        ih (fun d hd => Nat.le_sub_one_of_lt (hfuel d hd)) hv hrunning
          (Nat.lt_of_lt_of_le hless (Nat.le_of_lt_succ hleft))
    refine hturn.congr turns fun d hd => ?_
    rw [Nat.sub_add_cancel (Nat.le_trans (Nat.succ_pos m) (hfuel d hd))]

/-- A multiplication that has been started is followed to the last spot, to its end, or as far as
the step limit allows. -/
theorem concur_followRun (hlooks : max s.params.latency 3 ≤ c.looks)
    (hdebug : s.params.debug = true) (hu : Holds s u) :
    Concur c (fun d => (d.followRun layout).on trace) u fun x t =>
      Responsive x.1 ∧ Holds s t := by
  refine (concur_waitHaltedOrOver hdebug hu).recordingLift (fun halted v hv => ?_) fun _ _ he =>
    nomatch he
  cases hv with
  | ended hholds hover =>
    have hsettle : Recording.Concurs c (HoldsIdle s) (fun d => do
        d.settle
        throw .unexpectedHalt : Driver → Tracing Unit) :=
      (Recording.Concurs.lift (calm_holdsIdle hlooks).settle).bind fun _ => .throw nofun
    exact (hsettle trace v ⟨hholds, hover⟩).mono fun _ _ ht => ⟨ht.1, ht.2.1⟩
  | halted here hholds hrunning _ =>
    show Concur c (fun d => (if (⟨here.pc, here.state⟩ : Spot) = trace.options.points.entry then
        d.stepOpcodes layout d.fuel
      else do
        notify (.haltedAt here.pc here.state)
        throw .unexpectedHalt : Tracing Unit).on trace) v _
    split
    · have hfuel (d : Driver) (hd : c.Has (v.opcodesLeft + 1) d) : v.opcodesLeft + 1 ≤ d.fuel :=
        hd.fuel
      exact concur_stepOpcodes hdebug hfuel hholds hrunning (Nat.lt_succ_self _)
    · exact .pure (a := (Except.error DriverError.unexpectedHalt, trace)) ⟨.error nofun, hholds⟩

/-- A multiplication that is let go is over, and the engine is waited for as one at rest. -/
theorem concur_release (hlooks : max s.params.latency 3 ≤ c.looks) (hdebug : s.params.debug = true)
    (hunarmed : s.sequencer.UnarmedBeyond) (hu : Holds s u) :
    Concur c (fun d => d.release.run) u fun x t => Responsive x ∧ HoldsIdle s t := by
  have hdebug' (t : State) (ht : Holds s t) : t.params.debug = true := by rw [ht.2.1, hdebug]
  have hremove : Concur c
      (fun d => (d.writeDebug .breakpoint (Breakpoint.id.set traceBreakpoint 0)).run) u fun x t =>
        x = .ok () ∧ Holds s t ∧ t.sequencer.Unarmed := by
    refine concur_writeDebug (hdebug' u hu)
      ⟨rfl, (upholds_holds s).write .breakpoint _ u mayTrace_sparesCaller.disarm hu, ?_⟩
    rw [sequencer_writeSink_breakpoint (hdebug' u hu)]
    exact hu.2.2.trans hunarmed
  have hresume (v : State) (hv : Holds s v ∧ v.sequencer.Unarmed) :
      Concur c (fun d => (d.writeDebug .steps (Steps.resume.put true 0)).run) v fun x t =>
        x = .ok () ∧ HoldsIdle s t := by
    refine concur_writeDebug (hdebug' v hv.1)
      ⟨rfl, (upholds_holds s).write .steps _ v (mayTrace_sparesCaller.steps _) hv.1, ?_⟩
    rw [writeSink_steps (hdebug' v hv.1)]
    exact resting_resume hv.1.1.steady hv.2
  show Concur c (fun d => (do
    d.writeDebug .breakpoint (Breakpoint.id.set traceBreakpoint 0)
    d.writeDebug .steps (Steps.resume.put true 0)
    d.settle : Operation Unit).run) u _
  refine hremove.operation (fun _ v hv => ?_) fun _ _ he => nomatch he.1
  refine (hresume v hv.2).operation (fun _ w hw => ?_) fun _ _ he => nomatch he.1
  exact (calm_holdsIdle hlooks).settle w hw.2

theorem concur_followAndRelease (hlooks : max s.params.latency 3 ≤ c.looks)
    (hdebug : s.params.debug = true) (hunarmed : s.sequencer.UnarmedBeyond) (hu : Holds s u) :
    Concur c (fun d => (d.followAndRelease layout).on trace) u fun x t =>
      Responsive x.1 ∧ HoldsIdle s t := by
  simp only [followAndRelease_on]
  refine (concur_followRun hlooks hdebug hu).bind fun x v hv => ?_
  refine (concur_release hlooks hdebug hunarmed hv.2).bind fun released w hw => ?_
  refine (Concur.notify _ (Q := fun _ => HoldsIdle s) hw.2).bind fun _ t ht => .pure ⟨?_, ht⟩
  obtain ⟨stepped, q⟩ := x
  cases stepped with
  | ok _ => exact hw.1
  | error e => exact hv.1

theorem concurs_traceRun (hlooks : max s.params.latency 3 ≤ c.looks)
    (hdebug : s.params.debug = true) (hunarmed : s.sequencer.UnarmedBeyond) :
    Recording.Concurs c (HoldsIdle s) traceRun := by
  have hcalm := calm_holdsIdle hlooks
  have hstart (layout : LimbLayout) :
      Recording.Concurs c (HoldsIdle s) (startAndFollow · layout) := by
    refine (Recording.Concurs.lift hcalm.waitIdle).bind fun _ trace u hu => ?_
    simp only [Recording.on_procedure_bind]
    refine (Concur.write .control _ (Q := fun _ => Holds s) ?_).bind fun _ v hv =>
      concur_followAndRelease hlooks hdebug hunarmed hv
    exact (upholds_holds s).write .control _ u mayTrace_sparesCaller.start hu.1
  refine hcalm.recordAfterDebug fun _ =>
    (Recording.Concurs.procedure hcalm.size).bind fun size =>
      (Recording.Concurs.lift (hcalm.readDebug .limbWidth)).bind fun width => ?_
  dsimp only
  split
  · exact .throw nofun
  · refine (Recording.Concurs.modify _).bind fun _ => Recording.Concurs.get.bind fun t =>
      (Recording.Concurs.lift (hcalm.writeBreakpoint _ ?_)).bind fun _ => hstart _
    exact ⟨mayTrace_sparesCaller.arm _, startsNothing_of_ne (by decide) (by decide) _⟩

theorem concurs_multiplyTraced (hlooks : max s.params.latency 3 ≤ c.looks)
    (hunarmed : s.sequencer.UnarmedBeyond) (point : Coordinates) (k : Bytes) :
    Recording.Concurs c (HoldsIdle s) (fun d => d.multiplyTraced point k) := by
  have hcalm := calm_holdsIdle hlooks
  have hload := hcalm.loadMultiplication mayTransfer_bystands point k
  refine (Recording.Concurs.procedure (fun _ hs => .notify _ ⟨trivial, hs⟩)).bind fun _ =>
    hcalm.recordAfterDebug fun hdebug => (Recording.Concurs.lift hload).bind fun token =>
      (concurs_traceRun hlooks hdebug hunarmed).bind fun _ =>
        .lift (hcalm.collectResult mayTransfer_bystands token)

end Traced

end Driver

end CurveEngine
