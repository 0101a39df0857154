import CurveEngine.Proofs.Refinement
import CurveEngine.Proofs.Upheld

/-! What a traced multiplication leaves behind.

However the stepping ends, a traced multiplication removes the breakpoint of its own and
resumes the run. From there nothing but another armed breakpoint can halt it
(`resume_halts`), and one that does is the caller's. So the run is over when the call
ends, or the call has failed and the engine is halted by a breakpoint that was armed
before it (`multiplyTraced_leaves`). -/
namespace CurveEngine
open Register Procedure Device Operation

namespace Device

/-- The breakpoint that stops at a position is armed and covers it. -/
theorem Sequencer.armed_of_breakpointAt? {q : Sequencer} {p : Position} {id : Nat}
    (h : q.breakpointAt? p = some id) :
    id < breakpointCount ∧ ∃ b, q.breakpoints[id]? = some (some b) ∧ b.covers p = true := by
  have hid := List.mem_range.mp (List.mem_of_find?_eq_some h)
  have hcovers := List.find?_some h
  refine ⟨hid, ?_⟩
  split at hcovers
  · rename_i b hb
    exact ⟨b, hb, hcovers⟩
  · cases hcovers

namespace State

/-- The engine has halted where one of its breakpoints is armed. -/
structure HaltedBy (s : State) (id : Nat) (b : Device.Breakpoint) (p : Position) : Prop where
  armed : s.sequencer.breakpoints[id]? = some (some b)
  hit : s.sequencer.hit = some id
  last : s.sequencer.last = some p
  covers : b.covers p = true

/-- The engine has halted at a breakpoint other than the first. -/
def Caught (s : State) : Prop :=
  ∃ id b p, 1 ≤ id ∧ id < Device.breakpointCount ∧ s.HaltedBy id b p

theorem Caught.frame {s t : State} (h : s.Caught) (same : t.sequencer = s.sequencer) :
    t.Caught := by
  obtain ⟨id, b, p, hpos, hid, harmed, hhit, hlast, hcovers⟩ := h
  refine ⟨id, b, p, hpos, hid, ?_, ?_, ?_, hcovers⟩
  · rwa [same]
  · rwa [same]
  · rwa [same]

theorem multiplying_finish (s : State) : s.finish.multiplying = false := by
  unfold State.finish
  split
  · rename_i hnone
    rw [multiplying, hnone]
    rfl
  · rw [multiplying, run_raise]
    rfl

/-- A run without a budget goes on to its end, or to a breakpoint. -/
theorem walk_halts (s : State) (passed pending : List Position) (result : Point) :
    (s.walk passed result none pending).multiplying = false ∨
      ∃ id b p, id < Device.breakpointCount ∧
        (s.walk passed result none pending).HaltedBy id b p := by
  induction pending generalizing s passed with
  | nil => exact .inl s.multiplying_finish
  | cons p rest ih =>
    simp only [State.walk, Option.any_none, Bool.or_false, Option.map_none]
    cases hat : (s.arrive ⟨p :: passed, rest, result⟩ p).sequencer.breakpointAt? p with
    | none => exact ih _ _
    | some id =>
      obtain ⟨hid, b, harmed, hcovers⟩ := Sequencer.armed_of_breakpointAt? hat
      have hraise (q : Sequencer) : (q.raise .hit).breakpoints = q.breakpoints ∧
          (q.raise .hit).hit = q.hit ∧ (q.raise .hit).last = q.last := by
        unfold Sequencer.raise
        split
        · exact ⟨rfl, rfl, rfl⟩
        · exact ⟨rfl, rfl, rfl⟩
      obtain ⟨hbreakpoints, hhit, hlast⟩ := hraise
        { (s.arrive ⟨p :: passed, rest, result⟩ p).sequencer with hit := some id }
      rw [Option.isSome_some, if_pos rfl]
      exact .inr ⟨id, b, p, hid, hbreakpoints ▸ harmed, hhit, hlast, hcovers⟩

/-- An engine that is let go with its first breakpoint removed comes to rest, or is caught
by another one. -/
theorem resume_halts {s : State} (hs : s.sequencer.Steady)
    (hfirst : s.sequencer.breakpoints[0]? = some none) :
    (s.step (Steps.resume.put true 0)).multiplying = false ∨
      (s.step (Steps.resume.put true 0)).Caught := by
  have hnever (t : State) (ht : t.sequencer.breakpoints = s.sequencer.breakpoints)
      (h : ∃ id b p, id < Device.breakpointCount ∧ t.HaltedBy id b p) : t.Caught := by
    obtain ⟨id, b, p, hid, hhalted⟩ := h
    refine ⟨id, b, p, Nat.one_le_iff_ne_zero.mpr ?_, hid, hhalted⟩
    rintro rfl
    have harmed := hhalted.armed
    rw [ht, hfirst] at harmed
    cases harmed
  have hbreakpoints := congrArg (fun armament => armament.2.2)
    (s.armament_step (Steps.resume.put true 0))
  have hresume : Steps.resume.test (Steps.resume.put true 0) = true := by decide
  cases hhalted : s.isHalted with
  | false =>
    left
    rw [State.step, hhalted]
    have hstate : s.sequencer.state ≠ .halted := by
      simpa [State.isHalted, Sequencer.isHalted] using hhalted
    by_contra hrun
    rw [Bool.not_false, if_pos rfl, Bool.not_eq_false] at hrun
    rw [Sequencer.Steady, show s.sequencer.run.isSome = true from hrun] at hs
    exact hstate hs
  | true =>
    refine Or.imp_right (hnever _ hbreakpoints) ?_
    rw [step_resume hhalted hresume]
    unfold State.proceed
    split
    · exact .inl (multiplying_finish _)
    · exact walk_halts _ _ _ _

end State

end Device

namespace Driver
variable {d : Driver} {s : State}

/-- A release that ends has brought the engine to rest, or it has failed and the engine is
caught by a breakpoint. -/
theorem release_leaves (hs : s.Coherent) (hdebug : s.params.debug = true)
    {x : Except DriverError Unit} {t : State} (h : Ends bus d.release.run s x t) :
    t.multiplying = false ∨ t.Caught ∧ ∃ error, x = .error error := by
  obtain ⟨u, hremove, hu⟩ := (does_removeBreakpoint (d := d) hdebug).returns s (.refl s) hs
  have hremoved := ((does_removeBreakpoint (d := d) hdebug).only s () u (.refl s) hremove).2
  have hdebug' : u.params.debug = true :=
    (hremoved.field (fun u => u.params.debug) fun _ => rfl).trans hdebug
  obtain ⟨v, hresume, hv⟩ := (does_resume (d := d) hdebug').returns u (.refl u) hu
  have hresumed := ((does_resume (d := d) hdebug').only u () v (.refl u) hresume).2
  have hsettle : Ends bus d.settle.run v x t :=
    hresume.ends_run_bind.mp (hremove.ends_run_bind.mp h)
  have hkept : t.sequencer = v.sequencer :=
    ((upholds_sequencer v.sequencer).paired d).settle.keeps rfl hsettle
  have hsequencer : t.sequencer = (u.step (Steps.resume.put true 0)).sequencer :=
    hkept.trans (hresumed.field State.sequencer fun _ => rfl)
  have hfirst : u.sequencer.breakpoints[0]? = some none := by
    rw [hremoved.field (fun u => u.sequencer.breakpoints) fun _ => rfl]
    exact Vector.getElem?_setIfInBounds_self_of_lt (by decide)
  rcases State.resume_halts hu.steady hfirst with hrests | hcaught
  · left
    rw [State.multiplying, hsequencer]
    exact hrests
  · cases x with
    | ok _ =>
      left
      rw [State.multiplying, hkept]
      exact (settle_only hsettle).2.2.1
    | error e => exact .inr ⟨hcaught.frame hsequencer, e, rfl⟩

/-! ### The call as a whole -/

/-- What a traced multiplication on `s` rests on all along: the parameters, and the
breakpoints of the caller. -/
def Holds (s t : State) : Prop :=
  t.Coherent ∧ t.params = s.params ∧
    t.sequencer.breakpoints.setIfInBounds 0 none = s.sequencer.breakpoints.setIfInBounds 0 none

/-- What it rests on until the multiplication is started. -/
def HoldsIdle (s t : State) : Prop := Holds s t ∧ t.multiplying = false

/-- The breakpoints of the caller are not written. -/
def SparesCaller (r : Sink) (word : UInt32) : Prop :=
  True ∧ r ≠ .softReset ∧ (r = .breakpoint → Register.Breakpoint.id.get word = 0)

theorem sparesCaller_of_ne {r : Sink} (hreset : r ≠ .softReset) (hbreakpoint : r ≠ .breakpoint)
    (word : UInt32) : SparesCaller r word :=
  ⟨trivial, hreset, fun h => absurd h hbreakpoint⟩

theorem upholds_holds (s : State) : Upholds (Holds s) SparesCaller :=
  upholds_coherent.and (upholds_breakpoints s)

theorem upholds_holdsIdle (s : State) :
    Upholds (HoldsIdle s) (fun r word => SparesCaller r word ∧ StartsNothing r word) :=
  (upholds_holds s).and upholds_resting

/-- A traced run writes the first breakpoint only. -/
theorem mayTrace_sparesCaller : MayTrace SparesCaller where
  steps := sparesCaller_of_ne (by decide) (by decide)
  limb := sparesCaller_of_ne (by decide) (by decide)
  arm address := by
    refine ⟨trivial, by decide, fun _ => ?_⟩
    simp (disch := decide) only [breakpointWord, BitField.get_set_of_apart, BitField.get_set]
    rfl
  disarm := ⟨trivial, by decide, fun _ => by decide⟩
  start := sparesCaller_of_ne (by decide) (by decide) _

/-- Following a run from its start and releasing it, whatever comes of it. -/
theorem followAndRelease_leaves {u : State} (hu : Holds s u) (hdebug : s.params.debug = true)
    {layout : LimbLayout} {t t' : Trace} {x : Except DriverError Unit} {v : State}
    (h : Ends bus ((d.followAndRelease layout).on t) u (x, t') v) :
    v.multiplying = false ∨ v.Caught ∧ ∃ error, x = .error error := by
  obtain ⟨stepped, released, w, hfollow, hrelease, rfl⟩ :=
    (ends_followAndRelease layout t t' u v x).mp h
  have hw : Holds s w :=
    (((upholds_holds s).paired d).followRun mayTrace_sparesCaller.steps
      mayTrace_sparesCaller.limb layout t).keeps hu hfollow
  have hdebug' : w.params.debug = true := by rw [hw.2.1, hdebug]
  refine (release_leaves hw.1 hdebug' hrelease).imp_right ?_
  rintro ⟨hcaught, e, rfl⟩
  cases stepped with
  | ok _ => exact ⟨hcaught, e, rfl⟩
  | error e' => exact ⟨hcaught, e', rfl⟩

theorem traceRun_leaves (hdebug : s.params.debug = true) {u : State} (hu : HoldsIdle s u)
    {t t' : Trace} {x : Except DriverError Unit} {v : State}
    (h : Ends bus (d.traceRun.on t) u (x, t') v) :
    v.multiplying = false ∨ v.Caught ∧ ∃ error, x = .error error := by
  have hidle := (upholds_holdsIdle s).paired d
  rw [traceRun] at h
  obtain hv | ⟨_, t₁, u, hu, h⟩ := ends_on_bind_of_keeps hu (.lift hidle.ensureDebug) h
  · exact .inl hv.2
  obtain hv | ⟨size, t₂, u, hu, h⟩ := ends_on_bind_of_keeps hu (.procedure hidle.size) h
  · exact .inl hv.2
  obtain hv | ⟨width, t₃, u, hu, h⟩ :=
    ends_on_bind_of_keeps hu (.lift (hidle.readDebug (by decide) (by decide))) h
  · exact .inl hv.2
  dsimp only at h
  split at h
  · obtain ⟨-, rfl⟩ := (ends_pure (Except.error .unexpectedHalt, t₃) (x, t') u v).mp h
    exact .inl hu.2
  obtain hv | ⟨_, t₄, u, hu, h⟩ := ends_on_bind_of_keeps hu (.modify _) h
  · exact .inl hv.2
  obtain hv | ⟨_, t₅, u, hu, h⟩ := ends_on_bind_of_keeps hu .get h
  · exact .inl hv.2
  obtain hv | ⟨_, t₆, u, hu, h⟩ := ends_on_bind_of_keeps hu
    (.lift (hidle.writeBreakpoint _ ⟨mayTrace_sparesCaller.arm _,
      startsNothing_of_ne (by decide) (by decide) _⟩)) h
  · exact .inl hv.2
  obtain hv | ⟨_, t₇, u, hu, h⟩ := ends_on_bind_of_keeps hu (.lift hidle.waitIdle) h
  · exact .inl hv.2
  -- from here on the engine may be multiplying
  have hwrite := ((upholds_holds s).paired d).write .control (Command.operate .multiply).word
    mayTrace_sparesCaller.start
  obtain ⟨_, t₈, u, hstart, h⟩ | ⟨e, hthrows, -⟩ := (Recording.ends_on_bind ..).mp h
  · obtain ⟨-, hstart⟩ := (Recording.returns_procedure ..).mp hstart
    exact followAndRelease_leaves (hwrite.keeps hu.1 hstart) hdebug h
  · exact absurd hthrows (Recording.not_throws_procedure _ _ _ _ _ _)

theorem Holds.refl (hs : s.Coherent) : Holds s s := ⟨hs, rfl, rfl⟩

/-- Registers that reach neither the breakpoints nor the run. -/
theorem bystands {r : Sink} (hreset : r ≠ .softReset) (hbreakpoint : r ≠ .breakpoint)
    (hsteps : r ≠ .steps) (hcontrol : r ≠ .control) (word : UInt32) :
    SparesCaller r word ∧ StartsNothing r word :=
  ⟨sparesCaller_of_ne hreset hbreakpoint word, startsNothing_of_ne hsteps hcontrol word⟩

theorem sparesCaller_nullSink (point : PointRegister) (word : UInt32) :
    SparesCaller (nullSink point) word ∧ StartsNothing (nullSink point) word := by
  cases point with
  | r0 => exact bystands (by decide) (by decide) (by decide) (by decide) word
  | r1 => exact bystands (by decide) (by decide) (by decide) (by decide) word

/-- A traced multiplication that ends leaves the engine at rest, or it has failed and the
engine is caught by a breakpoint. -/
theorem caught_of_multiplyTraced (hs : s.Coherent) (hdebug : s.params.debug = true)
    (hresting : s.multiplying = false) {point : Coordinates} {k : Bytes} {trace trace' : Trace}
    {x : Except DriverError PointAnswer} {t : State}
    (h : Ends bus ((d.multiplyTraced point k).on trace) s (x, trace') t) :
    t.multiplying = false ∨ t.Caught ∧ ∃ error, x = .error error := by
  have hidle := (upholds_holdsIdle s).transfers d
    (bystands (by decide) (by decide) (by decide) (by decide))
    fun _ hcommand => ⟨sparesCaller_of_ne (by decide) (by decide) _, by decide,
      fun _ => opensTransfer hcommand⟩
  have hu : HoldsIdle s s := ⟨.refl hs, hresting⟩
  rw [multiplyTraced] at h
  obtain hv | ⟨_, t₁, u, hu, h⟩ := ends_on_bind_of_keeps hu (.procedure (.notify _)) h
  · exact .inl hv.2
  obtain hv | ⟨_, t₂, u, hu, h⟩ := ends_on_bind_of_keeps hu (.lift hidle.ensureDebug) h
  · exact .inl hv.2
  obtain hv | ⟨token, t₃, u, hu, h⟩ := ends_on_bind_of_keeps hu
    (.lift (hidle.loadMultiplication (bystands (by decide) (by decide) (by decide) (by decide) 1)
      sparesCaller_nullSink fun _ _ => trivial)) h
  · exact .inl hv.2
  obtain ⟨_, t₄, v, hrun, h⟩ | ⟨e, hthrows, rfl⟩ := (Recording.ends_on_bind ..).mp h
  · rcases traceRun_leaves hdebug hu hrun with hrests | ⟨-, error, herror⟩
    · have hcollect := (upholds_resting.transfers d (startsNothing_of_ne (by decide) (by decide))
        fun _ hcommand => ⟨by decide, fun _ => opensTransfer hcommand⟩).collectResult token
      exact .inl (hcollect.keeps hrests ((Recording.ends_on_lift ..).mp h).2)
    · cases herror
  · exact (traceRun_leaves hdebug hu hthrows).imp_right fun h => ⟨h.1, e, rfl⟩

/-- Whatever comes of a traced multiplication, the breakpoints of the caller stay armed. -/
theorem holds_of_multiplyTraced (hs : s.Coherent) {point : Coordinates} {k : Bytes}
    {trace trace' : Trace} {x : Except DriverError PointAnswer} {t : State}
    (h : Ends bus ((d.multiplyTraced point k).on trace) s (x, trace') t) : Holds s t :=
  (((upholds_holds s).transfers d (sparesCaller_of_ne (by decide) (by decide))
    fun _ _ => sparesCaller_of_ne (by decide) (by decide) _).multiplyTraced
      (sparesCaller_of_ne (by decide) (by decide) 1)
      (fun point word => (sparesCaller_nullSink point word).1) (fun _ _ => trivial)
      mayTrace_sparesCaller trace).keeps (.refl hs) h

/-- **A traced multiplication stays stuck behind the caller's breakpoints only.** However
it ends, by a result or by any error, the multiplication is over; or the call has failed,
and the engine is halted where a breakpoint other than the first stops it that was armed
before the call. -/
theorem multiplyTraced_leaves (d : Driver) (s t : State) (point : Coordinates) (k : Bytes)
    (trace trace' : Trace) (x : Except DriverError PointAnswer) (hs : Reachable s)
    (hdebug : s.params.debug = true) (hresting : s.multiplying = false)
    (h : Ends bus ((d.multiplyTraced point k).on trace) s (x, trace') t) :
    t.multiplying = false ∨
      ∃ id b p error, 1 ≤ id ∧ id < Device.breakpointCount ∧
        s.sequencer.breakpoints[id]? = some (some b) ∧ t.isHalted = true ∧
        t.HaltedBy id b p ∧ x = .error error := by
  obtain ⟨ht, -, hbreakpoints⟩ := holds_of_multiplyTraced hs.coherent h
  cases hmultiplying : t.multiplying with
  | false => exact .inl rfl
  | true =>
    rcases caught_of_multiplyTraced hs.coherent hdebug hresting h with
      hrests | ⟨⟨id, b, p, hpos, hid, hhalted⟩, error, herror⟩
    · rw [hrests] at hmultiplying
      cases hmultiplying
    · refine .inr ⟨id, b, p, error, hpos, hid, ?_, ?_, hhalted, herror⟩
      · have hbeyond := congrArg (fun bs => bs[id]?) hbreakpoints
        simp only [Vector.getElem?_setIfInBounds, if_neg (show 0 ≠ id by omega)] at hbeyond
        exact hbeyond.symm.trans hhalted.armed
      · have hsteady := ht.steady
        rw [Sequencer.Steady, show t.sequencer.run.isSome = true from hmultiplying] at hsteady
        rw [State.isHalted, Sequencer.isHalted, hsteady]
        rfl

/-! ### A breakpoint inside the ladder -/

/-- A driver does not wait for an engine that is multiplying for longer than its polls
last. -/
theorem waitIdle_gives_up {limit : Nat} (hlimit : d.config.pollLimit = some limit)
    (hmultiplying : s.multiplying = true) :
    ∃ t, Throws bus d.waitIdle s .unresponsive t ∧ t.Alike s := by
  unfold waitIdle pollUntil
  rw [hlimit]
  clear hlimit
  induction limit generalizing s with
  | zero => exact ⟨s, (throws_throw _ _ _ _).mpr ⟨rfl, rfl⟩, .refl s⟩
  | succ limit ih =>
    obtain ⟨t, hthrows, ht⟩ := ih (s := s.readStatus.2) hmultiplying
    have hcheck : Returns bus (liftM d.isIdle : Operation Bool) s false s.readStatus.2 := by
      refine (returns_lift _ _ _ _).mpr ((ends_isIdle false).mpr ⟨?_, rfl⟩)
      rw [hmultiplying, Bool.or_true]
      rfl
    exact ⟨t, hcheck.throws hthrows, ht.trans s.settled_readStatus⟩

/-- The small engine with its second breakpoint armed on an opcode of the ladder. -/
def guarded97 : State :=
  (curve97.write .word Sink.breakpoint.offset (breakpointWord 1 0x50 0 .idle).toUInt64).2

theorem reachable_guarded97 : Reachable guarded97 := reachable_curve97.write _ _ _

/-- A trace that gives up at its first step. -/
def stepless : Trace := .new ⟨none, some 0, .standard⟩

/-- A driver that gives up after ten polls. -/
def hasty : Driver := ⟨{ pollLimit := some 10 }, 10⟩

/-- Where the run on the guarded engine halts first. -/
def entered97 : State :=
  ((hasty.loaded guarded97 ⟨[3], [6]⟩ [21]).armedAt
    TracePoints.standard.entry.pc).begun.startMultiplication

/-- Where it halts when it has been let go. -/
def released97 : State :=
  (entered97.withBreakpoints (entered97.sequencer.breakpoints.setIfInBounds 0 none)).step
    (Steps.resume.put true 0)

/-- The release of the run on the guarded engine waits in vain. -/
theorem release_guarded97 {s : State} (hs : s.Coherent) (hentered : s.Alike entered97) :
    ∃ t, Throws bus hasty.release s .unresponsive t ∧ t.Alike released97 := by
  have hremove := does_removeBreakpoint (d := hasty) (s := entered97) (by decide +kernel)
  obtain ⟨u, hremoved, hu⟩ := hremove.returns s hentered hs
  have hresume := does_resume (d := hasty)
    (s := entered97.withBreakpoints (entered97.sequencer.breakpoints.setIfInBounds 0 none))
    (by decide +kernel)
  obtain ⟨v, hresumed, hv⟩ := hresume.returns u (hremove.only s () u hentered hremoved).2 hu
  have hlike := (hresume.only u () v (hremove.only s () u hentered hremoved).2 hresumed).2
  have hmultiplying : v.multiplying = true := by
    rw [hlike.field State.multiplying fun _ => rfl]
    decide +kernel
  obtain ⟨t, hthrows, ht⟩ := waitIdle_gives_up (d := hasty) rfl hmultiplying
  exact ⟨t, hremoved.throws (hresumed.throws ((throws_bind _ _ _ _ _).mpr (.inl hthrows))),
    ht.trans hlike⟩

/-- A trace that is at its limit from the start gives up where the run is entered. -/
theorem followRun_gives_up (hdebug : s.params.debug = true) (hattentive : 0 < d.checks)
    (hhalted : s.isHalted = true) {t : Trace} (hlimit : t.atLimit = true) (hfuel : 0 < d.fuel)
    (hentry : (⟨(DebugSnapshot.ofWord s.sequencer.statusWord).pc,
      (DebugSnapshot.ofWord s.sequencer.statusWord).state⟩ : Spot) = t.options.points.entry)
    (layout : LimbLayout) {u : State} (hu : u.Alike s) (hcoherent : u.Coherent) :
    ∃ v, Recording.Throws bus (d.followRun layout) t u .stepLimit
      (t.addLine "step limit reached") v ∧ v.Alike s ∧ v.Coherent := by
  have hlook := does_waitHaltedOrOver hdebug hattentive (.inl hhalted)
  rw [if_pos hhalted] at hlook
  obtain ⟨v, hlooked, hv⟩ := hlook.returns u hu hcoherent
  have hfound : Recording.Returns bus (liftM d.waitHaltedOrOver) t u _ t v :=
    .lift hlooked _
  have hget : Recording.Returns bus (get : Tracing Trace) t v t t v :=
    (Recording.returns_get _ _ _ _ _).mpr ⟨rfl, rfl, rfl⟩
  obtain ⟨fuel, hfuel⟩ := Nat.exists_eq_succ_of_ne_zero (Nat.pos_iff_ne_zero.mp hfuel)
  have hline : Recording.Returns bus
      (modify fun t => t.addLine "step limit reached" : Tracing Unit) t v ()
      (t.addLine "step limit reached") v :=
    (Recording.returns_modify _ _ _ _ _ _).mpr ⟨rfl, rfl⟩
  refine ⟨v, ?_, (hlook.only u _ v hu hlooked).2, hv⟩
  rw [followRun]
  refine hfound.throws (hget.throws ?_)
  rw [if_pos hentry, hfuel]
  refine hget.throws (hget.throws ?_)
  rw [if_pos hlimit]
  exact hline.throws ((Recording.throws_throw _ _ _ _ _ _).mpr ⟨rfl, rfl, rfl⟩)

/-- On the guarded engine, a trace that gives up ends in an error of its own while the
multiplication is still in progress. -/
theorem multiplyTraced_guarded97 :
    ∃ trace' t, Recording.Throws bus (hasty.multiplyTraced ⟨[3], [6]⟩ [21]) stepless guarded97
      .stepLimit trace' t ∧ t.Alike released97 := by
  have hcoherent := reachable_guarded97.coherent
  have hfits : hasty.OperandsFit guarded97 ⟨[3], [6]⟩ [21] :=
    ⟨fits_of_le (by decide), fits_of_le (by decide), fits_of_le (by decide)⟩
  obtain ⟨u, hload, hready⟩ := (does_loadMultiplication hfits).returns guarded97 (.refl _)
    ⟨⟨hcoherent, rfl, by decide⟩, rfl⟩
  have hu := ((does_loadMultiplication hfits).only _ _ u (.refl _) hload).2
  have hlegible : Legible hasty (hasty.loaded guarded97 ⟨[3], [6]⟩ [21]) :=
    ⟨⟨rfl, by decide, rfl, rfl⟩, by decide, by decide, rfl⟩
  obtain ⟨w, hw, hwc, hsame⟩ := leads_traceRun hlegible (by decide) stepless u hu hready.coherent
  have hentry : (⟨(DebugSnapshot.ofWord entered97.sequencer.statusWord).pc,
      (DebugSnapshot.ofWord entered97.sequencer.statusWord).state⟩ : Spot) =
        TracePoints.standard.entry := by decide +kernel
  obtain ⟨x, hfollow, hx, hxc⟩ := followRun_gives_up (d := hasty) (s := entered97)
    (by decide +kernel) (by decide) (by decide +kernel) (t := stepless.opened _ _) rfl (by decide)
    hentry _ hw hwc
  obtain ⟨v, hrelease, hv⟩ := release_guarded97 hxc hx
  obtain ⟨trace', hrun⟩ : ∃ trace', Recording.Throws bus hasty.traceRun stepless u .stepLimit
      trace' v := ⟨_, (hsame _ _ _).mpr (throws_followAndRelease hfollow hrelease)⟩
  have hnotify : Recording.Returns bus (liftM (notify (.multiplication true)) : Tracing Unit)
      stepless guarded97 () stepless guarded97 :=
    Recording.returns_notify _ stepless guarded97
  have hdebug : Recording.Returns bus (liftM hasty.ensureDebug : Tracing Unit) stepless guarded97 ()
      stepless guarded97 :=
    .lift ((returns_ensureDebug rfl _).mpr rfl) stepless
  have hloaded : Recording.Returns bus (liftM (hasty.loadMultiplication ⟨[3], [6]⟩ [21]))
      stepless guarded97 _ stepless u := .lift hload stepless
  have hthrows : Recording.Throws bus (hasty.multiplyTraced ⟨[3], [6]⟩ [21]) stepless guarded97
      .stepLimit trace' v := by
    rw [multiplyTraced]
    exact hnotify.throws (hdebug.throws (hloaded.throws hrun.bind))
  exact ⟨trace', v, hthrows, hv⟩

/-- **A traced multiplication may leave the engine stuck.** The breakpoint on the ladder,
armed by the caller, halts the run again after it has been let go. -/
theorem multiplyTraced_stuck :
    Reachable guarded97 ∧ guarded97.params.debug = true ∧ guarded97.multiplying = false ∧
      max guarded97.params.latency 3 < hasty.checks ∧
      ∃ trace' t, Recording.Throws bus (hasty.multiplyTraced ⟨[3], [6]⟩ [21]) stepless guarded97
        .stepLimit trace' t ∧ t.multiplying = true := by
  obtain ⟨trace', t, hthrows, ht⟩ := multiplyTraced_guarded97
  refine ⟨reachable_guarded97, rfl, rfl, by decide, trace', t, hthrows, ?_⟩
  rw [ht.field State.multiplying fun _ => rfl]
  decide +kernel

/-- What the caller finds there: the engine is halted by the second breakpoint. -/
theorem multiplyTraced_leaves_guarded97 :
    ∃ trace' t id b p, Recording.Throws bus (hasty.multiplyTraced ⟨[3], [6]⟩ [21]) stepless
        guarded97 .stepLimit trace' t ∧ 1 ≤ id ∧
      guarded97.sequencer.breakpoints[id]? = some (some b) ∧ t.isHalted = true ∧
      t.HaltedBy id b p := by
  obtain ⟨trace', t, hthrows, ht⟩ := multiplyTraced_guarded97
  have hmultiplying : t.multiplying = true := by
    rw [ht.field State.multiplying fun _ => rfl]
    decide +kernel
  rcases multiplyTraced_leaves hasty guarded97 t ⟨[3], [6]⟩ [21] stepless trace' _
    reachable_guarded97 rfl rfl hthrows with hrests | ⟨id, b, p, _, hpos, -, harmed, hhalted, hby, -⟩
  · rw [hmultiplying] at hrests
    cases hrests
  · exact ⟨trace', t, id, b, p, hthrows, hpos, harmed, hhalted, hby⟩

end Driver

end CurveEngine
