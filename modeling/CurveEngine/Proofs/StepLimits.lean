import CurveEngine.Proofs.RunProgram
import CurveEngine.Proofs.StepBounds
import CurveEngine.Proofs.TracedReadings

/-! A traced multiplication under a step limit.

Without a limit a traced multiplication steps through the whole of its run behind the entry. A
limit that the run keeps to changes nothing; one that it exceeds cuts the trace short, at a
prefix of what would have been recorded, and the multiplication is let go from where it was
halted (`multiplyTraced_stepLimit`). -/
namespace CurveEngine
open Register Procedure Device Operation

/-! ### What a stretch of the run adds to a trace -/

namespace Trace
variable {stored layout : LimbLayout} {memory : FpMemory} {p : Position} {phase : TracePhase}

theorem notes_record (layout : LimbLayout) (memory : FpMemory) (p : Position) (phase : TracePhase) :
    Notes (record layout memory p phase) := by
  cases phase with
  | alpha | phi0 | phi1 | lambda => exact ⟨fun _ => rfl, fun _ => rfl, fun _ _ => rfl⟩
  | setup | zaddu | zaddc | subtractP | exit => exact .withStep _

/-- A trace that has counted one more step. -/
def counted (t : Trace) : Trace := { t with stepCount := t.stepCount + 1 }

theorem observe_eq (layout : LimbLayout) (memory : FpMemory) (p : Position) (t : Trace) :
    t.observe layout memory p =
      match t.options.points.phaseAt? p.spot with
      | some phase => t.counted.record layout memory p phase
      | none => t.counted := rfl

theorem stepCount_observe (layout : LimbLayout) (memory : FpMemory) (p : Position) (t : Trace) :
    (t.observe layout memory p).stepCount = t.stepCount + 1 := by
  rw [observe_eq]
  split
  · exact (notes_record ..).stepCount t.counted
  · rfl

theorem observe_limited (m : Nat) (t : Trace) :
    (t.limited m).observe layout memory p = (t.observe layout memory p).limited m := by
  have hpoints : (t.limited m).options.points = t.options.points := rfl
  rw [observe_eq, observe_eq, hpoints]
  split
  · exact (notes_record ..).limited m t.counted
  · rfl

theorem steps_addLines (lines : List String) (t : Trace) :
    (lines.foldl (fun t line => t.addLine line) t).steps = t.steps := by
  induction lines generalizing t with
  | nil => rfl
  | cons line rest ih => exact ih (t.addLine line)

theorem steps_record (t : Trace) :
    t.steps.toList <+: (t.record layout memory p phase).steps.toList := by
  have hstep (step : TraceStep) : t.steps.toList <+: (t.withStep step).steps.toList := by
    show _ <+: ((List.foldl _ t (Driver.stepLines step)).steps.push step).toList
    rw [steps_addLines, Array.toList_push]
    exact List.prefix_append _ _
  cases phase with
  | alpha | phi0 | phi1 | lambda => exact List.prefix_refl _
  | setup | zaddu | zaddc | subtractP | exit => exact hstep _

/-- A look adds steps at the end only. -/
theorem steps_observe (t : Trace) :
    t.steps.toList <+: (t.observe layout memory p).steps.toList := by
  rw [observe_eq]
  split
  · exact steps_record t.counted
  · exact List.prefix_refl _

theorem options_follow (positions : List Position) (memory : FpMemory) (t : Trace) :
    (t.follow stored layout positions memory).options = t.options := by
  induction positions generalizing memory t with
  | nil => rfl
  | cons p rest ih => exact (ih _ _).trans (options_observe ..)

theorem stepCount_follow (positions : List Position) (memory : FpMemory) (t : Trace) :
    (t.follow stored layout positions memory).stepCount = t.stepCount + positions.length := by
  induction positions generalizing memory t with
  | nil => rfl
  | cons p rest ih =>
    rw [follow, ih, stepCount_observe, List.length_cons]
    omega

theorem follow_limited (m : Nat) (positions : List Position) (memory : FpMemory) (t : Trace) :
    (t.limited m).follow stored layout positions memory =
      (t.follow stored layout positions memory).limited m := by
  induction positions generalizing memory t with
  | nil => rfl
  | cons p rest ih => rw [follow, follow, observe_limited, ih]

theorem follow_append (xs ys : List Position) (memory : FpMemory) (t : Trace) :
    t.follow stored layout (xs ++ ys) memory =
      (t.follow stored layout xs memory).follow stored layout ys
        (xs.foldl (memoryNext stored) memory) := by
  induction xs generalizing memory t with
  | nil => rfl
  | cons p rest ih => exact ih _ _

theorem steps_follow (positions : List Position) (memory : FpMemory) (t : Trace) :
    t.steps.toList <+: (t.follow stored layout positions memory).steps.toList := by
  induction positions generalizing memory t with
  | nil => exact List.prefix_refl _
  | cons p rest ih => exact (steps_observe t).trans (ih _ _)

/-- A random value stays as it is where its phase does not come up. -/
theorem random?_observe_of_ne (t : Trace) (hpoints : t.options.points = .standard)
    (h : p.phase? ≠ some phase) :
    (t.observe layout memory p).random? phase = t.random? phase := by
  have hlook : t.options.points.phaseAt? p.spot = p.phase? := by rw [hpoints]; rfl
  have hcounted : t.counted.random? phase = t.random? phase := by cases phase <;> rfl
  rw [observe_eq, hlook]
  cases hphase : p.phase? with
  | none => exact hcounted
  | some other =>
    have hother : other ≠ phase := fun hsame => h (hphase.trans (congrArg some hsame))
    refine Eq.trans ?_ hcounted
    cases hdrawn : other.drawn? with
    | none =>
      show (t.counted.record layout memory p other).random? phase = _
      rw [record_eq _ _ _ hdrawn, random?_withStep]
    | some slot => exact (random?_record_drawn _ _ _ hdrawn phase _).trans (if_neg hother)

theorem random?_follow_of_ne {positions : List Position} (memory : FpMemory) (t : Trace)
    (hpoints : t.options.points = .standard) (h : ∀ p ∈ positions, p.phase? ≠ some phase) :
    (t.follow stored layout positions memory).random? phase = t.random? phase := by
  induction positions generalizing memory t with
  | nil => rfl
  | cons p rest ih =>
    have hrest := ih (memoryNext stored memory p) (t.observe layout (memoryNext stored memory p) p)
      (by rw [options_observe, hpoints]) fun q hq => h q (List.mem_cons_of_mem _ hq)
    exact hrest.trans (random?_observe_of_ne t hpoints (h p List.mem_cons_self))

/-- Where a phase comes up once at most, a random value that has been noted is not noted again. -/
theorem random?_cut {xs ys : List Position} (memory : FpMemory) (t : Trace)
    (hpoints : t.options.points = .standard) (hnone : t.random? phase = none)
    (honce : ((xs ++ ys).filterMap (Position.random? phase)).length ≤ 1) :
    (t.follow stored layout xs memory).random? phase = none ∨
      (t.follow stored layout xs memory).random? phase =
        (t.follow stored layout (xs ++ ys) memory).random? phase := by
  cases hdrawn : phase.drawn? with
  | none =>
    left
    cases phase with
    | alpha | phi0 | phi1 | lambda => cases hdrawn
    | setup | zaddu | zaddc | subtractP | exit => rfl
  | some slot =>
    have hnotes {p : Position} (h : p.phase? = some phase) :
        p.random? phase = some (p.stored slot) := by
      rw [Position.random?, if_pos h, hdrawn, Option.map_some]
    by_cases hxs : ∀ p ∈ xs, p.phase? ≠ some phase
    · exact .inl ((random?_follow_of_ne memory t hpoints hxs).trans hnone)
    · -- the phase has come up in the first part, and so does not come up in the second
      right
      simp only [ne_eq, not_forall, not_not] at hxs
      obtain ⟨p, hp, hphase⟩ := hxs
      have hpos : 0 < (xs.filterMap (Position.random? phase)).length :=
        List.length_pos_of_mem (List.mem_filterMap.mpr ⟨p, hp, hnotes hphase⟩)
      rw [List.filterMap_append, List.length_append] at honce
      have hys : ∀ q ∈ ys, q.phase? ≠ some phase := by
        intro q hq hphase
        have hless : 0 < (ys.filterMap (Position.random? phase)).length :=
          List.length_pos_of_mem (List.mem_filterMap.mpr ⟨q, hq, hnotes hphase⟩)
        omega
      rw [follow_append, random?_follow_of_ne _ _ (by rw [options_follow, hpoints]) hys]

/-- What a trace that was cut short after `m` steps has of the whole one. -/
structure CutOf (m : Nat) (whole cut : Trace) : Prop where
  stepCount : cut.stepCount = m
  steps : cut.steps.toList <+: whole.steps.toList
  alpha : cut.alpha = none ∨ cut.alpha = whole.alpha
  phi0 : cut.phi0 = none ∨ cut.phi0 = whole.phi0
  phi1 : cut.phi1 = none ∨ cut.phi1 = whole.phi1
  lambda : cut.lambda = none ∨ cut.lambda = whole.lambda

end Trace

namespace LadderRun

/-- What a traced run steps through: all of the run but its first opcode. -/
def behind (run : LadderInputs) : List Position := middle run ++ [finishAt (lastFrame run)]

theorem pending_behind (run : LadderInputs) :
    (start run).pending = entryAt run :: behind run := pending_ends run

theorem length_behind (run : LadderInputs) :
    (behind run).length = 39 + 16 * run.bits + if run.randoms.alpha.isSome then 4 else 0 := by
  have hlength := length_start run
  rw [positions_start, pending_behind, List.length_cons] at hlength
  omega

theorem randoms_behind (run : LadderInputs) (phase : TracePhase) :
    ((behind run).filterMap (Position.random? phase)).length ≤ 1 := by
  have hentry : (entryAt run).random? phase = none := by
    rw [Position.random?, Driver.phase?_entryAt, if_neg (Option.some_ne_none phase).symm]
  rw [behind, Driver.filterMap_behind hentry, randoms_pending]
  exact Option.length_toList_le

/-- Only the last opcode of a run is at the last spot. -/
theorem spot_take_behind (run : LadderInputs) {m : Nat} (hm : m < (behind run).length) :
    ∀ p ∈ (behind run).take m, p.spot ≠ TracePoints.standard.last := by
  intro p hp
  rw [behind, List.length_append, List.length_singleton] at hm
  rw [behind, List.take_append_of_le_length (Nat.le_of_lt_succ hm)] at hp
  exact spot_middle (List.mem_of_mem_take hp)

end LadderRun

/-- What a traced multiplication records of opcodes, once its operands are loaded. -/
def Device.State.recorded (s : State) (opcodes : List Position) (t : Trace) : Trace :=
  (t.opened (s.size % 2 ^ 16) s.shown).follow s.limbLayout s.shown opcodes s.fp

theorem Device.State.recorded_limited (s : State) (opcodes : List Position) (m : Nat) (t : Trace) :
    s.recorded opcodes (t.limited m) = (s.recorded opcodes t).limited m :=
  Trace.follow_limited m opcodes s.fp (t.opened (s.size % 2 ^ 16) s.shown)

theorem Device.State.stepCount_recorded (s : State) (opcodes : List Position) (t : Trace) :
    (s.recorded opcodes t).stepCount = opcodes.length :=
  (Trace.stepCount_follow ..).trans (Nat.zero_add _)

/-- The trace of the first `m` opcodes of a run is a cut of the trace of all of them. -/
theorem Trace.cutOf_recorded (s : State) {run : LadderInputs} {t : Trace} {m : Nat}
    (hpoints : t.options.points = .standard) (hm : m < (LadderRun.behind run).length) :
    CutOf m (s.recorded (LadderRun.behind run) t)
      ((s.recorded ((LadderRun.behind run).take m) (t.limited m)).addLine "step limit reached") := by
  rw [s.recorded_limited]
  generalize hxs : (LadderRun.behind run).take m = xs
  generalize hys : (LadderRun.behind run).drop m = ys
  have hpath : xs ++ ys = LadderRun.behind run := by rw [← hxs, ← hys, List.take_append_drop]
  have hrandom (phase : TracePhase) : (s.recorded xs t).random? phase = none ∨
      (s.recorded xs t).random? phase = (s.recorded (xs ++ ys) t).random? phase :=
    random?_cut s.fp (t.opened (s.size % 2 ^ 16) s.shown) hpoints (by cases phase <;> rfl)
      (by rw [hpath]; exact LadderRun.randoms_behind run phase)
  have hsteps : (s.recorded xs t).steps.toList <+: (s.recorded (xs ++ ys) t).steps.toList := by
    rw [State.recorded, State.recorded, follow_append]
    exact steps_follow ys _ _
  rw [hpath] at hrandom hsteps
  refine ⟨?_, hsteps, hrandom .alpha, hrandom .phi0, hrandom .phi1, hrandom .lambda⟩
  show (s.recorded xs t).stepCount = m
  rw [s.stepCount_recorded, ← hxs, List.length_take, Nat.min_eq_left (Nat.le_of_lt hm)]

namespace Driver
variable {d : Driver} {s : State}

/-! ### A run that is cut short -/

/-- At its limit, stepping ends in an error of its own. -/
theorem stepOpcodes_throws {layout : LimbLayout} {t : Trace} (hlimit : t.atLimit = true) (fuel : Nat)
    (u : State) :
    Recording.Throws bus (d.stepOpcodes layout (fuel + 1)) t u .stepLimit
      (t.addLine "step limit reached") u := by
  rw [Recording.Throws, stepOpcodes_succ, if_pos hlimit]
  exact Recording.Returns.throws ((Recording.returns_modify _ _ _ _ _ ()).mpr ⟨rfl, rfl⟩)
    ((Recording.throws_throw _ _ _ _ _ _).mpr ⟨rfl, rfl, rfl⟩)

/-- Stepping up to its limit, which it meets before the last spot. -/
theorem stepOpcodes_cut (h : Stepping d s) (layout : LimbLayout) {before : List Position}
    {passed rest : List Position} {result : Point} {hit : Option Nat} {t : Trace}
    (hbefore : ∀ q ∈ before, q.spot ≠ t.options.points.last)
    (hlimit : t.options.maxSteps = some (t.stepCount + before.length)) {fuel : Nat}
    (hfuel : before.length < fuel) {u : State} (hcoherent : u.Coherent)
    (hu : u.Alike (s.haltedAt ⟨passed, before ++ rest, result⟩ hit)) :
    ∃ v hit', Recording.Throws bus (d.stepOpcodes layout fuel) t u .stepLimit
        ((t.follow s.limbLayout layout before (State.memoryAfter s.limbLayout passed s.fp)).addLine
          "step limit reached") v ∧ v.Coherent ∧
      v.Alike (s.haltedAt ⟨before.reverse ++ passed, rest, result⟩ hit') := by
  obtain ⟨fuel, rfl⟩ := Nat.exists_eq_succ_of_ne_zero (Nat.ne_zero_of_lt hfuel)
  induction before generalizing passed hit t u fuel with
  | nil =>
    have hreached : t.atLimit = true := by
      rw [Trace.atLimit, hlimit]
      exact decide_eq_true (Nat.le_refl _)
    exact ⟨u, hit, stepOpcodes_throws hreached fuel u, hcoherent, hu⟩
  | cons q before ih =>
    have hbelow : t.atLimit = false := by
      rw [Trace.atLimit, hlimit, List.length_cons]
      exact decide_eq_false (by omega)
    obtain ⟨w, hw, hwc, hsame⟩ := leads_opcode h layout passed (before ++ rest) q result hit hbelow
      fuel u hu hcoherent
    rw [if_neg (hbefore q List.mem_cons_self)] at hsame
    obtain ⟨fuel, rfl⟩ := Nat.exists_eq_succ_of_ne_zero
      (show fuel ≠ 0 from Nat.ne_zero_of_lt (Nat.lt_of_succ_lt_succ hfuel))
    obtain ⟨v, hit', hthrows, hvc, hv⟩ := ih
      (t := t.observe layout (State.memoryAfter s.limbLayout (q :: passed) s.fp) q)
      (by rw [Trace.options_observe]; exact fun a ha => hbefore a (List.mem_cons_of_mem _ ha))
      (by
        rw [Trace.options_observe, Trace.stepCount_observe, hlimit, List.length_cons]
        exact congrArg some (by omega))
      hwc hw fuel (Nat.lt_of_succ_lt_succ hfuel)
    refine ⟨v, hit', (hsame _ _ _).mpr hthrows, hvc, ?_⟩
    rwa [List.reverse_cons, List.append_assoc, List.singleton_append]

/-! ### Waiting for an engine that has been let go -/

/-- A driver that has waited for a busy engine has more checks than that. -/
theorem waitIdle_outwaits {t : State} (h : Returns bus d.waitIdle s () t) : s.busy < d.checks := by
  obtain ⟨exhausted, hspent, -, hpoll⟩ := d.pollUntil_eq d.isIdle
  rw [waitIdle, hpoll] at h
  generalize d.checks = count at h ⊢
  induction count generalizing s with
  | zero => exact absurd h (hspent s t)
  | succ count ih =>
    obtain ⟨b, u, hcheck, hrest⟩ := (returns_poll_succ count s t).mp h
    obtain ⟨hb, rfl⟩ := (ends_isIdle b).mp hcheck
    cases b with
    | true =>
      have hidle : s.busy = 0 := by
        by_contra hbusy
        rw [decide_eq_true (Nat.pos_of_ne_zero hbusy)] at hb
        cases hb
      omega
    | false =>
      have hless : s.busy - 1 < count := ih hrest
      omega

/-- A driver that has loaded the operands outwaits a command. -/
theorem loadMultiplication_outwaits {point : Coordinates} {k token : Bytes} {t : State}
    (h : Returns bus (d.loadMultiplication point k) s token t) : s.params.latency < d.checks := by
  simp only [loadMultiplication, writeNumber, openWrite, returns_bind] at h
  obtain ⟨flags, s₁, hsave, token', s₂, hfetch, _, s₃, ⟨words, s₄, hwords, _, s₅,
    ⟨_, s₆, hrandom, hopen⟩, -⟩, -⟩ := h
  have h₁ : s₁.params = s.params :=
    (does_saveFlags.only s flags s₁ (.refl s) hsave).2.field State.params fun _ => rfl
  have h₂ : s₂.params = s₁.params :=
    (does_fetchToken.only s₁ token' s₂ (.refl s₁) hfetch).2.field State.params fun _ => rfl
  have h₄ : s₄ = s₂ := (transferWords_fits hwords).2
  obtain ⟨hlike, hwarm⟩ := waitEnoughRandom_only hrandom
  have h₆ : s₆.params = s₄.params := hlike.field State.params fun _ => rfl
  obtain ⟨u, -, hu, hcooler, hresting, hsettle, -⟩ := writeSettled_only hopen
  have hparams : u.params = s.params := by
    rw [hu.field State.params fun _ => rfl, h₆, h₄, h₂, h₁]
  -- the command that opens the transfer of the scalar keeps the engine busy
  have hbusy : (u.writeSink .control
      (Command.writeScalar Destination.scalar.address).word.toUInt64).busy = s.params.latency := by
    show (u.control (UInt64.toUInt32 _)).busy = _
    rw [UInt32.toUInt32_toUInt64, control_writeScalar hresting (by omega), ← hparams]
    rfl
  obtain ⟨_, v, hwait, -⟩ := (returns_bind _ _ _ _ _).mp hsettle
  rw [← hbusy]
  exact waitIdle_outwaits hwait

theorem checkErrors_ends (d : Driver) (s : State) : ∃ x t, Ends bus d.checkErrors.run s x t := by
  by_cases hclear : Status.errors.get s.readStatus.1 = 0
  · have hstatus : Returns bus (liftM d.status : Operation UInt32) s s.readStatus.1 s.readStatus.2 :=
      (returns_lift _ _ _ _).mpr ((ends_status _ _).mpr ⟨rfl, rfl⟩)
    refine ⟨.ok (), s.readStatus.2, hstatus.ends_run_bind.mpr ?_⟩
    simp only [if_pos hclear]
    exact (returns_pure _ _ _ _).mpr ⟨rfl, rfl⟩
  · exact ⟨_, _, checkErrors_throws rfl hclear⟩

/-- A driver with a poll limit does not wait forever, whatever it waits for. -/
theorem waitIdle_ends_of_limit {limit : Nat} (hlimit : d.config.pollLimit = some limit) (s : State) :
    ∃ x t, Ends bus d.waitIdle.run s x t := by
  unfold waitIdle pollUntil
  rw [hlimit]
  clear hlimit
  induction limit generalizing s with
  | zero => exact ⟨_, s, (throws_throw _ _ _ _).mpr ⟨rfl, rfl⟩⟩
  | succ limit ih =>
    have hcheck : Returns bus (liftM d.isIdle : Operation Bool) s _ s.readStatus.2 :=
      (returns_lift _ _ _ _).mpr ((ends_isIdle _).mpr ⟨rfl, rfl⟩)
    cases hidle : !(decide (s.busy > 0) || decide (s.init > 0) || s.multiplying) with
    | true =>
      rw [hidle] at hcheck
      exact ⟨.ok (), _, hcheck.ends_run_bind.mpr ((returns_pure _ _ _ _).mpr ⟨rfl, rfl⟩)⟩
    | false =>
      rw [hidle] at hcheck
      obtain ⟨x, t, hrest⟩ := ih s.readStatus.2
      exact ⟨x, t, hcheck.ends_run_bind.mpr hrest⟩

/-- Settling an engine at rest comes to an end, if only because the driver gives up. -/
theorem settle_ends (hs : s.Coherent) (hresting : s.multiplying = false)
    (hpatient : d.config.pollLimit = none → max s.params.latency 3 < d.checks) :
    ∃ x t, Ends bus d.settle.run s x t := by
  have hwait : ∃ x t, Ends bus d.waitIdle.run s x t := by
    cases hlimit : d.config.pollLimit with
    | none =>
      obtain ⟨t, hwait, -⟩ := waitIdle_ends ⟨hs, hresting, hpatient hlimit⟩
      exact ⟨.ok (), t, hwait⟩
    | some limit => exact waitIdle_ends_of_limit hlimit s
  obtain ⟨x, t, hwait⟩ := hwait
  cases x with
  | ok _ =>
    obtain ⟨y, u, hcheck⟩ := d.checkErrors_ends t
    exact ⟨y, u, Returns.ends_run_bind hwait |>.mpr hcheck⟩
  | error e => exact ⟨.error e, t, Throws.bind hwait⟩

/-- A multiplication that was halted is over when it has been released, and nothing is armed any
more, whether the driver has waited long enough for it or has given up. -/
theorem release_ends {address : UInt32} {run : LadderRun} {hit : Option Nat}
    (hdebug : s.params.debug = true) (hunarmed : s.sequencer.UnarmedBeyond)
    (hpatient : d.config.pollLimit = none → max s.params.latency 3 < d.checks) {u : State}
    (hcoherent : u.Coherent) (hu : u.Alike ((s.launchedBehind address).haltedAt run hit)) :
    ∃ x v, Ends bus d.release.run u x v ∧ v.multiplying = false ∧ v.sequencer.Unarmed := by
  have hremove := does_removeBreakpoint (d := d) (s := (s.launchedBehind address).haltedAt run hit)
    hdebug
  have hresume : Does State.Coherent d.resume (((s.launchedBehind address).haltedAt run
      hit).withBreakpoints _) () _ := does_resumeFinish hdebug hunarmed
  generalize hended : (s.disarmed.begun.launched.after
    ⟨run.pending.reverse ++ run.passed, [], run.result⟩).finish = ended at hresume
  obtain ⟨w, hremoved, hwc⟩ := hremove.returns u hu hcoherent
  have hw := (hremove.only u () w hu hremoved).2
  obtain ⟨y, hresumed, hyc⟩ := hresume.returns w hw hwc
  have hy := (hresume.only w () y hw hresumed).2
  have hleft : s.Over ended := by
    rw [← hended]
    exact s.over_finish _
  have hsequencer : y.sequencer = ended.sequencer := hy.field State.sequencer fun _ => rfl
  obtain ⟨x, v, hsettle⟩ := settle_ends (d := d) hyc
    ((hy.field State.multiplying fun _ => rfl).trans hleft.resting)
    (by rw [hy.field State.params fun _ => rfl, hleft.params]; exact hpatient)
  have hkept : v.sequencer = ended.sequencer :=
    (((upholds_sequencer y.sequencer).paired d).settle.keeps rfl hsettle).trans hsequencer
  refine ⟨x, v, hremoved.ends_run_bind.mpr (hresumed.ends_run_bind.mpr hsettle), ?_, ?_⟩
  · rw [State.multiplying, hkept]
    exact hleft.resting
  · rw [hkept]
    exact hleft.unarmed

/-! ### Two traces of one run -/

/-- The start of a traced run that returns has left the multiplication started, however long it
has waited. -/
theorem startTraced_only (h : Legible d s) {t t₁ : Trace} {layout : LimbLayout} {u v : State}
    (hu : u.Alike s) (hreturns : Recording.Returns bus d.startTraced t u layout t₁ v) :
    layout = s.shown ∧ t₁ = t.opened (s.size % 2 ^ 16) s.shown ∧
      v.Alike (s.armedAt t.options.points.entry.pc).begun.startMultiplication := by
  simp only [startTraced, Recording.returns_bind, Recording.returns_lift,
    Recording.returns_procedure] at hreturns
  obtain ⟨_, _, u₁, ⟨rfl, hensure⟩, size, _, u₂, ⟨rfl, hsize⟩, width, t, u₃, ⟨rfl, hwidth⟩,
    hrest⟩ := hreturns
  have hu₁ := ((does_ensureDebug h.debug).only u () u₁ hu hensure).2
  obtain ⟨rfl, hu₂⟩ := does_size.only u₁ size u₂ hu₁ ((returns_lift _ _ _ _).mpr hsize)
  obtain ⟨rfl, hu₃⟩ := (does_limbWidth h.debug).only u₂ width u₃ hu₂ hwidth
  rw [h.limbWidth_word, if_neg h.limbWidth_valid] at hrest
  simp only [Recording.returns_bind, Recording.returns_modify, Recording.returns_get,
    Recording.returns_lift, Recording.returns_procedure, Recording.returns_pure] at hrest
  obtain ⟨_, t₂, u₄, ⟨ht₂, hu₄⟩, t₃, t₄, u₅, ⟨ht₃, ht₄, hu₅⟩, _, t₅, u₆, ⟨ht₅, harm⟩, _, t₆, u₇,
    ⟨ht₆, hwait⟩, _, t₇, u₈, ⟨ht₇, hwrite⟩, hlayout, ht₁, hv⟩ := hrest
  have hpoints : t₃.options.points = t.options.points := by rw [ht₃, ht₂]; rfl
  rw [hpoints] at harm
  have hu₆ := ((does_setBreakpoint h.debug _).only u₅ () u₆ (by rwa [hu₅, hu₄]) harm).2
  have hu₇ := (waitIdle_only hwait).1.trans hu₆
  have hstart := does_start (d := d) (s := s.armedAt t.options.points.entry.pc) h.resting
  have hu₈ := (hstart.only u₇ () u₈ hu₇ ((returns_lift _ _ _ _).mpr hwrite)).2
  refine ⟨hlayout, ?_, hv ▸ hu₈⟩
  rw [ht₁, ht₇, ht₆, ht₅, ht₄, ht₂]
  rfl

variable {t t' : Trace} {u v : State} {m : Nat}

/-- A traced run that has returned within a limit returns under it, and leaves the same state. -/
theorem traceRun_within (h : Recording.Returns bus d.traceRun t u () t' v) (hm : t'.stepCount ≤ m) :
    Recording.Returns bus d.traceRun (t.limited m) u () (t'.limited m) v := by
  rw [traceRun_eq] at h ⊢
  obtain ⟨layout, t₁, w, hstart, hrest⟩ := (Recording.returns_bind ..).mp h
  obtain ⟨x, hfollow, hrelease⟩ := (returns_followAndRelease ..).mp hrest
  exact (Recording.returns_bind ..).mpr ⟨layout, _, w, blind_startTraced.under m hstart,
    (returns_followAndRelease ..).mpr ⟨x, followRun_within hfollow hm, hrelease⟩⟩

/-- A traced run that returns has stepped through the run of the engine, within its fuel. -/
theorem traceRun_recorded (h : Traceable d s) (hpoints : t.options.points = .standard)
    (hcoherent : u.Coherent) (hu : u.Alike s)
    (hreturns : Recording.Returns bus d.traceRun t u () t' v) :
    t' = s.recorded (LadderRun.behind s.begun.inputs) t ∧
      (LadderRun.behind s.begun.inputs).length ≤ d.fuel := by
  have hrecorded : t' = s.recorded (LadderRun.behind s.begun.inputs) t :=
    traceRun_follows h hpoints hcoherent hu hreturns
  refine ⟨hrecorded, ?_⟩
  obtain ⟨w, -, -, hrest⟩ := traceRun_starts h.legible hcoherent hu hreturns
  obtain ⟨x, hfollow, -⟩ := (returns_followAndRelease ..).mp hrest
  have hcounts := followRun_counts hfollow
  rw [hrecorded, s.stepCount_recorded] at hcounts
  exact Nat.le_trans hcounts (Nat.le_of_eq (Nat.zero_add _))

/-- A traced run that exceeds its limit is cut short there, and let go. -/
theorem traceRun_cut (h : Traceable d s) (hpoints : t.options.points = .standard)
    (hpatient : d.config.pollLimit = none → max s.params.latency 3 < d.checks)
    (hcoherent : u.Coherent) (hu : u.Alike s)
    (hreturns : Recording.Returns bus d.traceRun t u () t' v)
    (hm : m < (LadderRun.behind s.begun.inputs).length) :
    ∃ w, Recording.Throws bus d.traceRun (t.limited m) u .stepLimit
        ((s.recorded ((LadderRun.behind s.begun.inputs).take m) (t.limited m)).addLine
          "step limit reached") w ∧ w.multiplying = false ∧ w.sequencer.Unarmed := by
  have hfuel := (traceRun_recorded h hpoints hcoherent hu hreturns).2
  have hon := (traceRun_only h hcoherent hu hreturns).1
  generalize hpath : LadderRun.behind s.begun.inputs = path at hm hfuel ⊢
  have hbefore : ∀ q ∈ path.take m, q.spot ≠ TracePoints.standard.last := by
    rw [← hpath] at hm ⊢
    exact LadderRun.spot_take_behind _ hm
  have hlength : (path.take m).length = m := by
    rw [List.length_take, Nat.min_eq_left (Nat.le_of_lt hm)]
  -- the start goes the same way, to where the run has halted at its entry
  rw [traceRun_eq] at hreturns ⊢
  obtain ⟨layout, t₁, x, hstart, -⟩ := (Recording.returns_bind ..).mp hreturns
  obtain ⟨rfl, rfl, hx⟩ := startTraced_only h.legible hu hstart
  have hstart' := blind_startTraced.under m hstart
  have hpending : (LadderRun.start s.disarmed.begun.inputs).pending =
      LadderRun.entryAt s.begun.inputs :: (path.take m ++ path.drop m) := by
    rw [inputs_disarmed, LadderRun.pending_behind, hpath, List.take_append_drop]
  rw [State.startMultiplication_entry hon h.idle hpending (by
    rw [hpoints]
    exact LadderRun.pc_entryAt _)] at hx
  have hstepping := h.stepping t.options.points.entry.pc
  obtain ⟨y, hy, hyc, hsame⟩ := leads_followRun hstepping s.shown []
    (path.take m ++ path.drop m) _ (some 0) (t := (t.opened (s.size % 2 ^ 16) s.shown).limited m)
    ((LadderRun.spot_entryAt s.begun.inputs).trans (by rw [← hpoints]; rfl)) x hx
    (Ends.coherent hstart hcoherent)
  obtain ⟨w, hit, hcut, hwc, hw⟩ := stepOpcodes_cut hstepping s.shown
    (t := (t.opened (s.size % 2 ^ 16) s.shown).limited m)
    (by rwa [show ((t.opened (s.size % 2 ^ 16) s.shown).limited m).options.points =
      TracePoints.standard from hpoints])
    (by rw [hlength]; exact congrArg some (Nat.zero_add m).symm)
    (show (path.take m).length < d.fuel by omega) hyc hy
  rw [State.limbLayout_launchedBehind, State.fp_launchedBehind] at hcut
  obtain ⟨released, v', hrelease, hrests, hdisarmed⟩ :=
    release_ends h.debug h.unarmed hpatient hwc hw
  exact ⟨v', hstart'.throws (throws_followAndRelease ((hsame _ _ _).mpr hcut) hrelease), hrests,
    hdisarmed⟩

/-! ### The call as a whole -/

variable {point : Coordinates} {k : Bytes} {trace : Trace}

/-- A multiplication that the engine accepts, and a driver that outwaits and outsteps it. -/
structure Accepts (d : Driver) (s : State) (point : Coordinates) (k : Bytes) : Prop where
  resting : s.multiplying = false
  clear : s.errors = 0
  fits : d.OperandsFit s point k
  onCurve : (d.loaded s point k).curve.contains (d.loaded s point k).pointR1 = true
  patient : max s.params.latency 3 < d.checks
  enough : (LadderRun.behind (d.loaded s point k).begun.inputs).length ≤ d.fuel

theorem loaded_disarmed : d.loaded s.disarmed point k = (d.loaded s point k).disarmed := rfl

/-- A traced multiplication that is over lets its result be collected. -/
theorem does_collectTraced (d : Driver) (s : State) (point : Coordinates) (k : Bytes) :
    Does (Ready d) (d.collectResult (d.tokenBytes s)) (d.loaded s point k).disarmed.begun.finished
      (d.collected (d.loaded s point k).disarmed.begun.finished (d.tokenBytes s))
      (d.afterPoint (d.loaded s point k).disarmed.begun.finished .r1) := by
  have htoken := length_token (d := d) (s := s.disarmed) point k
  rw [loaded_disarmed] at htoken
  exact does_collectResult htoken

/-- Without a limit, a multiplication that is accepted returns when it is traced. -/
theorem Traceable.multiplyTraced_returns (h : Traceable d s) (hcoherent : s.Coherent)
    (haccepts : d.Accepts s point k) (hpoints : trace.options.points = .standard)
    (hunlimited : trace.options.maxSteps = none) :
    ∃ out trace' t, Recording.Returns bus (d.multiplyTraced point k) trace s out trace' t := by
  obtain ⟨s₁, hload, hready⟩ := (does_loadMultiplication haccepts.fits).returns s (.refl s)
    ⟨⟨hcoherent, haccepts.resting, haccepts.patient⟩, haccepts.clear⟩
  obtain ⟨-, hs₁, -, -⟩ := loadMultiplication_only hcoherent hload
  have hfuel := haccepts.enough
  rw [LadderRun.behind, List.length_append, List.length_singleton] at hfuel
  have hpending := LadderRun.pending_ends (d.loaded s point k).disarmed.begun.inputs
  obtain ⟨trace', s₂, hrun, hs₂c⟩ := traceRun_returns (h.loaded point k) haccepts.patient
    haccepts.onCurve (t := trace) hpending (by rw [hpoints]; exact LadderRun.pc_entryAt _)
    (by rw [hpoints]; exact LadderRun.spot_entryAt _)
    (by rw [hpoints]; exact fun a ha => LadderRun.spot_middle ha)
    (by rw [hpoints]; exact LadderRun.spot_finishAt _) hunlimited
    (by rw [inputs_disarmed]; exact hfuel) hready.coherent hs₁
  have hs₂ := (traceRun_only (h.loaded point k) hready.coherent hs₁ hrun).2
  have hover := (d.loaded s point k).over_finished
  obtain ⟨t, hcollect, -⟩ := ((does_collectTraced d s point k).coherent hover.resting
    (hover.errors.trans haccepts.clear) (hover.params.symm ▸ haccepts.patient)).returns s₂ hs₂ hs₂c
  exact ⟨_, trace', t, (returns_multiplyTraced h.debug _ _ _ _).mpr
    ⟨_, s₁, s₂, hload, hrun, hcollect⟩⟩

/-- Where a traced multiplication has returned, the operands had been loaded, their run was traced
and its result collected, and the driver outwaits a command. -/
theorem multiplyTraced_course (hcoherent : s.Coherent) (hdebug : s.params.debug = true)
    (hpos : 1 ≤ s.params.limbWidth) (hle : s.params.limbWidth ≤ 32)
    (hunarmed : s.sequencer.UnarmedBeyond) {out : PointAnswer}
    (h : Recording.Returns bus (d.multiplyTraced point k) trace s out t u) :
    Traceable d s ∧ s.params.latency < d.checks ∧ ∃ s₁ s₂,
      Returns bus (d.loadMultiplication point k) s (d.tokenBytes s) s₁ ∧ s₁.Coherent ∧
        s₁.Alike (d.loaded s point k) ∧ Recording.Returns bus d.traceRun trace s₁ () t s₂ ∧
        Returns bus (d.collectResult (d.tokenBytes s)) s₂ out u := by
  obtain ⟨_, s₁, s₂, hload, hrun, hcollect⟩ := (returns_multiplyTraced hdebug _ _ _ _).mp h
  obtain ⟨rfl, hs₁, hs₁c, hclear⟩ := loadMultiplication_only hcoherent hload
  obtain ⟨hrests, hattentive⟩ := loadMultiplication_rests hload
  have hresting : s.multiplying = false :=
    (hs₁.field State.multiplying fun _ => rfl).symm.trans hrests
  have htraceable : Traceable d s :=
    ⟨⟨hdebug, hattentive, hresting, hcoherent.idle hresting⟩, hpos, hle, hclear, hunarmed⟩
  exact ⟨htraceable, loadMultiplication_outwaits hload, s₁, s₂, hload, hs₁c, hs₁, hrun, hcollect⟩

/-- A traced multiplication that has returned within a limit returns the same under it. -/
theorem multiplyTraced_within (hdebug : s.params.debug = true) {out : PointAnswer}
    (h : Recording.Returns bus (d.multiplyTraced point k) trace s out t u) (hm : t.stepCount ≤ m) :
    Recording.Returns bus (d.multiplyTraced point k) (trace.limited m) s out (t.limited m) u := by
  obtain ⟨token, s₁, s₂, hload, hrun, hcollect⟩ := (returns_multiplyTraced hdebug _ _ _ _).mp h
  exact (returns_multiplyTraced hdebug _ _ _ _).mpr
    ⟨token, s₁, s₂, hload, traceRun_within hrun hm, hcollect⟩

/-- A traced multiplication that has returned leaves nothing in progress and nothing armed. -/
theorem multiplyTraced_rests (hcoherent : s.Coherent) (hdebug : s.params.debug = true)
    (hpos : 1 ≤ s.params.limbWidth) (hle : s.params.limbWidth ≤ 32)
    (hunarmed : s.sequencer.UnarmedBeyond) {out : PointAnswer}
    (h : Recording.Returns bus (d.multiplyTraced point k) trace s out t u) :
    u.multiplying = false ∧ u.sequencer.Unarmed := by
  obtain ⟨htraceable, -, s₁, s₂, -, hs₁c, hs₁, hrun, hcollect⟩ :=
    multiplyTraced_course hcoherent hdebug hpos hle hunarmed h
  have hs₂ := (traceRun_only (htraceable.loaded point k) hs₁c hs₁ hrun).2
  have hu := ((does_collectTraced d s point k).only s₂ out u hs₂ hcollect).2
  have hsequencer : u.sequencer = (d.loaded s point k).disarmed.begun.finished.sequencer :=
    hu.field State.sequencer fun _ => rfl
  rw [State.multiplying, hsequencer]
  exact ⟨(d.loaded s point k).over_finished.resting, (d.loaded s point k).over_finished.unarmed⟩

/-- A traced multiplication that exceeds its limit is cut short there, and let go. -/
theorem multiplyTraced_cut (hcoherent : s.Coherent) (hdebug : s.params.debug = true)
    (hpos : 1 ≤ s.params.limbWidth) (hle : s.params.limbWidth ≤ 32)
    (hunarmed : s.sequencer.UnarmedBeyond) (hpoints : trace.options.points = .standard)
    {out : PointAnswer}
    (h : Recording.Returns bus (d.multiplyTraced point k) trace s out t u)
    (hm : m < (LadderRun.behind (d.loaded s point k).begun.inputs).length) :
    ∃ v, Recording.Throws bus (d.multiplyTraced point k) (trace.limited m) s .stepLimit
        (((d.loaded s point k).recorded
          ((LadderRun.behind (d.loaded s point k).begun.inputs).take m) (trace.limited m)).addLine
            "step limit reached") v ∧ v.multiplying = false ∧ v.sequencer.Unarmed := by
  obtain ⟨htraceable, houtwaits, s₁, s₂, hload, hs₁c, hs₁, hrun, -⟩ :=
    multiplyTraced_course hcoherent hdebug hpos hle hunarmed h
  have hloaded := htraceable.loaded point k
  -- without a limit on its polls, the driver has as many checks as it has steps
  have hpatient : d.config.pollLimit = none → max s.params.latency 3 < d.checks := by
    intro hnone
    have hfuel := (traceRun_recorded hloaded hpoints hs₁c hs₁ hrun).2
    rw [LadderRun.length_behind] at hfuel
    have hchecks : d.checks = d.fuel := by rw [checks, hnone, Option.getD_none]
    omega
  obtain ⟨v, hcut, hrests, hdisarmed⟩ := traceRun_cut hloaded hpoints hpatient hs₁c hs₁ hrun hm
  have hlifted := (Recording.returns_lift _ (trace.limited m) (trace.limited m) s s₁ _).mpr
    ⟨rfl, hload⟩
  exact ⟨v, throws_multiplyTraced hdebug (hlifted.throws hcut.bind), hrests, hdisarmed⟩

/-- **The step limit of a traced multiplication.** A multiplication that is accepted returns when
it is traced without a limit, and its trace is that of all opcodes of the run behind the entry.
Under a limit it returns exactly where the limit is no less than their number, and then with the
same result and the same record. Where the limit is less, it throws the error of the limit with
that many steps counted, and with the record of as many opcodes: a prefix of the steps, and random
values that are not there yet or as without a limit. Either way no multiplication is left in
progress and no breakpoint armed. On any bus, a call that comes to open its trace counts no more
steps than its limit, and one that is refused before that leaves the trace as it was lent. -/
theorem multiplyTraced_stepLimit (d : Driver) (s : State) (point : Coordinates) (k : Bytes)
    (trace : Trace) (m : Nat) (hs : Reachable s) (hdebug : s.params.debug = true)
    (hpos : 1 ≤ s.params.limbWidth) (hle : s.params.limbWidth ≤ 32)
    (hunarmed : s.sequencer.UnarmedBeyond) (hpoints : trace.options.points = .standard)
    (hunlimited : trace.options.maxSteps = none) :
    let start := d.loaded s point k
    let path := LadderRun.behind start.begun.inputs
    (d.Accepts s point k →
      ∃ out whole t, Recording.Returns bus (d.multiplyTraced point k) trace s out whole t) ∧
    (∀ out whole t, Recording.Returns bus (d.multiplyTraced point k) trace s out whole t →
      whole = start.recorded path trace ∧ whole.stepCount = path.length ∧
      ((∃ out' trace' u, Recording.Returns bus (d.multiplyTraced point k) (trace.limited m) s out'
          trace' u) ↔ whole.stepCount ≤ m) ∧
      (whole.stepCount ≤ m →
        Recording.Returns bus (d.multiplyTraced point k) (trace.limited m) s out (whole.limited m) t ∧
          t.multiplying = false ∧ t.sequencer.Unarmed) ∧
      (m < whole.stepCount → ∃ cut u,
        Recording.Throws bus (d.multiplyTraced point k) (trace.limited m) s .stepLimit cut u ∧
          cut = (start.recorded (path.take m) (trace.limited m)).addLine "step limit reached" ∧
          Trace.CutOf m whole cut ∧ u.multiplying = false ∧ u.sequencer.Unarmed)) ∧
    ∀ {σ : Type} (β : Bus σ) (given : Trace), given.options.maxSteps = some m →
      ∀ x given' u v, Ends β ((d.multiplyTraced point k).on given) u (x, given') v →
        (StartsTrace β d point k u → given'.stepCount ≤ m) ∧
          (¬ StartsTrace β d point k u → given' = given) := by
  intro start path
  refine ⟨fun haccepts => ?_, fun out whole t h => ?_, fun β given hlimit x given' u v hends => ?_⟩
  · have htraceable : Traceable d s :=
      ⟨⟨hdebug, Nat.lt_of_le_of_lt (Nat.zero_le _) haccepts.patient, haccepts.resting,
        hs.coherent.idle haccepts.resting⟩, hpos, hle, haccepts.clear, hunarmed⟩
    exact htraceable.multiplyTraced_returns hs.coherent haccepts hpoints hunlimited
  · obtain ⟨htraceable, -, s₁, s₂, -, hs₁c, hs₁, hrun, -⟩ :=
      multiplyTraced_course hs.coherent hdebug hpos hle hunarmed h
    have hwhole : whole = start.recorded path trace :=
      (traceRun_recorded (htraceable.loaded point k) hpoints hs₁c hs₁ hrun).1
    have hcount : whole.stepCount = path.length := by rw [hwhole, State.stepCount_recorded]
    have hcut (hm : m < whole.stepCount) :=
      multiplyTraced_cut hs.coherent hdebug hpos hle hunarmed hpoints h (hcount ▸ hm)
    refine ⟨hwhole, hcount, ⟨fun ⟨out', trace', u, hreturns⟩ => ?_, fun hm => ?_⟩, fun hm => ?_,
      fun hm => ?_⟩
    · by_contra hm
      obtain ⟨v, hthrows, -⟩ := hcut (Nat.lt_of_not_le hm)
      cases (Ends.unique hreturns hthrows).1
    · exact ⟨out, _, t, multiplyTraced_within hdebug h hm⟩
    · exact ⟨multiplyTraced_within hdebug h hm,
        multiplyTraced_rests hs.coherent hdebug hpos hle hunarmed h⟩
    · obtain ⟨v, hthrows, hrests, hdisarmed⟩ := hcut hm
      refine ⟨_, v, hthrows, rfl, ?_, hrests, hdisarmed⟩
      rw [hwhole]
      exact Trace.cutOf_recorded start hpoints (hcount ▸ hm)
  · obtain ⟨hbegun, hrefused⟩ := multiplyTraced_bounded hlimit hends
    exact ⟨fun hstarts => (hbegun hstarts).within, hrefused⟩

/-- Twenty-one times the point `(3, 6)` takes 167 steps. Under that limit it returns; under one
of 100 steps it is cut short at the hundredth. -/
theorem multiplyTraced_stepLimit_curve97 :
    ∃ out whole t, Recording.Returns bus ((⟨{}, 1000⟩ : Driver).multiplyTraced ⟨[3], [6]⟩ [21])
        (.new ⟨none, none, .standard⟩) curve97 out whole t ∧ whole.stepCount = 167 ∧
      (∃ u, Recording.Returns bus ((⟨{}, 1000⟩ : Driver).multiplyTraced ⟨[3], [6]⟩ [21])
        (.new ⟨none, some 167, .standard⟩) curve97 out (whole.limited 167) u) ∧
      ∃ cut u, Recording.Throws bus ((⟨{}, 1000⟩ : Driver).multiplyTraced ⟨[3], [6]⟩ [21])
        (.new ⟨none, some 100, .standard⟩) curve97 .stepLimit cut u ∧ cut.stepCount = 100 ∧
          u.multiplying = false ∧ u.sequencer.Unarmed := by
  have hunarmed : curve97.sequencer.Unarmed := rfl
  have haccepts : (⟨{}, 1000⟩ : Driver).Accepts curve97 ⟨[3], [6]⟩ [21] :=
    ⟨rfl, rfl, ⟨fits_of_le (by decide), fits_of_le (by decide), fits_of_le (by decide)⟩,
      by decide +kernel, by decide, by rw [LadderRun.length_behind]; decide +kernel⟩
  have hlimits (m : Nat) := multiplyTraced_stepLimit ⟨{}, 1000⟩ curve97 ⟨[3], [6]⟩ [21]
    (.new ⟨none, none, .standard⟩) m reachable_curve97 rfl (by decide) (by decide) hunarmed.beyond
    rfl rfl
  obtain ⟨out, whole, t, hreturns⟩ := (hlimits 0).1 haccepts
  have hcount : whole.stepCount = 167 := by
    rw [((hlimits 0).2.1 out whole t hreturns).2.1, LadderRun.length_behind]
    decide +kernel
  obtain ⟨-, -, -, hwithin, -⟩ := (hlimits 167).2.1 out whole t hreturns
  obtain ⟨-, -, -, -, hbeyond⟩ := (hlimits 100).2.1 out whole t hreturns
  obtain ⟨cut, u, hthrows, -, hcut, hrests, hdisarmed⟩ := hbeyond (by omega)
  exact ⟨out, whole, t, hreturns, hcount, ⟨t, (hwithin (by omega)).1⟩, cut, u, hthrows,
    hcut.stepCount, hrests, hdisarmed⟩

end Driver

end CurveEngine
