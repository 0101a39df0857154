import CurveEngine.Proofs.TracedRun

/-! A traced multiplication and one that is not traced.

Both load the same operands and collect the result in the same way. Between the two the
traced one halts, is looked at and goes on; where it returns, the other one returns the
same point and leaves the same registers (`multiplyTraced_refines`). -/
namespace CurveEngine.Driver
open Register Procedure Device Operation

variable {d : Driver} {s : State} {point : Coordinates} {k : Bytes}

/-! ### The parts of a multiplication -/

theorem returns_multiply (out : PointAnswer) (t : State) :
    Returns bus (d.multiply point k) s out t ↔
      ∃ token s₁ s₂, Returns bus (d.loadMultiplication point k) s token s₁ ∧
        Returns bus (d.execute .multiply) s₁ () s₂ ∧
        Returns bus (d.collectResult token) s₂ out t := by
  simp only [multiply, returns_bind, returns_lift, ends_notify]
  constructor
  · rintro ⟨_, _, rfl, token, s₁, hload, _, s₂, hexecute, hcollect⟩
    exact ⟨token, s₁, s₂, hload, hexecute, hcollect⟩
  · rintro ⟨token, s₁, s₂, hload, hexecute, hcollect⟩
    exact ⟨(), s, rfl, token, s₁, hload, (), s₂, hexecute, hcollect⟩

theorem returns_ensureDebug (hdebug : s.params.debug = true) (t : State) :
    Returns bus d.ensureDebug s () t ↔ t = s := by
  have hbit : Ends bus d.isDebug s true s := (d.ends_isDebug true).mpr ⟨hdebug.symm, rfl⟩
  simp only [ensureDebug, returns_bind, returns_lift]
  constructor
  · rintro ⟨b, u, hb, hrest⟩
    obtain ⟨rfl, rfl⟩ := hbit.unique hb
    exact ((returns_pure _ _ _ _).mp hrest).2
  · rintro rfl
    exact ⟨true, t, hbit, (returns_pure _ _ _ _).mpr ⟨rfl, rfl⟩⟩

theorem returns_multiplyTraced (hdebug : s.params.debug = true) (trace trace' : Trace)
    (out : PointAnswer) (t : State) :
    Recording.Returns bus (d.multiplyTraced point k) trace s out trace' t ↔
      ∃ token s₁ s₂, Returns bus (d.loadMultiplication point k) s token s₁ ∧
        Recording.Returns bus d.traceRun trace s₁ () trace' s₂ ∧
        Returns bus (d.collectResult token) s₂ out t := by
  simp only [multiplyTraced, Recording.returns_bind, Recording.returns_procedure,
    Recording.returns_lift, ends_notify]
  constructor
  · rintro ⟨_, _, _, ⟨rfl, rfl⟩, _, _, _, ⟨rfl, hensure⟩, token, _, s₁, ⟨rfl, hload⟩, _, _, s₂,
      hrun, rfl, hcollect⟩
    obtain rfl := (returns_ensureDebug hdebug _).mp hensure
    exact ⟨token, s₁, s₂, hload, hrun, hcollect⟩
  · rintro ⟨token, s₁, s₂, hload, hrun, hcollect⟩
    exact ⟨(), _, s, ⟨rfl, rfl⟩, (), _, s, ⟨rfl, (returns_ensureDebug hdebug _).mpr rfl⟩, token, _, s₁,
      ⟨rfl, hload⟩, (), _, s₂, hrun, rfl, hcollect⟩

theorem throws_multiply {error : DriverError} {t : State}
    (h : Throws bus (d.multiply point k) s error t) :
    Throws bus (d.loadMultiplication point k) s error t ∨
      ∃ token s₁, Returns bus (d.loadMultiplication point k) s token s₁ ∧
        Throws bus (d.execute .multiply >>= fun _ => d.collectResult token) s₁ error t := by
  rw [multiply, throws_bind] at h
  rcases h with h | ⟨_, u, hnotify, h⟩
  · exact absurd h (not_throws_lift _ _ _ _)
  obtain rfl := (ends_notify _ _ _ _).mp ((returns_lift _ _ _ _).mp hnotify)
  exact (throws_bind _ _ _ _ _).mp h

/-- A traced multiplication throws what is thrown from the loading of its operands on. -/
theorem throws_multiplyTraced (hdebug : s.params.debug = true) {trace trace' : Trace} {t : State}
    {error : DriverError}
    (h : Recording.Throws bus (d.loadMultiplication point k >>= fun token =>
      d.traceRun >>= fun _ => d.collectResult token : Tracing PointAnswer) trace s error trace' t) :
    Recording.Throws bus (d.multiplyTraced point k) trace s error trace' t := by
  have htold : Recording.Returns bus (liftM (notify (.multiplication true))) trace s () trace s :=
    Recording.returns_notify _ trace s
  have hensured : Recording.Returns bus (liftM d.ensureDebug) trace s () trace s :=
    .lift ((returns_ensureDebug hdebug _).mpr rfl) trace
  rw [multiplyTraced]
  exact htold.throws (hensured.throws h)

/-- The last thing that loading does is a settled write. -/
theorem loadMultiplication_last {token : Bytes} {t : State}
    (h : Returns bus (d.loadMultiplication point k) s token t) :
    ∃ u word, Returns bus (d.writeSettled .r1Null word) u () t ∧ (s.Coherent → u.Coherent) := by
  simp only [loadMultiplication, restoreFlags, returns_bind, returns_pure] at h
  obtain ⟨flags, s₁, hsave, token', s₂, hfetch, _, s₃, hk, _, s₄, hpoint, _, s₅,
    ⟨_, s₆, hr0, hr1⟩, rfl, rfl⟩ := h
  exact ⟨s₆, _, hr1, fun hs => Ends.coherent hr0 (Ends.coherent hpoint (Ends.coherent hk
    (Ends.coherent hfetch (Ends.coherent hsave hs))))⟩

/-- Loading the operands leaves no error behind. -/
theorem loadMultiplication_clear (hs : s.Coherent) {token : Bytes} {t : State}
    (h : Returns bus (d.loadMultiplication point k) s token t) : t.errors = 0 := by
  obtain ⟨u, word, hlast, hcoherent⟩ := loadMultiplication_last h
  obtain ⟨-, -, -, -, -, -, -, -, hclear⟩ := writeSettled_only hlast
  exact hclear (hcoherent hs)

/-- Nothing is loaded while a multiplication is in progress, nor by a driver that does not
poll. -/
theorem loadMultiplication_rests {token : Bytes} {t : State}
    (h : Returns bus (d.loadMultiplication point k) s token t) :
    t.multiplying = false ∧ 0 < d.checks := by
  obtain ⟨u, word, hlast, -⟩ := loadMultiplication_last h
  obtain ⟨v, hwait, -, -, -, -, -, hresting, -⟩ := writeSettled_only hlast
  exact ⟨hresting, checks_pos hwait⟩

/-- What has been loaded when the operands have been loaded. -/
theorem loadMultiplication_only (hs : s.Coherent) {token : Bytes} {t : State}
    (h : Returns bus (d.loadMultiplication point k) s token t) :
    token = d.tokenBytes s ∧ t.Alike (d.loaded s point k) ∧ t.Coherent ∧ s.errors = 0 := by
  obtain ⟨rfl, ht⟩ := (does_loadMultiplication (loadMultiplication_fits h)).only s token t (.refl s) h
  have hsame : t.errors = s.errors := ht.field State.errors fun _ => rfl
  exact ⟨rfl, ht, Ends.coherent h hs, hsame.symm.trans (loadMultiplication_clear hs h)⟩

/-- Loading the operands does not get in the way of a trace. -/
theorem Traceable.loaded (h : Traceable d s) (point : Coordinates) (k : Bytes) :
    Traceable d (d.loaded s point k) :=
  ⟨h.frame rfl, h.limbWidth_pos, h.limbWidth_le, h.clear, h.unarmed⟩

/-! ### The refinement -/

/-- The registers that a multiplication leaves agree. -/
def SameRegisters (s t : State) : Prop :=
  s.numbers = t.numbers ∧ s.scalar = t.scalar ∧ s.r0Null = t.r0Null ∧ s.r1Null = t.r1Null ∧
    s.token = t.token ∧ s.sequencer.breakpoints = t.sequencer.breakpoints ∧ s.fp = t.fp ∧
    s.errors = t.errors

theorem SameRegisters.of_alike {t : State} (h : s.Alike t) : SameRegisters s t :=
  ⟨h.field State.numbers fun _ => rfl, h.field State.scalar fun _ => rfl,
    h.field State.r0Null fun _ => rfl, h.field State.r1Null fun _ => rfl,
    h.field State.token fun _ => rfl, h.field (fun u => u.sequencer.breakpoints) fun _ => rfl,
    h.field State.fp fun _ => rfl, h.field State.errors fun _ => rfl⟩

/-- An engine that nothing will halt, and a driver that outwaits it. -/
structure Undisturbed (d : Driver) (s : State) : Prop extends DebugIdle d s where
  coherent : s.Coherent
  patient : max s.params.latency 3 < d.checks
  limbWidth_pos : 1 ≤ s.params.limbWidth
  limbWidth_le : s.params.limbWidth ≤ limbWidthMax
  unarmed : s.sequencer.Unarmed
  unhalting : s.sequencer.haltPending = false

theorem Undisturbed.traceable (h : Undisturbed d s) (hclear : s.errors = 0) : Traceable d s :=
  ⟨h.toDebugIdle, h.limbWidth_pos, h.limbWidth_le, hclear, h.unarmed.beyond⟩

/-- Where nothing halts, loading is followed by the whole of the run. -/
theorem Undisturbed.does_execute (h : Undisturbed d s) (hclear : s.errors = 0)
    (hon : (d.loaded s point k).curve.contains (d.loaded s point k).pointR1 = true) :
    Does State.Coherent (d.execute .multiply) (d.loaded s point k) ()
      (d.loaded s point k).begun.finished :=
  (Driver.does_execute (d := d) (s := d.loaded s point k) h.idle h.resting hon h.unarmed
    h.unhalting).coherent h.resting hclear h.patient

/-- Where nothing halts, a traced multiplication that returns leaves what one that is not
traced leaves. -/
theorem Undisturbed.returns_of_traced (h : Undisturbed d s) {trace trace' : Trace}
    {out : PointAnswer} {t : State}
    (htraced : Recording.Returns bus (d.multiplyTraced point k) trace s out trace' t) :
    ∃ u, Returns bus (d.multiply point k) s out u ∧ t.Alike u := by
  obtain ⟨token, s₁, s₂, hload, hrun, hcollect⟩ :=
    (returns_multiplyTraced h.debug _ _ _ _).mp htraced
  have hfits := loadMultiplication_fits hload
  obtain ⟨rfl, hs₁, hcoherent, hclear⟩ := loadMultiplication_only h.coherent hload
  obtain ⟨hon, hs₂⟩ := traceRun_only ((h.traceable hclear).loaded point k) hcoherent hs₁ hrun
  rw [State.disarmed_eq (s := d.loaded s point k) h.unarmed] at hs₂
  obtain ⟨rfl, ht⟩ := (does_collectResult (length_token point k)).only s₂ out t hs₂ hcollect
  have hdoes := does_multiply hfits h.idle h.resting hon h.unarmed h.unhalting
  obtain ⟨u, hu, -⟩ := hdoes.returns s (.refl s) ⟨⟨h.coherent, h.resting, h.patient⟩, hclear⟩
  exact ⟨u, hu, ht.trans (hdoes.only s _ u (.refl s) hu).2.symm⟩

/-- A point that is multiplied without an error is on the curve. -/
theorem contains_of_execute (hs : s.Coherent) {t : State}
    (h : Returns bus (d.execute .multiply) s () t) : s.curve.contains s.pointR1 = true := by
  obtain ⟨u, -, hu, -, hresting, -, ht, -, hclear⟩ := writeSettled_only h
  rw [writeSink_multiply hresting] at ht
  cases hon : s.curve.contains s.pointR1 with
  | true => rfl
  | false =>
    have hoff : u.begun.curve.contains u.begun.pointR1 = false :=
      (hu.field (fun v => v.curve.contains v.pointR1) fun _ => rfl).trans hon
    rw [State.startMultiplication_refused hoff] at ht
    have herrors : t.errors = u.errors ||| HardwareError.inputNotOnCurve.mask :=
      ht.field State.errors fun _ => rfl
    rw [hclear hs] at herrors
    have hbit := congrArg (BitField.bitOf · 0) herrors
    rw [BitField.bitOf_or, show BitField.bitOf HardwareError.inputNotOnCurve.mask 0 = true by decide,
      Bool.or_true] at hbit
    cases hbit

/-- A multiplication that is over lets its result be collected. -/
theorem does_collectFinished (h : Traceable d s) (hpatient : max s.params.latency 3 < d.checks) :
    Does State.Coherent (d.collectResult (d.tokenBytes s)) (d.loaded s point k).begun.finished
      (d.collected (d.loaded s point k).begun.finished (d.tokenBytes s))
      (d.afterPoint (d.loaded s point k).begun.finished .r1) := by
  have hresting := (State.still_finish (s := (d.loaded s point k).begun.launched) rfl
    ⟨(LadderRun.start (d.loaded s point k).begun.inputs).pending.reverse, [],
      (LadderRun.start (d.loaded s point k).begun.inputs).result⟩).2
  have hparams : (d.loaded s point k).begun.finished.params = s.params := State.params_finished _
  refine (does_collectResult (length_token point k)).coherent hresting h.clear ?_
  rw [hparams]
  exact hpatient

/-- Where a multiplication returns, one that is traced at the standard points and without
a limit does, too. -/
theorem Undisturbed.traced_of_returns (h : Undisturbed d s) {trace : Trace}
    (hpoints : trace.options.points = .standard) (hunlimited : trace.options.maxSteps = none)
    (hfuel : (LadderRun.middle (d.loaded s point k).begun.inputs).length < d.fuel)
    {out : PointAnswer} {t : State} (huntraced : Returns bus (d.multiply point k) s out t) :
    ∃ out trace' t', Recording.Returns bus (d.multiplyTraced point k) trace s out trace' t' := by
  obtain ⟨token, s₁, s₂, hload, hexecute, -⟩ := (returns_multiply _ _).mp huntraced
  obtain ⟨rfl, hs₁, hcoherent, hclear⟩ := loadMultiplication_only h.coherent hload
  have htraceable := h.traceable hclear
  have hon : (d.loaded s point k).curve.contains (d.loaded s point k).pointR1 = true :=
    (hs₁.field (fun v => v.curve.contains v.pointR1) fun _ => rfl).symm.trans
      (contains_of_execute hcoherent hexecute)
  have hinputs : (d.loaded s point k).disarmed = d.loaded s point k :=
    State.disarmed_eq (s := d.loaded s point k) h.unarmed
  have hpending := LadderRun.pending_ends (d.loaded s point k).disarmed.begun.inputs
  obtain ⟨trace', s₃, hrun, hcoherent'⟩ := traceRun_returns (htraceable.loaded point k) h.patient hon
    (t := trace) hpending (by rw [hpoints]; exact LadderRun.pc_entryAt _)
    (by rw [hpoints]; exact LadderRun.spot_entryAt _)
    (by rw [hpoints]; exact fun a ha => LadderRun.spot_middle ha)
    (by rw [hpoints]; exact LadderRun.spot_finishAt _) hunlimited (by rwa [hinputs]) hcoherent hs₁
  obtain ⟨-, hs₃⟩ := traceRun_only (htraceable.loaded point k) hcoherent hs₁ hrun
  rw [hinputs] at hs₃
  obtain ⟨t', hcollect, -⟩ := (does_collectFinished htraceable h.patient).returns s₃ hs₃ hcoherent'
  exact ⟨_, trace', t', (returns_multiplyTraced h.debug _ _ _ _).mpr
    ⟨_, s₁, s₃, hload, hrun, hcollect⟩⟩

/-- A refusal of the point is thrown by a traced multiplication as by any other. -/
theorem Undisturbed.traced_throws (h : Undisturbed d s) (trace : Trace) {t : State}
    (huntraced : Throws bus (d.multiply point k) s (.hardware HardwareError.inputNotOnCurve.mask)
      t) :
    ∃ trace' t', Recording.Throws bus (d.multiplyTraced point k) trace s
      (.hardware HardwareError.inputNotOnCurve.mask) trace' t' := by
  rcases throws_multiply huntraced with hload | ⟨token, s₁, hload, hrest⟩
  · have hthrown := (Recording.throws_lift _ trace trace s t _).mpr ⟨rfl, hload⟩
    exact ⟨trace, t, throws_multiplyTraced h.debug hthrown.bind⟩
  obtain ⟨rfl, hs₁, hcoherent, hclear⟩ := loadMultiplication_only h.coherent hload
  have htraceable := h.traceable hclear
  cases hon : (d.loaded s point k).curve.contains (d.loaded s point k).pointR1 with
  | false =>
    have hloaded := (Recording.returns_lift _ trace trace s s₁ _).mpr ⟨rfl, hload⟩
    obtain ⟨trace', t', hrun⟩ :=
      traceRun_throws (htraceable.loaded point k) h.patient hon trace hcoherent hs₁
    exact ⟨trace', t', throws_multiplyTraced h.debug (hloaded.throws hrun.bind)⟩
  | true =>
    -- nothing but a refusal throws once the operands are loaded
    obtain ⟨u, hreturns, -⟩ :=
      ((h.does_execute hclear hon).bind (f := fun _ => d.collectResult (d.tokenBytes s))
        (does_collectFinished htraceable h.patient)).returns s₁ hs₁ hcoherent
    exact absurd hrest hreturns.not_throws

/-- **A traced multiplication refines one that is not traced.** Whatever the trace
points, it returns only what the other one returns, with the same registers left behind;
at the standard points and without a limit it returns whenever the other one does, given
enough fuel for its opcodes; and it throws the refusal of a point that is not on the
curve. -/
theorem multiplyTraced_refines (d : Driver) (s : State) (point : Coordinates) (k : Bytes)
    (hs : Reachable s) (hdebug : s.params.debug = true) (hresting : s.multiplying = false)
    (hunarmed : s.sequencer.Unarmed) (hpending : s.sequencer.haltPending = false)
    (hpos : 1 ≤ s.params.limbWidth) (hle : s.params.limbWidth ≤ 32)
    (hpatient : max s.params.latency 3 < d.checks) :
    (∀ trace out trace' t',
        Recording.Returns bus (d.multiplyTraced point k) trace s out trace' t' →
          ∃ t, Returns bus (d.multiply point k) s out t ∧ SameRegisters t' t) ∧
      (∃ enough, ∀ fuel ≥ enough, ∀ trace : Trace, trace.options.points = .standard →
        trace.options.maxSteps = none →
          ((∃ out trace' t', Recording.Returns bus
              (({ d with fuel } : Driver).multiplyTraced point k) trace s out trace' t') ↔
            ∃ out t, Returns bus (({ d with fuel } : Driver).multiply point k) s out t)) ∧
      ∀ trace t, Throws bus (d.multiply point k) s (.hardware HardwareError.inputNotOnCurve.mask) t →
        ∃ trace' t', Recording.Throws bus (d.multiplyTraced point k) trace s
          (.hardware HardwareError.inputNotOnCurve.mask) trace' t' := by
  have hcoherent := hs.coherent
  have hundisturbed (d' : Driver) (h : max s.params.latency 3 < d'.checks) : Undisturbed d' s :=
    ⟨⟨hdebug, Nat.lt_of_le_of_lt (Nat.zero_le _) h, hresting, hcoherent.idle hresting⟩, hcoherent,
      h, hpos, hle, hunarmed, hpending⟩
  refine ⟨fun trace out trace' t' h => ?_, ?_, fun trace t h =>
    (hundisturbed d hpatient).traced_throws trace h⟩
  · obtain ⟨t, ht, halike⟩ := (hundisturbed d hpatient).returns_of_traced h
    exact ⟨t, ht, .of_alike halike⟩
  · refine ⟨max d.fuel ((LadderRun.middle (d.loaded s point k).begun.inputs).length + 1),
      fun fuel hfuel trace hpoints hunlimited => ?_⟩
    -- more fuel does not make the driver less patient
    have hchecks : d.checks ≤ ({ d with fuel } : Driver).checks := by
      unfold checks
      cases d.config.pollLimit with
      | none => exact Nat.le_trans (Nat.le_max_left _ _) hfuel
      | some limit => exact Nat.le_refl _
    have hfueled := hundisturbed { d with fuel } (Nat.lt_of_lt_of_le hpatient hchecks)
    constructor
    · rintro ⟨out, trace', t', h⟩
      obtain ⟨t, ht, -⟩ := hfueled.returns_of_traced h
      exact ⟨out, t, ht⟩
    · rintro ⟨out, t, h⟩
      exact hfueled.traced_of_returns hpoints hunlimited
        (Nat.lt_of_lt_of_le (Nat.lt_succ_self _) (Nat.le_trans (Nat.le_max_right _ _) hfuel)) h

/-- Twenty-one times the point `(3, 6)`, traced and not traced. -/
theorem multiplyTraced_refines_curve97 :
    ∃ fuel out trace t t', Recording.Returns bus
        ((⟨{}, fuel⟩ : Driver).multiplyTraced ⟨[3], [6]⟩ [21]) (.new ⟨none, none, .standard⟩) curve97
        out trace t' ∧
      Returns bus ((⟨{}, fuel⟩ : Driver).multiply ⟨[3], [6]⟩ [21]) curve97 out t ∧
      SameRegisters t' t := by
  have hrefines (fuel : Nat) (hfuel : 3 < fuel) :=
    multiplyTraced_refines ⟨{}, fuel⟩ curve97 ⟨[3], [6]⟩ [21] reachable_curve97 rfl rfl rfl rfl
      (by decide) (by decide) hfuel
  obtain ⟨enough, hiff⟩ := (hrefines 10 (by decide)).2.1
  have hpatient : 3 < max enough 10 := Nat.lt_of_lt_of_le (by decide) (Nat.le_max_right _ _)
  have hfits : (⟨{}, max enough 10⟩ : Driver).OperandsFit curve97 ⟨[3], [6]⟩ [21] :=
    ⟨fits_of_le (by decide), fits_of_le (by decide), fits_of_le (by decide)⟩
  have hon : ((⟨{}, 10⟩ : Driver).loaded curve97 ⟨[3], [6]⟩ [21]).curve.contains
      ((⟨{}, 10⟩ : Driver).loaded curve97 ⟨[3], [6]⟩ [21]).pointR1 = true := by decide
  obtain ⟨u, huntraced, -⟩ := (does_multiply hfits rfl rfl hon rfl rfl).returns curve97 (.refl _)
    ⟨⟨reachable_curve97.coherent, rfl, hpatient⟩, rfl⟩
  obtain ⟨out, trace, t', htraced⟩ :=
    (hiff _ (Nat.le_max_left _ _) (.new ⟨none, none, .standard⟩) rfl rfl).mpr ⟨_, u, huntraced⟩
  obtain ⟨t, ht, hsame⟩ := (hrefines _ hpatient).1 _ _ _ _ htraced
  exact ⟨_, out, trace, t, t', htraced, ht, hsame⟩

end CurveEngine.Driver
