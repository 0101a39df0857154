import CurveEngine.Proofs.Draws
import CurveEngine.Proofs.Refinement

/-! What the trace of a multiplication tells.

A traced run that returns has looked at every opcode of the run but the first one, so that
its trace tells all that the run tells (`traceRun_readings`). For limbs of 32 bits this is
the whole course of the ladder and the random values it was masked with
(`multiplyTraced_readings`). -/
namespace CurveEngine.Driver
open Register Procedure Device Operation

/-- A list is cut at the first place that it ends with. -/
theorem cut_at_end {α : Type} (good : α → Prop) {xs ys zs : List α} {x y : α}
    (h : xs ++ [x] = ys ++ y :: zs) (hxs : ∀ a ∈ xs, ¬ good a) (hy : good y) :
    ys = xs ∧ y = x := by
  rcases List.append_eq_append_iff.mp h with ⟨more, rfl, hmore⟩ | ⟨more, rfl, hmore⟩
  · cases more with
    | nil =>
      simp only [List.nil_append, List.cons.injEq] at hmore
      exact ⟨List.append_nil _, hmore.1.symm⟩
    | cons a more => simp at hmore
  · cases more with
    | nil =>
      simp only [List.nil_append, List.cons.injEq] at hmore
      exact ⟨(List.append_nil _).symm, hmore.1⟩
    | cons a more =>
      simp only [List.cons_append, List.cons.injEq] at hmore
      rw [← hmore.1] at hxs
      exact absurd hy (hxs y (List.mem_append_right _ List.mem_cons_self))

variable {d : Driver} {s : State}

/-- A run starts from the same inputs whatever may stop it. -/
theorem inputs_disarmed (s : State) : s.disarmed.begun.inputs = s.begun.inputs :=
  (State.inputs_withBreakpoints s.begun :
    (s.begun.withBreakpoints (Vector.replicate Device.breakpointCount none)).inputs = _)

/-- A traced run that returns has followed the run from its first opcode to its last. -/
theorem traceRun_follows (h : Traceable d s) {t t' : Trace} {u v : State}
    (hpoints : t.options.points = .standard) (hcoherent : u.Coherent) (hu : u.Alike s)
    (hreturns : Recording.Returns bus d.traceRun t u () t' v) :
    t' = (t.opened (s.size % 2 ^ 16) s.shown).follow s.limbLayout s.shown
      (LadderRun.middle s.begun.inputs ++
        [LadderRun.finishAt (LadderRun.lastFrame s.begun.inputs)]) s.fp := by
  obtain ⟨hon, -⟩ := traceRun_only h hcoherent hu hreturns
  obtain ⟨w, hw, hwc, hrest⟩ := traceRun_starts h.legible hcoherent hu hreturns
  have hpending := LadderRun.pending_ends s.disarmed.begun.inputs
  have hpc : (t.options.points.entry.pc &&& Register.Breakpoint.address.mask).toNat =
      (LadderRun.entryAt s.disarmed.begun.inputs).pc := by
    rw [hpoints]
    exact LadderRun.pc_entryAt _
  rw [State.startMultiplication_entry hon h.idle hpending hpc] at hw
  obtain ⟨before, q, rest', hcut, -, hq, ht', -⟩ := followAndRelease_only h hwc hw hrest
  have hlast : q.spot = TracePoints.standard.last := by
    rw [hq, Trace.options_opened, hpoints]
  obtain ⟨rfl, rfl⟩ := cut_at_end (fun p => p.spot = TracePoints.standard.last) hcut
    (fun a ha => LadderRun.spot_middle ha) hlast
  rw [inputs_disarmed] at ht'
  exact ht'

/-- The first opcode of a run tells nothing. -/
theorem phase?_entryAt (run : LadderInputs) : (LadderRun.entryAt run).phase? = none := by
  show TracePhase.at? Microcode.Address.entry .checkOnCurve = none
  decide

/-- What comes behind the first opcode of a run tells all that the run tells. -/
theorem filterMap_behind {β : Type} {tells : Position → Option β} {run : LadderInputs}
    (h : tells (LadderRun.entryAt run) = none) :
    (LadderRun.middle run ++ [LadderRun.finishAt (LadderRun.lastFrame run)]).filterMap tells =
      (LadderRun.start run).pending.filterMap tells := by
  rw [LadderRun.pending_ends, List.filterMap_cons, h]

theorem has_behind (run : LadderInputs) : ∀ p ∈ LadderRun.middle run ++
    [LadderRun.finishAt (LadderRun.lastFrame run)], run.Has p := by
  intro p hp
  refine LadderRun.has_pending ?_
  rw [LadderRun.pending_ends]
  exact List.mem_cons_of_mem _ hp

/-- The trace of a run tells what the run tells. -/
theorem traceRun_readings (h : Traceable d s) {t t' : Trace} {u v : State}
    (hwidth : s.params.limbWidth = 32) (hsize : s.size ≤ s.params.maxSize)
    (hmax : s.params.maxSize ≤ 0xffff) (hprime : s.numbers.p < 2 ^ s.size)
    (hblinding : s.blinding ≤ s.size) (hpoints : t.options.points = .standard)
    (hcoherent : u.Coherent) (hu : u.Alike s)
    (hreturns : Recording.Returns bus d.traceRun t u () t' v) :
    t'.readings = s.begun.inputs.readings ∧
      ∀ phase, (t'.random? phase).map LimbNumber.value = s.begun.inputs.randoms.get? phase := by
  have hfollow := traceRun_follows h hpoints hcoherent hu hreturns
  obtain ⟨hon, -⟩ := traceRun_only h hcoherent hu hreturns
  have hlayout : s.limbLayout = .ofSize s.size 32 := by rw [State.limbLayout_eq, hwidth]
  have hshown : s.shown = .ofSize s.size 32 := by
    rw [State.shown, hwidth, Nat.mod_eq_of_lt (by omega)]
  have hholds : FpMemory.Holds s.size s.fp := by
    have hmemory := hcoherent.fp_size
    rw [hu.field State.fp fun _ => rfl, hu.field State.params fun _ => rfl, hwidth] at hmemory
    have hplaced : LimbLayout.Addressable s.params.maxSize 32 :=
      .of_le (by decide) (by decide) hmax
    exact ⟨by omega, hplaced.roomy hsize hmemory⟩
  -- every opcode that is looked at is one of the run
  have hself := fun p hp => (has_behind s.begun.inputs p hp).selfContained
  have hfits : ∀ p ∈ LadderRun.middle s.begun.inputs ++
      [LadderRun.finishAt (LadderRun.lastFrame s.begun.inputs)], p.Fits s.size :=
    fun p hp => (has_behind _ p hp).fits hprime (Curve.reduced_of_contains hon)
      (State.fits_inputs (s := s.begun) hprime hblinding)
  have hopened : (t.opened (s.size % 2 ^ 16) (.ofSize s.size 32)).options.points = .standard := hpoints
  have hphase := phase?_entryAt s.begun.inputs
  rw [hlayout, hshown] at hfollow
  constructor
  · have hentry := Position.reading?_of_none hphase
    rw [hfollow, Trace.readings_follow hholds hself hfits hopened, filterMap_behind hentry,
      LadderRun.readings_pending]
    rfl
  · intro phase
    have hnone : ((t.opened (s.size % 2 ^ 16) (.ofSize s.size 32)).random? phase).map
        LimbNumber.value = none := by cases phase <;> rfl
    have hentry : (LadderRun.entryAt s.begun.inputs).random? phase = none := by
      rw [Position.random?, hphase, if_neg (Option.some_ne_none phase).symm]
    rw [hfollow, Trace.random?_follow hholds hself hfits hopened, filterMap_behind hentry,
      LadderRun.randoms_pending, hnone, Option.or_none]
    cases s.begun.inputs.randoms.get? phase with
    | none => rfl
    | some value => rfl

/-- **A trace tells the whole course of a multiplication.** When a traced multiplication
returns, its steps are the setup, an addition and a doubling for every bit of the scalar
that the run used, the final subtraction and the exit, each with the flags and the points
of that moment; and its random values are those that the run was masked with. -/
theorem multiplyTraced_readings (d : Driver) (s : State) (point : Coordinates) (k : Bytes)
    (trace trace' : Trace) (out : PointAnswer) (t : State) (hs : Reachable s)
    (hdebug : s.params.debug = true) (hwidth : s.params.limbWidth = 32)
    (hsize : s.size ≤ s.params.maxSize) (hmax : s.params.maxSize ≤ 0xffff)
    (hprime : s.numbers.p < 2 ^ s.size) (hblinding : s.blinding = 0 ∨ s.blinding < s.size)
    (hunarmed : s.sequencer.UnarmedBeyond) (hpoints : trace.options.points = .standard)
    (h : Recording.Returns bus (d.multiplyTraced point k) trace s out trace' t) :
    let run := (d.loaded s point k).begun.inputs
    (run.curve = s.curve ∧ run.point = (d.loaded s point k).pointR1 ∧
        s.ScalarOf (d.loaded s point k).scalar run) ∧
      (d.Matches s → (d.loaded s point k).scalar = k.toNat ∧
        (d.loaded s point k).pointR1 =
          if s.r1Null then .infinity else .affine point.x.toNat point.y.toNat) ∧
      trace'.readings = run.readings ∧
      trace'.lambda.map LimbNumber.value = some run.randoms.lambda ∧
      trace'.phi0.map LimbNumber.value = some run.randoms.phi0 ∧
      trace'.phi1.map LimbNumber.value = some run.randoms.phi1 ∧
      trace'.alpha.map LimbNumber.value = run.randoms.alpha := by
  obtain ⟨token, s₁, s₂, hload, hrun, -⟩ := (returns_multiplyTraced hdebug _ _ _ _).mp h
  have hfits := loadMultiplication_fits hload
  obtain ⟨rfl, hs₁, hcoherent, hclear⟩ := loadMultiplication_only hs.coherent hload
  obtain ⟨hrests, hattentive⟩ := loadMultiplication_rests hload
  have hresting : s.multiplying = false :=
    (hs₁.field State.multiplying fun _ => rfl).symm.trans hrests
  have hidle := hs.coherent.idle hresting
  have htraceable : Traceable d s :=
    ⟨⟨hdebug, hattentive, hresting, hidle⟩, by rw [hwidth]; decide, by rw [hwidth]; decide, hclear,
      hunarmed⟩
  have hshort : s.blinding ≤ s.size := by omega
  obtain ⟨hreadings, hrandoms⟩ := traceRun_readings (s := d.loaded s point k)
    (htraceable.loaded point k) hwidth hsize hmax hprime hshort hpoints hcoherent hs₁ hrun
  have hscalar := State.scalarOf_inputs (d.loaded s point k).begun
  exact ⟨⟨rfl, rfl, ⟨hscalar.small, hscalar.plain, hscalar.blinded⟩⟩,
    fun hmatches => ⟨scalar_loaded hmatches hfits, pointR1_loaded hmatches hfits⟩, hreadings,
    hrandoms .lambda, hrandoms .phi0, hrandoms .phi1, hrandoms .alpha⟩

/-- The trace of twenty-one times the point `(3, 6)`: eight iterations, no blinding, and the
point itself in R1 at the exit. -/
theorem multiplyTraced_readings_curve97 :
    ∃ out trace' t, Recording.Returns bus
        ((⟨{}, 1000⟩ : Driver).multiplyTraced ⟨[3], [6]⟩ [21]) (.new ⟨none, none, .standard⟩) curve97
        out trace' t ∧
      trace'.readings.map Reading.phase =
        .setup :: ((List.replicate 8 [.zaddu, .zaddc]).flatten ++ [.subtractP, .exit]) ∧
      trace'.readings.getLast?.map Reading.r1 = some (3, 6) ∧
      trace'.alpha.map LimbNumber.value = none := by
  have hfits : (⟨{}, 1000⟩ : Driver).OperandsFit curve97 ⟨[3], [6]⟩ [21] :=
    ⟨fits_of_le (by decide), fits_of_le (by decide), fits_of_le (by decide)⟩
  have hundisturbed : Undisturbed ⟨{}, 1000⟩ curve97 :=
    ⟨⟨rfl, by decide, rfl, rfl⟩, reachable_curve97.coherent, by decide, by decide, by decide, rfl, rfl⟩
  obtain ⟨u, huntraced, -⟩ := (does_multiply hfits rfl rfl (by decide) rfl rfl).returns curve97
    (.refl _) ⟨⟨hundisturbed.coherent, rfl, hundisturbed.patient⟩, rfl⟩
  obtain ⟨out, trace', t, htraced⟩ := hundisturbed.traced_of_returns
    (rfl : (Trace.new ⟨none, none, .standard⟩).options.points = .standard) rfl (by decide +kernel)
    huntraced
  have hunarmed : curve97.sequencer.Unarmed := rfl
  obtain ⟨-, -, hreadings, -, -, -, halpha⟩ := multiplyTraced_readings ⟨{}, 1000⟩ curve97 ⟨[3], [6]⟩
    [21] _ trace' out t reachable_curve97 rfl rfl (by decide) (by decide) (by decide) (.inl rfl)
    hunarmed.beyond rfl htraced
  refine ⟨out, trace', t, htraced, ?_, ?_, halpha.trans rfl⟩
  · rw [hreadings]
    decide +kernel
  · rw [hreadings]
    decide +kernel

end CurveEngine.Driver
