import CurveEngine.Proofs.BlindedProduct
import CurveEngine.Proofs.RunProgram
import CurveEngine.Proofs.Sessions

/-! Multiplying by the low bits of a scalar, once.

The size to which the scalar of the next multiplication is restricted is kept in a register of the
engine. It is written by one call, and dropped by a reset and by a multiplication that starts
(`smallScalar_control`), so every other call leaves it (`upholds_smallScalar`), and so do
multiplications of points that are not on the curve (`multiply_refused`). What a multiplication
that is not refused does is its run (`AnsweredBy`): it takes the low bits of the scalar and as many
iterations while there is a restriction, and the scalar as it is, or blinded, from then on
(`limitScalar_once`). -/
namespace CurveEngine
open Register Procedure Device Operation

namespace Device.State
variable {s : State}

/-! ### What touches the restriction -/

theorem smallScalar_startMultiplication (s : State) :
    s.startMultiplication.smallScalar =
      if s.curve.contains s.pointR1 then none else s.smallScalar := by
  by_cases hon : s.curve.contains s.pointR1 = true
  · rw [if_pos hon, State.startMultiplication]
    simp only [hon, Bool.not_true, Bool.false_eq_true, if_false]
    refine proceed_keeps (P := fun t => t.smallScalar = none) _ fun _ _ _ _ _ _ _ _ => ?_
    rw [drawRandoms_eq, effectiveScalar_snd]
  · rw [if_neg hon, startMultiplication_refused (Bool.eq_false_iff.mpr hon)]
    rfl

/-- A control word that starts no multiplication leaves the restriction, and one that does
leaves it or drops it. -/
theorem smallScalar_control (s : State) (word : UInt32) :
    (s.control word).smallScalar = s.smallScalar ∨
      (¬ OpensTransfer word ∧ Control.multiply.test word = true) ∧
        (s.control word).smallScalar = none := by
  by_cases hresting : s.multiplying = true
  · rw [State.control, if_pos hresting]
    exact .inl rfl
  rw [Bool.not_eq_true] at hresting
  by_cases hopens : OpensTransfer word
  · left
    simp only [State.control, ControlField.agrees, hresting, Bool.false_eq_true, if_false]
    split
    · exact openWrite_keeps (s := s.occupy) (P := fun t => t.smallScalar = s.smallScalar)
        (fun _ _ _ _ _ _ => rfl) _ _
    · rename_i hwrite
      rw [if_pos (hopens.resolve_left hwrite)]
      exact openRead_keeps (s := s.occupy) (P := fun t => t.smallScalar = s.smallScalar)
        (fun _ _ => rfl) _ _
  obtain ⟨hwrite, hread⟩ := not_or.mp hopens
  rw [control_begun hresting hwrite hread]
  split
  · rename_i hmultiply
    rw [smallScalar_startMultiplication]
    split
    · exact .inr ⟨⟨hopens, hmultiply⟩, rfl⟩
    · exact .inl rfl
  · exact .inl (operate_keeps (s := s.begun) (P := fun t => t.smallScalar = s.smallScalar)
      (fun _ _ _ _ => rfl) word)

theorem smallScalar_writeSink {r : Sink} (hlimit : r ≠ .smallScalar) (hreset : r ≠ .softReset)
    (hcontrol : r ≠ .control) (value : UInt64) (s : State) :
    (s.writeSink r value).smallScalar = s.smallScalar := by
  have hdebug (t : State) (ht : t.smallScalar = s.smallScalar) :=
    debug_keeps (P := fun u => u.smallScalar = s.smallScalar) rfl ht
  cases r with
  | smallScalar => exact absurd rfl hlimit
  | softReset => exact absurd rfl hreset
  | control => exact absurd rfl hcontrol
  | writeData =>
    exact writeData_keeps (P := fun t => t.smallScalar = s.smallScalar) (fun _ _ _ _ _ => rfl) _
  | primeSize => exact setSize_keeps (P := fun t => t.smallScalar = s.smallScalar) (fun _ _ => rfl) _
  | blinding =>
    exact setBlinding_keeps (P := fun t => t.smallScalar = s.smallScalar) (fun _ _ => rfl) _
  | shuffle =>
    exact setShuffle_keeps (P := fun t => t.smallScalar = s.smallScalar) (fun _ _ => rfl) _
  | steps =>
    exact hdebug _ (step_keeps (P := fun t => t.smallScalar = s.smallScalar) _
      fun _ _ _ _ _ _ _ _ => rfl)
  | halt =>
    exact hdebug _ (writeDebug_halt_keeps (P := fun t => t.smallScalar = s.smallScalar)
      (fun _ => rfl) _)
  | r0Null | r1Null | zremask | token | irq | errorAck => rfl
  | _ => exact hdebug _ rfl

/-! ### What a run leaves -/

/-- What a multiplication takes to be answered with its result, and leaves as it is. -/
def stance (s : State) :
    Vector (Option Breakpoint) breakpointCount × Bool × Bool × Parameters × Nat × Nat :=
  (s.sequencer.breakpoints, s.sequencer.haltPending, s.tokenMask, s.params, s.size, s.numbers.p)

theorem stance_finished (hpending : s.sequencer.haltPending = false) :
    s.finished.stance = s.stance := by
  rw [stance, stance, hpending]
  rfl

/-- What a curve and its multiplications are configured by, other than the restriction. -/
def setup (s : State) : Curve × Nat × Nat := (s.curve, s.size, s.blinding)

theorem setup_finished (s : State) : s.finished.setup = s.setup := rfl

theorem operationTime_finish (s : State) (run : LadderRun) :
    (s.after run).finish.operationTime = s.operationTime + run.passed.length := rfl

theorem fp_finish (s : State) (run : LadderRun) :
    (s.after run).finish.fp = memoryAfter s.limbLayout run.passed s.fp := rfl

theorem operationTime_finished (s : State) :
    s.finished.operationTime = (LadderRun.start s.inputs).positions.length := by
  have hlaunched : s.launched.operationTime = 0 := rfl
  rw [finished, operationTime_finish, hlaunched, Nat.zero_add, List.length_reverse,
    LadderRun.positions_start]

theorem fp_finished (s : State) :
    s.finished.fp = memoryAfter s.limbLayout (LadderRun.start s.inputs).positions.reverse s.fp := by
  have hlaunched : (s.launched.limbLayout, s.launched.fp) = (s.limbLayout, s.fp) := rfl
  obtain ⟨hlayout, hfp⟩ := Prod.mk.inj hlaunched
  rw [finished, fp_finish, hlayout, hfp, LadderRun.positions_start]

end Device.State

namespace Driver
variable {d : Driver} {s t : State} {point : Coordinates} {k : Bytes}

/-- The restriction is as it is while it is not written, the engine is not reset, and no
multiplication starts; where there is none, only the first matters. -/
theorem upholds_smallScalar (limit : Option Nat) :
    Upholds (fun s => s.smallScalar = limit) (fun r word => r ≠ .smallScalar ∧
      (limit = none ∨ r ≠ .softReset ∧
        (r = .control → State.OpensTransfer word ∨ Control.multiply.test word = false))) where
  read r s hs := State.readSource_keeps (P := fun t => t.smallScalar = limit)
    (fun _ _ _ _ _ _ => hs) r
  write r value s hr hs := by
    by_cases hreset : r = .softReset
    · rw [hr.2.resolve_right fun h => h.1 hreset, hreset]
      rfl
    by_cases hcontrol : r = .control
    · subst hcontrol
      show (s.control _).smallScalar = limit
      rcases s.smallScalar_control value.toUInt32 with hkept | ⟨⟨hopens, hmultiply⟩, hdropped⟩
      · exact hkept.trans hs
      · refine hdropped.trans (hr.2.resolve_right fun h => ?_).symm
        rcases h.2 rfl with hopen | hother
        · exact hopens hopen
        · rw [hmultiply] at hother
          cases hother
    · exact (State.smallScalar_writeSink hr.1 hreset hcontrol value s).trans hs
  acknowledge _ := ⟨by decide, .inr ⟨by decide, nofun⟩⟩

/-! ### Calls one after the other -/

/-- What an engine is brought to by calls that are allowed where they are made, failing or not. -/
inductive Through (d : Driver) (allowed : State → Call → Prop) (s : State) : State → Prop where
  | refl : Through d allowed s s
  | call {t u : State} {call : Call} {answer : Answer} (before : Through d allowed s t)
    (may : allowed t call) (ends : Ends bus (call.perform d) t answer u) : Through d allowed s u

/-- What every call keeps is kept by all of them. -/
theorem Through.keeps {allowed : State → Call → Prop} {I : State → Prop}
    (h : Through d allowed s t) (hs : I s)
    (hcall : ∀ u v call answer, I u → allowed u call → Ends bus (Call.perform d call) u answer v →
      I v) : I t := by
  induction h with
  | refl => exact hs
  | call _ may ends ih => exact hcall _ _ _ _ ih may ends

/-- A call that restricts no scalars. -/
def LimitsNothing (_ : State) (call : Call) : Prop := ∀ bits, call ≠ .limitScalar bits

/-- Without a restriction, scalars stay unrestricted until there is a new one. -/
theorem Through.unlimited (h : Through d LimitsNothing s t) (hs : s.smallScalar = none) :
    t.smallScalar = none :=
  h.keeps (I := fun u => u.smallScalar = none) hs fun _ _ _ _ hu hmay hends =>
    (upholds_smallScalar none).perform
      (fun _ word hwrite => ⟨fun hr => hmay word (hwrite.limit hr), .inl rfl⟩) hu hends

/-- Whatever is called, the engine stays as it was built, and coherent. -/
theorem upholds_params (p : Parameters) :
    Upholds (fun s => s.Coherent ∧ s.params = p) (fun _ _ => True) where
  read r _ hs := ⟨hs.1.readSource r, State.readSource_keeps (P := fun t => t.params = p)
    (fun _ _ _ _ _ _ => hs.2) r⟩
  write r value s _ hs := ⟨hs.1.writeSink r value, (params_writeSink r value s).trans hs.2⟩
  acknowledge _ := trivial

theorem Through.coherent {allowed : State → Call → Prop} (h : Through d allowed s t)
    (hs : s.Coherent) : t.Coherent ∧ t.params = s.params :=
  h.keeps (I := fun u => u.Coherent ∧ u.params = s.params) ⟨hs, rfl⟩
    fun _ _ _ _ hu _ hends => (upholds_params s.params).perform (fun _ _ _ => trivial) hu hends

/-! ### Setting and dropping the restriction -/

theorem does_limitScalar {bits : UInt32} (hpos : 1 ≤ bits.toNat) (hle : bits.toNat ≤ 0xffff) :
    Does (Ready d) (d.limitScalar bits) s () { s with smallScalar := some bits.toNat } := by
  have hzero : bits ≠ 0 := fun hzero => by
    rw [hzero] at hpos
    exact absurd hpos (by decide)
  have hbound : ¬ bits > smallScalarMax := Nat.not_lt.mpr hle
  have hkept : (bits &&& 0xffff).toNat = bits.toNat := by
    rw [UInt32.toNat_and]
    exact (Nat.and_two_pow_sub_one_eq_mod _ 16).trans (Nat.mod_eq_of_lt (by omega))
  rw [limitScalar, if_neg (not_or.mpr ⟨hzero, hbound⟩)]
  refine does_writeSettled _ _ (fun u hu _ => ?_) rfl
  have hwrite : u.writeSink .smallScalar bits.toUInt64 =
      State.occupy { u with smallScalar := some bits.toNat } := by
    simp only [State.writeSink, UInt32.toUInt32_toUInt64, hkept]
  rw [hwrite]
  exact hu.apply (show State.Timeless fun s =>
    State.occupy { s with smallScalar := some bits.toNat } from fun _ => rfl)

/-- A reset brings any engine to rest, in the state that it makes. -/
theorem reset_returns (hs : s.Coherent) (hpatient : max s.params.latency 3 < d.checks) :
    ∃ t, Returns bus d.reset s () t ∧ t.Alike s.softReset := by
  have hwrite : Returns bus (liftM (d.write .softReset 1) : Operation Unit) s () s.softReset :=
    (returns_lift _ _ _ _).mpr ((ends_write _ _ _ _).mpr rfl)
  obtain ⟨t, hwait, -⟩ := waitIdle_ends (d := d) (s := s.softReset) ⟨hs.softReset, rfl, hpatient⟩
  refine ⟨t, ?_, (waitIdle_only hwait).1⟩
  simp only [reset, returns_bind]
  exact ⟨(), s, returns_notify _ s, (), _, hwrite, hwait⟩

/-! ### Points that are not on the curve -/

theorem Poised.frame (h : Poised d s) (hready : Ready d t) (same : t.stance = s.stance)
    (hnull : t.r1Null = false) : Poised d t := by
  simp only [State.stance, Prod.mk.injEq] at same
  obtain ⟨hbreakpoints, hpending, hmask, hparams, hsize, hprime⟩ := same
  exact {
    ready := hready
    unarmed := hbreakpoints.trans h.unarmed
    unhalted := hpending.trans h.unhalted
    masks := hmask.trans h.masks
    matching := by
      rw [Matches, hparams]
      exact h.matching
    size_le := hsize ▸ h.size_le
    prime_pos := hprime ▸ h.prime_pos
    prime_lt := by
      rw [hprime, hsize]
      exact h.prime_lt
    r1Null := hnull }

/-- A multiplication of a point that is not on the curve is thrown out before it starts. -/
theorem execute_throws (hs : Ready d s) (hoff : s.curve.contains s.pointR1 = false) :
    ∃ t, Throws bus (d.execute .multiply) s (.hardware HardwareError.inputNotOnCurve.mask) t ∧
      Ready d t ∧ t.Alike s.begun := by
  obtain ⟨u, hwait, hu⟩ := waitIdle_returns hs
  have halike := (waitIdle_only hwait).1
  have hoff' : u.begun.curve.contains u.begun.pointR1 = false :=
    (halike.field (fun v => v.curve.contains v.pointR1) fun _ => rfl).trans hoff
  have hrefused : u.writeSink .control (Command.operate .multiply).word.toUInt64 =
      u.begun.latch .inputNotOnCurve := by
    rw [writeSink_multiply hu.resting, State.startMultiplication_refused hoff']
  have hwrite : Returns bus (liftM (d.write .control (Command.operate .multiply).word) :
      Operation Unit) u () (u.begun.latch .inputNotOnCurve) :=
    (returns_lift _ _ _ _).mpr ((ends_write _ _ _ _).mpr hrefused.symm)
  have herrors : (u.begun.latch .inputNotOnCurve).errors = HardwareError.inputNotOnCurve.mask := by
    show u.errors ||| _ = _
    rw [hu.clear, UInt32.zero_or]
  have hlatched : Awaitable d (u.begun.latch .inputNotOnCurve) :=
    ⟨hrefused ▸ hu.coherent.writeSink _ _, hu.resting, hu.patient⟩
  obtain ⟨t, hthrows, hcoherent, ht⟩ := settle_throws hlatched (by
    rw [herrors]
    decide)
  rw [herrors] at hthrows
  -- acknowledging the error leaves nothing of the refusal
  have hacknowledged : acknowledged (u.begun.latch .inputNotOnCurve) = u.begun := by
    have hcleared : HardwareError.inputNotOnCurve.mask &&&
        ~~~(Latch.ofAckWord (Latch.ackWord HardwareError.inputNotOnCurve.mask)) = u.errors := by
      rw [hu.clear]
      decide
    rw [acknowledged, herrors, hcleared]
    rfl
  rw [hacknowledged] at ht
  refine ⟨t, hwait.throws (hwrite.throws hthrows), hu.frame hcoherent ?_,
    ht.trans (halike.apply (show State.Timeless State.begun from fun _ => rfl))⟩
  exact ht.field (fun v => (v.errors, v.multiplying, v.params)) fun _ => rfl

/-- A multiplication that is refused for its point, on an engine that would multiply others. -/
structure Refused (d : Driver) (s : State) (point : Coordinates) (k : Bytes) : Prop where
  poised : Poised d s
  fits : d.OperandsFit s point k
  outside : s.curve.contains (.affine point.x.toNat point.y.toNat) = false

/-- A multiplication that is refused leaves the restriction, and the engine as ready as it was. -/
theorem multiply_refused (h : Refused d s point k) :
    ∃ t, Throws bus (d.multiply point k) s (.hardware HardwareError.inputNotOnCurve.mask) t ∧
      t.smallScalar = s.smallScalar ∧ t.setup = s.setup ∧ Poised d t := by
  have hdoes := does_loadMultiplication h.fits
  obtain ⟨u, hload, hu⟩ := hdoes.returns s (.refl s) h.poised.ready
  obtain ⟨-, hloaded⟩ := hdoes.only s _ u (.refl s) hload
  have hr1 := h.poised.pointR1 h.fits
  have hoff : u.curve.contains u.pointR1 = false := by
    refine (hloaded.field (fun v => v.curve.contains v.pointR1) fun _ => rfl).trans ?_
    show s.curve.contains (d.loaded s point k).pointR1 = false
    rw [hr1]
    exact h.outside
  obtain ⟨t, hthrows, hready, ht⟩ := execute_throws hu hoff
  have halike : t.Alike (d.loaded s point k).begun :=
    ht.trans (hloaded.apply (show State.Timeless State.begun from fun _ => rfl))
  refine ⟨t, (returns_notify _ s).throws (hload.throws hthrows.bind),
    halike.field State.smallScalar fun _ => rfl, halike.field State.setup fun _ => rfl,
    h.poised.frame hready ?_ ?_⟩
  · exact halike.field State.stance fun _ => rfl
  · exact (halike.field State.r1Null fun _ => rfl).trans h.poised.r1Null

/-! ### Runs -/

/-- A multiplication that is accepted, its operands taking no more words than the prime. -/
structure Accepted (d : Driver) (s : State) (point : Coordinates) (k : Bytes) : Prop where
  poised : Poised d s
  fits : d.OperandsFit s point k
  inside : s.curve.contains (.affine point.x.toNat point.y.toNat) = true

/-- A multiplication is answered with the result of a run, which the engine has executed: each of
its opcodes has taken its time, and has stored what it stores. -/
structure AnsweredBy (d : Driver) (s : State) (point : Coordinates) (k : Bytes)
    (run : LadderInputs) (out : PointAnswer) (t : State) : Prop where
  returns : Returns bus (d.multiply point k) s out t
  curve : run.curve = s.curve
  point : run.point = .affine point.x.toNat point.y.toNat
  scalar : s.ScalarOf k.toNat run
  alpha : ∀ alpha, run.randoms.alpha = some alpha → alpha < 2 ^ s.blinding
  result : Writes s.size out (LadderRun.start run).result
  operationTime : t.operationTime = (LadderRun.start run).positions.length
  memory : t.fp = State.memoryAfter s.limbLayout (LadderRun.start run).positions.reverse s.fp
  /-- The restriction has been used up. -/
  unlimited : t.smallScalar = none
  setup : t.setup = s.setup
  /-- The engine is ready for the next one, unless the result is infinity. -/
  poised : out.isInfinity = false → Poised d t

theorem operationTime_afterPoint (s : State) (register : PointRegister) :
    (d.afterPoint s register).operationTime = s.operationTime := rfl

theorem setup_afterPoint (s : State) (register : PointRegister) :
    (d.afterPoint s register).setup = s.setup := rfl

theorem fp_afterPoint (s : State) (register : PointRegister) :
    (d.afterPoint s register).fp = s.fp := rfl

theorem stance_afterPoint (s : State) (register : PointRegister) :
    (d.afterPoint s register).stance = s.stance := rfl

/-- Which scalar a run takes depends on the registers for it. -/
theorem scalarOf_frame {s t : State} {scalar : Nat} {run : LadderInputs}
    (h : s.ScalarOf scalar run)
    (same : (t.smallScalar, t.blinding, t.size, t.numbers.q) =
      (s.smallScalar, s.blinding, s.size, s.numbers.q)) : t.ScalarOf scalar run := by
  simp only [Prod.mk.injEq] at same
  obtain ⟨hsmall, hblinding, hsize, horder⟩ := same
  constructor
  · rw [hsmall]
    exact h.small
  · rw [hsmall, hblinding, hsize]
    exact h.plain
  · rw [hsmall, hblinding, hsize, horder]
    exact h.blinded

/-- A multiplication that is accepted is answered by a run. -/
theorem Accepted.answered (h : Accepted d s point k) :
    ∃ run out t, AnsweredBy d s point k run out t := by
  have hr1 : (d.loaded s point k).begun.pointR1 = .affine point.x.toNat point.y.toNat :=
    h.poised.pointR1 h.fits
  have hscalar : (d.loaded s point k).begun.scalar = k.toNat :=
    scalar_loaded h.poised.matching h.fits
  have hdoes := h.poised.does_accepted h.fits h.inside
  obtain ⟨t, ht, hready⟩ := hdoes.returns s (.refl s) h.poised.ready
  obtain ⟨-, halike⟩ := hdoes.only s _ t (.refl s) ht
  have hnull := halike.field State.r1Null fun _ => rfl
  refine ⟨(d.loaded s point k).begun.inputs, _, t, ht, rfl, hr1, ?_, fun _ => State.alpha_lt, ?_, ?_, ?_,
    halike.field State.smallScalar fun _ => rfl, ?_,
    fun hfinite => h.poised.frame hready ?_ (hnull.trans hfinite)⟩
  · have hof := State.scalarOf_inputs (d.loaded s point k).begun
    rw [hscalar] at hof
    exact scalarOf_frame hof rfl
  · refine h.poised.writes_result rfl ?_
    rw [LadderRun.result_start]
    show s.curve.Reduced (s.curve.scalarMul _ (d.loaded s point k).begun.pointR1 _)
    rw [hr1]
    exact Curve.reduced_scalarMul h.inside _ _
  · rw [halike.field State.operationTime fun _ => rfl, operationTime_afterPoint,
      State.operationTime_finished]
  · rw [halike.field State.fp fun _ => rfl, fp_afterPoint, State.fp_finished]
    rfl
  · rw [halike.field State.setup fun _ => rfl, setup_afterPoint, State.setup_finished]
    rfl
  · rw [halike.field State.stance fun _ => rfl, stance_afterPoint, State.stance_finished]
    · rfl
    · exact h.poised.unhalted

/-! ### What the restriction is good for -/

/-- Every multiplication takes its scalar as it is, or blinded as it has been configured, until
scalars are restricted again. -/
def Unlimited (d : Driver) (s : State) : Prop :=
  ∀ t, Through d LimitsNothing s t → ∀ point k, Accepted d t point k →
    ∃ run out u, AnsweredBy d t point k run out u ∧
      (t.blinding = 0 → run.scalar = k.toNat ∧
        run.bits = max t.size (State.bitLength k.toNat) ∧ run.randoms.alpha = none) ∧
      (0 < t.blinding → ∃ alpha < 2 ^ t.blinding, run.randoms.alpha = some alpha ∧
        run.scalar = k.toNat + alpha * t.numbers.q ∧
        run.bits = max (t.size + t.blinding) (State.bitLength run.scalar))

theorem unlimited_of_none (h : s.smallScalar = none) : Unlimited d s := by
  intro t hthrough point k haccepted
  have hnone := hthrough.unlimited h
  obtain ⟨run, out, u, hanswered⟩ := haccepted.answered
  refine ⟨run, out, u, hanswered, hanswered.scalar.plain hnone, fun hpos => ?_⟩
  obtain ⟨alpha, halpha, hscalar, hbits⟩ := hanswered.scalar.blinded hnone hpos
  exact ⟨alpha, hanswered.alpha alpha halpha, halpha, hscalar, hbits⟩

/-- The next multiplication takes the low bits of its scalar, in as many iterations and unblinded,
and the ones after it take theirs as they are. One that is refused in between is not the next, and
after a reset there is no restriction. -/
structure Limited (d : Driver) (bits : Nat) (s : State) : Prop where
  multiplies : ∀ point k, Accepted d s point k →
    ∃ run out t, AnsweredBy d s point k run out t ∧
      Writes s.size out
        (s.curve.scalarMul (k.toNat % 2 ^ bits) (.affine point.x.toNat point.y.toNat) bits) ∧
      run.scalar = k.toNat % 2 ^ bits ∧ run.bits = bits ∧ run.randoms.alpha = none ∧
      ((LadderRun.start run).visits LadderRun.addedSpot).length = bits ∧
      t.operationTime = 40 + 16 * bits ∧ Unlimited d t
  refuses : ∀ point k, Refused d s point k →
    ∃ t, Throws bus (d.multiply point k) s (.hardware HardwareError.inputNotOnCurve.mask) t ∧
      t.smallScalar = some bits ∧ t.setup = s.setup ∧ Poised d t
  resets : ∃ t, Returns bus d.reset s () t ∧ Unlimited d t

theorem limited_of_some {bits : Nat} (h : s.smallScalar = some bits) (hs : s.Coherent)
    (hpatient : max s.params.latency 3 < d.checks) : Limited d bits s where
  multiplies point k haccepted := by
    obtain ⟨run, out, t, hanswered⟩ := haccepted.answered
    obtain ⟨hscalar, hbits, halpha⟩ := hanswered.scalar.small bits h
    rw [Nat.and_two_pow_sub_one_eq_mod] at hscalar
    have hresult := hanswered.result
    rw [LadderRun.result_start, hanswered.curve, hanswered.point, hscalar, hbits] at hresult
    have htime := hanswered.operationTime
    rw [LadderRun.length_start, hbits, halpha] at htime
    have hvisits := LadderRun.length_visits_point run
      (show (LadderRun.addedSpot, TracePhase.zaddu) ∈ TracePoints.standard.phases by decide)
    exact ⟨run, out, t, hanswered, hresult, hscalar, hbits, halpha, hvisits.trans hbits, htime,
      unlimited_of_none hanswered.unlimited⟩
  refuses point k hrefused := by
    obtain ⟨t, hthrows, hkept, hrest⟩ := multiply_refused hrefused
    exact ⟨t, hthrows, hkept.trans h, hrest⟩
  resets := by
    obtain ⟨t, hreset, halike⟩ := reset_returns hs hpatient
    exact ⟨t, hreset, unlimited_of_none (halike.field State.smallScalar fun _ => rfl)⟩

/-- A call that leaves the restriction: one that does not restrict scalars, reset the engine or
multiply, or a multiplication that is refused for its point. -/
def Sparing (d : Driver) (s : State) (call : Call) : Prop :=
  ((∀ bits, call ≠ .limitScalar bits) ∧ call ≠ .reset ∧ call.operation? ≠ some .multiply) ∨
    ∃ point k, call = .multiply point k ∧ Refused d s point k

/-- No such call uses the restriction up. -/
theorem Through.limited (h : Through d (Sparing d) s t) {bits : Nat}
    (hs : s.smallScalar = some bits) : t.smallScalar = some bits := by
  refine h.keeps (I := fun u => u.smallScalar = some bits) hs
    fun u v call answer hu hsparing hends => ?_
  rcases hsparing with ⟨hlimit, hreset, hoperation⟩ | ⟨point, k, rfl, hrefused⟩
  · refine (upholds_smallScalar (some bits)).perform (fun r word hwrite => ?_) hu hends
    refine ⟨fun hr => hlimit word (hwrite.limit hr), .inr ⟨fun hr => hreset (hwrite.reset hr),
      fun hr => ?_⟩⟩
    rcases hwrite.start hr with hopens | hother | hmultiply
    · exact .inl hopens
    · exact .inr hother
    · exact absurd hmultiply hoperation
  · obtain ⟨w, hthrows, hkept, -⟩ := multiply_refused hrefused
    obtain ⟨x, u', hrun, hanswer⟩ := (ends_bind _ _ _ _ _).mp hends
    obtain ⟨-, rfl⟩ := hthrows.unique hrun
    obtain ⟨-, rfl⟩ := (ends_pure _ _ _ _).mp hanswer
    exact hkept.trans hu

/-- **A restriction is for one multiplication.** After scalars have been restricted to some bits,
on an engine at rest, the first multiplication that is accepted takes the low bits of its scalar:
it is answered with the multiple that they give, in exactly as many iterations, blinding or not.
No call before it uses the restriction up, be it a multiplication that is refused for its point.
Every multiplication after it takes its scalar as it is, or blinded as configured, until scalars
are restricted again; so does every multiplication after a reset. -/
theorem limitScalar_once (d : Driver) (s : State) (bits : UInt32) (hs : Reachable s)
    (hresting : s.multiplying = false) (hclear : s.errors = 0)
    (hpatient : max s.params.latency 3 < d.checks) (hpos : 1 ≤ bits.toNat)
    (hle : bits.toNat ≤ 0xffff) :
    ∃ t, Returns bus (d.limitScalar bits) s () t ∧ t.setup = s.setup ∧
      (Poised d s → Poised d t) ∧ ∀ u, Through d (Sparing d) t u → Limited d bits.toNat u := by
  have hdoes := does_limitScalar (d := d) (s := s) hpos hle
  obtain ⟨t, ht, hready⟩ := hdoes.returns s (.refl s) ⟨⟨hs.coherent, hresting, hpatient⟩, hclear⟩
  obtain ⟨-, halike⟩ := hdoes.only s () t (.refl s) ht
  have hlimit : t.smallScalar = some bits.toNat := halike.field State.smallScalar fun _ => rfl
  refine ⟨t, ht, halike.field State.setup fun _ => rfl,
    fun hpoised => hpoised.frame hready ?_ ?_, fun u hthrough => ?_⟩
  · exact halike.field State.stance fun _ => rfl
  · exact (halike.field State.r1Null fun _ => rfl).trans hpoised.r1Null
  · obtain ⟨hcoherent, hparams⟩ := hthrough.coherent hready.coherent
    exact limited_of_some (hthrough.limited hlimit) hcoherent (hparams ▸ hready.patient)

/-- Scalars restricted to two bits: a point that is not on the curve is refused, seven times the
point `(3, 6)` comes out as three times it, and seven times it after that as twice. -/
theorem limitScalar_once_curve97 :
    let d : Driver := ⟨{}, 10⟩
    ∃ t u v w out out', Returns bus (d.limitScalar 2) curve97 () t ∧
      Throws bus (d.multiply ⟨[1], [1]⟩ [7]) t (.hardware HardwareError.inputNotOnCurve.mask) u ∧
      Returns bus (d.multiply ⟨[3], [6]⟩ [7]) u out v ∧ Writes 8 out (.affine 80 87) ∧
      Returns bus (d.multiply ⟨[3], [6]⟩ [7]) v out' w ∧ Writes 8 out' (.affine 80 10) := by
  intro d
  have hpoised : Poised d curve97 := by
    refine ⟨⟨⟨reachable_curve97.coherent, rfl, by decide⟩, rfl⟩, rfl, rfl, rfl, rfl, ?_, ?_, ?_, rfl⟩
    · decide
    · decide
    · decide
  obtain ⟨t, ht, hset, hpoisedt, hlimited⟩ :=
    limitScalar_once d curve97 2 reachable_curve97 rfl rfl (by decide) (by decide) (by decide)
  have hknown {x : State} (hx : x.setup = curve97.setup) :
      x.curve = ⟨97, 2, 3, 5⟩ ∧ x.size = 8 ∧ x.blinding = 0 := by
    simp only [State.setup, Prod.mk.injEq] at hx
    exact ⟨hx.1, hx.2.1, hx.2.2⟩
  have hfits {x : State} (hx : x.setup = curve97.setup) (byte : UInt8) : d.Fits x [byte].length := by
    have hbytes : x.numberBytes = 1 := by
      rw [State.numberBytes, (hknown hx).2.1]
      rfl
    exact fits_of_le (hbytes ▸ Nat.le_refl 1)
  have haccepted {x : State} (hx : x.setup = curve97.setup) (hpoisedx : Poised d x) :
      Accepted d x ⟨[3], [6]⟩ [7] := by
    refine ⟨hpoisedx, ⟨hfits hx 7, hfits hx 3, hfits hx 6⟩, ?_⟩
    rw [(hknown hx).1]
    decide
  -- a point that is not on the curve
  have hrefused : Refused d t ⟨[1], [1]⟩ [7] := by
    refine ⟨hpoisedt hpoised, ⟨hfits hset 7, hfits hset 1, hfits hset 1⟩, ?_⟩
    rw [(hknown hset).1]
    decide
  obtain ⟨u, hthrows, -, hsetu, hpoisedu⟩ := (hlimited t .refl).refuses _ _ hrefused
  have hsparing : Sparing d t (.multiply ⟨[1], [1]⟩ [7]) := .inr ⟨_, _, rfl, hrefused⟩
  have hthrough : Through d (Sparing d) t u :=
    .call .refl hsparing
      ((ends_bind _ _ _ _ _).mpr ⟨_, u, hthrows, (ends_pure _ _ _ _).mpr ⟨rfl, rfl⟩⟩)
  -- the one multiplication that is restricted, and one after it
  have hsetu := hsetu.trans hset
  obtain ⟨hcurveu, hsizeu, -⟩ := hknown hsetu
  obtain ⟨_, out, v, hanswered, hwrites, -, -, -, -, -, hunlimited⟩ :=
    (hlimited u hthrough).multiplies _ _ (haccepted hsetu hpoisedu)
  have hthree : Curve.scalarMul ⟨97, 2, 3, 5⟩ (Bytes.toNat [7] % 2 ^ (2 : UInt32).toNat)
      (.affine 3 6) (2 : UInt32).toNat = .affine 80 87 := by decide +kernel
  rw [hcurveu, hsizeu] at hwrites
  have hout : Writes 8 out (.affine 80 87) := hthree ▸ hwrites
  have hsetv := hanswered.setup.trans hsetu
  obtain ⟨hcurvev, hsizev, hblindingv⟩ := hknown hsetv
  obtain ⟨run, out', w, hanswered', hplain, -⟩ :=
    hunlimited v .refl _ _ (haccepted hsetv (hanswered.poised hout.isInfinity))
  obtain ⟨hscalar, hbits, -⟩ := hplain hblindingv
  have hresult := hanswered'.result
  rw [LadderRun.result_start, hanswered'.curve, hanswered'.point, hscalar, hbits, hcurvev, hsizev]
    at hresult
  have htwo : Curve.scalarMul ⟨97, 2, 3, 5⟩ (Bytes.toNat [7]) (.affine 3 6)
      (max 8 (State.bitLength (Bytes.toNat [7]))) = .affine 80 10 := by decide +kernel
  exact ⟨t, u, v, w, out, out', ht, hthrows, hanswered.returns, hout, hanswered'.returns,
    htwo ▸ hresult⟩

end Driver

end CurveEngine
