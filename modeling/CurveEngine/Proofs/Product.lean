import CurveEngine.Proofs.Loading
import CurveEngine.Proofs.Reduced
import CurveEngine.Proofs.Sequencing
import Mathlib.Tactic.Common

/-! Multiplying a point, end to end.

A multiplication loads its operands, has the engine execute a run, and collects what the
run leaves in R1. Nothing stops a run while no breakpoint is armed (`Unarmed`), so it is
executed within the write that starts it (`does_execute`). `multiply_product` puts the
parts together: between matching widths the answer is the multiple of the point, with no
trace of the token that masked it on the way. -/
namespace CurveEngine
open Register Procedure Device Operation

namespace Device

/-- No breakpoint is armed. -/
def Sequencer.Unarmed (q : Sequencer) : Prop :=
  q.breakpoints = Vector.replicate breakpointCount none

theorem Sequencer.Unarmed.breakpointAt? {q : Sequencer} (h : q.Unarmed) (p : Position) :
    q.breakpointAt? p = none := by
  rw [Sequencer.breakpointAt?, List.find?_eq_none]
  intro id hid
  rw [h, Vector.getElem?_replicate, if_pos (List.mem_range.mp hid)]
  exact Bool.false_ne_true

namespace State

/-- An engine that has been told to start a multiplication. -/
def begun (s : State) : State := { s.occupy with transfer := none }

/-- A command that opens no transfer. -/
theorem control_begun {s : State} {word : UInt32} (hresting : s.multiplying = false)
    (hwrite : ¬ Control.writeNumber.test word = true)
    (hread : ¬ Control.readNumber.test word = true) :
    s.control word =
      if Control.multiply.test word then s.begun.startMultiplication else s.begun.operate word := by
  simp only [control, ControlField.agrees, hresting, Bool.false_eq_true, if_false, hwrite, hread]
  rfl

/-- A multiplication that has been executed to its end. -/
def finished (s : State) : State :=
  (s.launched.after
    ⟨(LadderRun.start s.inputs).pending.reverse, [], (LadderRun.start s.inputs).result⟩).finish

/-- What masks the result of a multiplication. -/
def mask (s : State) : Nat := if s.tokenMask then s.token.getD 0 else 0

theorem params_finished (s : State) : s.finished.params = s.params := rfl

theorem size_finished (s : State) : s.finished.size = s.size := rfl

theorem xR1_finished (s : State) :
    s.finished.numbers.get .xR1 = (LadderRun.start s.inputs).result.coords.1 ^^^ s.mask := rfl

theorem yR1_finished (s : State) :
    s.finished.numbers.get .yR1 = (LadderRun.start s.inputs).result.coords.2 ^^^ s.mask := rfl

theorem r1Null_finished (s : State) :
    s.finished.r1Null = (LadderRun.start s.inputs).result.isInfinity := rfl

/-- A run that nothing stops is executed at once. -/
theorem startMultiplication_finished {s : State} (h : s.curve.contains s.pointR1 = true)
    (hidle : s.sequencer.state = .idle) (hunarmed : s.sequencer.Unarmed)
    (hpending : s.sequencer.haltPending = false) : s.startMultiplication = s.finished := by
  have hfree : ∀ p ∈ (LadderRun.start s.inputs).pending,
      s.launched.sequencer.breakpointAt? p = none :=
    fun p _ => hunarmed.breakpointAt? p
  have hwalk := walk_through hfree [] (LadderRun.start s.inputs).result
  rw [List.append_nil, launched_after] at hwalk
  rw [startMultiplication_walk h hidle, hpending, finished, ← hwalk]
  rfl

end State

end Device

namespace Driver
variable {d : Driver} {s : State}

theorem writeSink_multiply {u : State} (hresting : u.multiplying = false) :
    u.writeSink .control (Command.operate .multiply).word.toUInt64 =
      u.begun.startMultiplication := by
  show u.control (UInt64.toUInt32 _) = _
  rw [UInt32.toUInt32_toUInt64, State.control_begun hresting (by decide) (by decide)]
  exact if_pos (by decide)

/-- Executing a multiplication that nothing stops. -/
theorem does_execute (hidle : s.sequencer.state = .idle) (hresting : s.multiplying = false)
    (h : s.curve.contains s.pointR1 = true) (hunarmed : s.sequencer.Unarmed)
    (hpending : s.sequencer.haltPending = false) :
    Does (Ready d) (d.execute .multiply) s () s.begun.finished := by
  refine does_writeSettled _ _ (fun u hu hu' => ?_) ?_
  · rw [writeSink_multiply hu', ← State.startMultiplication_finished (s := s.begun) h hidle hunarmed
      hpending]
    exact (hu.apply (show State.Timeless State.begun from fun _ => rfl)).apply
      State.timeless_startMultiplication
  · rw [hresting]
    rfl

theorem does_notify (notice : Notice) :
    Does (Ready d) (liftM (notify notice) : Operation Unit) s () s :=
  Does.lift fun t ht => ⟨t, (ends_notify notice t t ()).mpr rfl, ht, id⟩

/-- The token is as long as the result that it masks. -/
theorem length_token (point : Coordinates) (k : Bytes) :
    (d.tokenBytes s).length = (d.loaded s point k).begun.finished.numberBytes := by
  have hsize : (d.loaded s point k).begun.finished.size = s.size := State.size_finished _
  rw [length_tokenBytes, State.numberBytes, State.numberBytes, hsize]

/-- A multiplication is loaded, executed and collected. -/
theorem does_multiply {point : Coordinates} {k : Bytes} (hfits : d.OperandsFit s point k)
    (hidle : s.sequencer.state = .idle) (hresting : s.multiplying = false)
    (h : (d.loaded s point k).curve.contains (d.loaded s point k).pointR1 = true)
    (hunarmed : s.sequencer.Unarmed) (hpending : s.sequencer.haltPending = false) :
    Does (Ready d) (d.multiply point k) s
      (d.collected (d.loaded s point k).begun.finished (d.tokenBytes s))
      (d.afterPoint (d.loaded s point k).begun.finished .r1) := by
  have hexecute := does_execute (d := d) (s := d.loaded s point k) hidle hresting h hunarmed
    hpending
  have hcollect := does_collectResult (d := d) (length_token (d := d) (s := s) point k)
  exact (does_notify _).bind ((does_loadMultiplication hfits).bind (hexecute.bind hcollect))

/-- The result of a run, from what it starts from. -/
theorem result_plain {t : State} (hsmall : t.smallScalar = none) (hblinding : t.blinding = 0) :
    (LadderRun.start t.inputs).result =
      t.curve.scalarMul t.scalar t.pointR1 (max t.size (State.bitLength t.scalar)) := by
  rw [LadderRun.result_start]
  simp only [State.inputs, State.effectiveScalar_plain hsmall hblinding]

/-- **A multiplication multiplies.** On an engine that masks its results and nothing
halts, the product of a point of the curve and a scalar comes back, whatever token and
random values are drawn on the way. -/
theorem multiply_product (d : Driver) (s : State) (point : Coordinates) (k : Bytes)
    (hs : Reachable s) (hresting : s.multiplying = false) (hclear : s.errors = 0)
    (hunarmed : s.sequencer.Unarmed) (hpending : s.sequencer.haltPending = false)
    (hmask : s.tokenMask = true) (hblinding : s.blinding = 0) (hsmall : s.smallScalar = none)
    (hnull : s.r1Null = false) (hsize : s.size ≤ 0xffff) (hpos : 0 < s.numbers.p)
    (hprime : s.numbers.p < 2 ^ s.size) (hwidth : d.Matches s)
    (hpatient : max s.params.latency 3 < d.checks)
    (hx : point.x.length ≤ (s.size + 7) / 8) (hy : point.y.length ≤ (s.size + 7) / 8)
    (hk : k.length ≤ (s.size + 7) / 8)
    (hpoint : s.curve.contains (.affine point.x.toNat point.y.toNat) = true) :
    ∃ out t, Returns bus (d.multiply point k) s out t ∧
      let product := s.curve.scalarMul k.toNat (.affine point.x.toNat point.y.toNat)
        (max s.size (State.bitLength k.toNat))
      out.isInfinity = product.isInfinity ∧
        out.x.length = (s.size + 7) / 8 ∧ out.x.toNat = product.coords.1 ∧
        out.y.length = (s.size + 7) / 8 ∧ out.y.toNat = product.coords.2 := by
  have hbytes : s.numberBytes = (s.size + 7) / 8 := by
    rw [State.numberBytes, Nat.mod_eq_of_lt (by omega)]
  rw [← hbytes] at hx hy hk
  have hfits : d.OperandsFit s point k := ⟨fits_of_le hk, fits_of_le hx, fits_of_le hy⟩
  have hidle := hs.coherent.idle hresting
  -- what the run starts from
  have hscalar := scalar_loaded hwidth hfits
  have hr1 : (d.loaded s point k).pointR1 = .affine point.x.toNat point.y.toNat := by
    rw [pointR1_loaded hwidth hfits, hnull]
    rfl
  have hcontains : (d.loaded s point k).curve.contains (d.loaded s point k).pointR1 = true := by
    rw [hr1]
    exact hpoint
  obtain ⟨t, hreturns, -⟩ := (does_multiply hfits hidle hresting hcontains hunarmed hpending).returns
    s (.refl s) ⟨⟨hs.coherent, hresting, hpatient⟩, hclear⟩
  refine ⟨_, t, hreturns, ?_⟩
  -- what it leaves in R1, masked by the token
  set product := s.curve.scalarMul k.toNat (.affine point.x.toNat point.y.toNat)
    (max s.size (State.bitLength k.toNat))
  have hresult : (LadderRun.start (d.loaded s point k).begun.inputs).result = product := by
    rw [result_plain (t := (d.loaded s point k).begun) hsmall hblinding]
    show (d.loaded s point k).curve.scalarMul (d.loaded s point k).scalar
      (d.loaded s point k).pointR1 (max s.size (State.bitLength (d.loaded s point k).scalar)) = _
    rw [hscalar, hr1]
    rfl
  have hreduced : s.curve.Reduced product := Curve.reduced_scalarMul hpoint _ _
  have hbound : max s.numbers.p 1 ≤ 256 ^ s.numberBytes := by
    rw [Nat.max_eq_left hpos, Bytes.pow_eight_mul, hbytes]
    exact Nat.le_trans (Nat.le_of_lt hprime) (Nat.pow_le_pow_right (by decide) (by omega))
  have hmasked : (d.loaded s point k).begun.mask = (s.draw s.size .axi).1 := if_pos hmask
  have hxR1 := State.xR1_finished (d.loaded s point k).begun
  have hyR1 := State.yR1_finished (d.loaded s point k).begun
  rw [hresult, hmasked] at hxR1 hyR1
  obtain ⟨⟨hlx, hx⟩, hly, hy⟩ := collected_of_masked hwidth
    (State.params_finished (d.loaded s point k).begun)
    (State.size_finished (d.loaded s point k).begun)
    (Nat.lt_of_lt_of_le hreduced.1 hbound) (Nat.lt_of_lt_of_le hreduced.2 hbound) hxR1 hyR1
  have hinfinity := State.r1Null_finished (d.loaded s point k).begun
  rw [hresult] at hinfinity
  exact ⟨hinfinity, hlx.trans hbytes, hx, hly.trans hbytes, hy⟩

/-! ### A small engine -/

/-- What sets up the curve `y² = x³ + 2x + 3` modulo 97 with a subgroup of order 5, and a
point in R1 that is not infinity. -/
def curve97Stores : List (Sink × UInt64) :=
  (([(.p, 97), (.a, 2), (.b, 3), (.q, 5)] : List (Number × UInt64)).flatMap fun (n, value) =>
    [(.control, (Command.writeNumber n.address).word.toUInt64), (.writeData, value)]) ++
  [(.r1Null, 0)]

/-- An engine for primes of eight bits on which that curve has been set up. -/
def curve97 : State :=
  curve97Stores.foldl (fun s store => (s.write .word store.1.offset store.2).2)
    (.powerUp { maxSize := 8, size := 8, opcodes := 0, rawSize := 0 } fun _ => 0)

theorem reachable_curve97 : Reachable curve97 :=
  List.foldlRecOn curve97Stores _ (.powerUp _ _) fun _ hs store _ =>
    hs.write .word store.1.offset store.2

/-- Twenty-one times the point `(3, 6)`, which has order 5. -/
theorem multiply_product_curve97 :
    curve97.curve.contains (.affine 3 6) = true ∧
      ∃ out t, Returns bus ((⟨{}, 10⟩ : Driver).multiply ⟨[3], [6]⟩ [21]) curve97 out t ∧
        out.isInfinity = false ∧ out.x.toNat = 3 ∧ out.y.toNat = 6 := by
  have hpoint : curve97.curve.contains (.affine 3 6) = true := by decide
  obtain ⟨out, t, hreturns, hinfinity, -, hx, -, hy⟩ :=
    multiply_product ⟨{}, 10⟩ curve97 ⟨[3], [6]⟩ [21] reachable_curve97 rfl rfl
      rfl rfl rfl rfl rfl rfl (by decide) (by decide) (by decide) rfl (by decide) (by decide)
      (by decide) (by decide) hpoint
  have hproduct : curve97.curve.scalarMul 21 (.affine 3 6) 8 = .affine 3 6 := by decide +kernel
  exact ⟨hpoint, out, t, hreturns, hinfinity.trans (congrArg Point.isInfinity hproduct),
    hx.trans (congrArg (fun P => P.coords.1) hproduct),
    hy.trans (congrArg (fun P => P.coords.2) hproduct)⟩

end Driver

end CurveEngine
