import CurveEngine.Driver.Countermeasure
import CurveEngine.Proofs.Draws
import CurveEngine.Proofs.Group
import CurveEngine.Proofs.Product

/-! Blinding a multiplication.

A blinded run uses the scalar with a random multiple of the order added, and as many
iterations as that takes. The order of the point makes the multiple vanish in the group, and
no iteration is missing, so that the run comes to the same point as one that is not blinded
(`result_blinded`). What masks it differs between the two, and is taken off: the answers are the
same byte for byte (`multiply_blinded`). -/
namespace CurveEngine

namespace Curve
variable {c : Curve} [Fact c.p.Prime] (hp : 3 < c.p) (hs : c.Smooth)
include hp hs

/-- A run over the low bits of a scalar gives their multiple. -/
theorem groupPoint_scalarMul {P : Point} (hP : c.contains P = true) (k n : Nat) :
    c.contains (c.scalarMul k P n) = true ∧
      c.groupPoint (c.scalarMul k P n) = (k % 2 ^ n) • c.groupPoint P := by
  have hend := (consecutive_start hP).ladder hp hs k n
  rw [zero_mul, zero_add] at hend
  exact ⟨hend.left, hend.group_left⟩

/-- Runs for the same multiple come to the same point. -/
theorem scalarMul_eq_of_multiple {P : Point} (hP : c.contains P = true) {k k' n n' : Nat}
    (h : (k % 2 ^ n) • c.groupPoint P = (k' % 2 ^ n') • c.groupPoint P) :
    c.scalarMul k P n = c.scalarMul k' P n' := by
  obtain ⟨hin, hmultiple⟩ := groupPoint_scalarMul hp hs hP k n
  obtain ⟨hin', hmultiple'⟩ := groupPoint_scalarMul hp hs hP k' n'
  exact groupPoint_injective hp hs hin hin' (hmultiple.trans (h.trans hmultiple'.symm))

end Curve

open Register Procedure Device Operation

namespace Device.State

theorem lt_two_pow_bitLength (n : Nat) : n < 2 ^ bitLength n := by
  unfold bitLength
  split
  · rename_i hzero
    rw [hzero]
    decide
  · exact Nat.lt_log2_self

/-- A run with an iteration for every bit misses nothing of the scalar. -/
theorem mod_bits_max (size n : Nat) : n % 2 ^ max size (bitLength n) = n :=
  Nat.mod_eq_of_lt (Nat.lt_of_lt_of_le (lt_two_pow_bitLength n)
    (Nat.pow_le_pow_right (by decide) (Nat.le_max_right ..)))

/-- **Blinding changes no result.** Where the order of the point divides the order of the curve,
a blinded run comes to what a run of the scalar comes to. -/
theorem result_blinded {s : State} [Fact s.curve.p.Prime] (hp : 3 < s.curve.p)
    (hsmooth : s.curve.Smooth) (hpoint : s.curve.contains s.pointR1 = true)
    (horder : s.curve.q • s.curve.groupPoint s.pointR1 = 0) (hsmall : s.smallScalar = none)
    (hblinding : 0 < s.blinding) :
    (LadderRun.start s.inputs).result =
      s.curve.scalarMul s.scalar s.pointR1 (max s.size (bitLength s.scalar)) := by
  obtain ⟨alpha, -, hscalar, hbits⟩ := s.scalarOf_inputs.blinded hsmall hblinding
  rw [LadderRun.result_start]
  show s.curve.scalarMul s.inputs.scalar s.pointR1 s.inputs.bits = _
  apply Curve.scalarMul_eq_of_multiple hp hsmooth hpoint
  rw [hbits, mod_bits_max, mod_bits_max, hscalar]
  calc (s.scalar + alpha * s.curve.q) • s.curve.groupPoint s.pointR1
    _ = s.scalar • s.curve.groupPoint s.pointR1 +
        alpha • s.curve.q • s.curve.groupPoint s.pointR1 := by rw [add_nsmul, mul_nsmul']
    _ = s.scalar • s.curve.groupPoint s.pointR1 := by rw [horder, nsmul_zero, add_zero]

end Device.State

namespace Driver
variable {d : Driver} {s : State} {point : Coordinates} {k : Bytes}

/-! ### Turning blinding on and off -/

theorem does_disableBlinding : Does (Ready d) d.disableBlinding s () { s with blinding := 0 } :=
  does_writeSettled _ _ (fun _ hu _ =>
    hu.apply (show State.Timeless fun s => { s with blinding := 0 } from fun _ => rfl)) rfl

/-- Blinding by fewer bits than the prime has is accepted. -/
theorem writeSink_blinding {bits : UInt32} (hpos : 0 < bits.toNat) (hbelow : bits.toNat < s.size)
    (hbits : bits.toNat < 2 ^ 16) :
    s.writeSink .blinding (Blinding.bits.set bits (Blinding.enable.put true 0)).toUInt64 =
      State.occupy { s with blinding := bits.toNat } := by
  have henable :
      Blinding.enable.test (Blinding.bits.set bits (Blinding.enable.put true 0)) = true := by
    simp (disch := decide) only [BitField.test_set_of_apart, BitField.test_put]
  have hbits : Blinding.bits.get (Blinding.bits.set bits (Blinding.enable.put true 0)) = bits :=
    BitField.get_set_of_lt (by decide) (by decide) (show bits.toNat < 2 ^ 28 by omega) _
  show (s.setBlinding (UInt64.toUInt32 _)).occupy = _
  simp only [UInt32.toUInt32_toUInt64, State.setBlinding, BlindingField.agrees, henable, hbits,
    Bool.not_true, Bool.false_eq_true, if_false, ge_iff_le, Nat.not_le.mpr hbelow,
    Nat.pos_iff_ne_zero.mp hpos, decide_false, Bool.or_self]

/-- Blinding by fewer bits than the size register shows. -/
theorem does_enableBlinding_shown {bits : UInt32} (hpos : 0 < bits.toNat)
    (hbelow : bits.toNat < s.size % 2 ^ 16) :
    Does (Ready d) (d.enableBlinding bits) s () { s with blinding := bits.toNat } := by
  have hnonzero : ¬ bits = 0 := fun hzero => by
    rw [hzero] at hpos
    exact absurd hpos (by decide)
  have hread : Does (Ready d) (liftM d.size) s (s.size % 2 ^ 16) s := by
    refine Does.lift fun t ht => ⟨t, (ends_size _ _).mpr ⟨?_, rfl⟩, ht, id⟩
    rw [ht.field State.size fun _ => rfl]
  rw [enableBlinding, if_neg hnonzero]
  refine hread.bind ?_
  rw [if_neg (Nat.not_le.mpr hbelow)]
  refine does_writeSettled _ _ (fun u hu _ => ?_) rfl
  have hu' : u.size = s.size := hu.field State.size fun _ => rfl
  have hbelow' : bits.toNat < u.size := Nat.lt_of_lt_of_le hbelow (hu' ▸ Nat.mod_le _ _)
  rw [writeSink_blinding hpos hbelow' (Nat.lt_trans hbelow (Nat.mod_lt _ (by decide)))]
  exact hu.apply
    (show State.Timeless fun s => State.occupy { s with blinding := bits.toNat } from fun _ => rfl)

theorem does_enableBlinding {bits : UInt32} (hpos : 0 < bits.toNat) (hbelow : bits.toNat < s.size)
    (hsize : s.size ≤ 0xffff) :
    Does (Ready d) (d.enableBlinding bits) s () { s with blinding := bits.toNat } :=
  does_enableBlinding_shown hpos (by rwa [Nat.mod_eq_of_lt (by omega)])

/-! ### Answers -/

/-- The bytes of an answer write a point, at the length of the prime size. -/
structure Writes (size : Nat) (out : PointAnswer) (P : Point) : Prop where
  isInfinity : out.isInfinity = P.isInfinity
  length_x : out.x.length = (size + 7) / 8
  x : out.x.toNat = P.coords.1
  length_y : out.y.length = (size + 7) / 8
  y : out.y.toNat = P.coords.2

/-- There is one way to write a point. -/
theorem Writes.unique {size : Nat} {out out' : PointAnswer} {P : Point} (h : Writes size out P)
    (h' : Writes size out' P) : out = out' := by
  have hx := Bytes.eq_of_toNat (h.length_x.trans h'.length_x.symm) (h.x.trans h'.x.symm)
  have hy := Bytes.eq_of_toNat (h.length_y.trans h'.length_y.symm) (h.y.trans h'.y.symm)
  have hinfinity := h.isInfinity.trans h'.isInfinity.symm
  cases out
  cases out'
  simp_all

/-- What a multiplication takes to be answered with the result of its run: an engine at rest that
nothing halts and that masks its results, for primes of at most 65535 bits, with words as wide as
the driver has them. -/
structure Poised (d : Driver) (s : State) : Prop where
  ready : Ready d s
  unarmed : s.sequencer.Unarmed
  unhalted : s.sequencer.haltPending = false
  masks : s.tokenMask = true
  matching : d.Matches s
  size_le : s.size ≤ 0xffff
  prime_pos : 0 < s.numbers.p
  prime_lt : s.numbers.p < 2 ^ s.size
  /-- A point in R1 is not infinity, and not to be cut. -/
  r1Null : s.r1Null = false

/-- An engine that multiplies by scalars as long as they are. -/
structure Answering (d : Driver) (s : State) : Prop extends Poised d s where
  smallScalar : s.smallScalar = none

/-- A point of a curve and a scalar, no longer than the prime size. -/
structure Operands (c : Curve) (size : Nat) (point : Coordinates) (k : Bytes) : Prop where
  x : point.x.length ≤ (size + 7) / 8
  y : point.y.length ≤ (size + 7) / 8
  k : k.length ≤ (size + 7) / 8
  contains : c.contains (.affine point.x.toNat point.y.toNat) = true

namespace Poised

theorem numberBytes_eq (h : Poised d s) : s.numberBytes = (s.size + 7) / 8 :=
  State.numberBytes_of_le h.size_le

theorem operandsFit (h : Poised d s) (ho : Operands s.curve s.size point k) :
    d.OperandsFit s point k :=
  ⟨fits_of_le (h.numberBytes_eq ▸ ho.k), fits_of_le (h.numberBytes_eq ▸ ho.x),
    fits_of_le (h.numberBytes_eq ▸ ho.y)⟩

theorem pointR1 (h : Poised d s) (hfits : d.OperandsFit s point k) :
    (d.loaded s point k).pointR1 = .affine point.x.toNat point.y.toNat := by
  rw [pointR1_loaded h.matching hfits, h.r1Null]
  rfl

/-- A multiplication is answered with the result of its run. -/
theorem writes_result (h : Poised d s) {product : Point}
    (hresult : (LadderRun.start (d.loaded s point k).begun.inputs).result = product)
    (hreduced : s.curve.Reduced product) :
    Writes s.size (d.collected (d.loaded s point k).begun.finished (d.tokenBytes s)) product := by
  have hbytes := h.numberBytes_eq
  have hbound : max s.numbers.p 1 ≤ 256 ^ s.numberBytes := by
    rw [Nat.max_eq_left h.prime_pos, Bytes.pow_eight_mul, hbytes]
    exact Nat.le_trans (Nat.le_of_lt h.prime_lt) (Nat.pow_le_pow_right (by decide) (by omega))
  -- the mask is the token that has been read before
  have hmask : (d.loaded s point k).begun.mask = (s.draw s.size .axi).1 := if_pos h.masks
  have hxR1 := State.xR1_finished (d.loaded s point k).begun
  have hyR1 := State.yR1_finished (d.loaded s point k).begun
  rw [hresult, hmask] at hxR1 hyR1
  obtain ⟨⟨hlx, hx⟩, hly, hy⟩ := collected_of_masked h.matching
    (State.params_finished (d.loaded s point k).begun)
    (State.size_finished (d.loaded s point k).begun)
    (Nat.lt_of_lt_of_le hreduced.1 hbound) (Nat.lt_of_lt_of_le hreduced.2 hbound) hxR1 hyR1
  have hinfinity := State.r1Null_finished (d.loaded s point k).begun
  rw [hresult] at hinfinity
  exact ⟨hinfinity, hlx.trans hbytes, hx, hly.trans hbytes, hy⟩

/-- A multiplication of a point of the curve is answered on an engine at rest. -/
theorem does_accepted (h : Poised d s) (hfits : d.OperandsFit s point k)
    (hon : s.curve.contains (.affine point.x.toNat point.y.toNat) = true) :
    Does (Ready d) (d.multiply point k) s
      (d.collected (d.loaded s point k).begun.finished (d.tokenBytes s))
      (d.afterPoint (d.loaded s point k).begun.finished .r1) := by
  have hcontains : (d.loaded s point k).curve.contains (d.loaded s point k).pointR1 = true := by
    rw [h.pointR1 hfits]
    exact hon
  exact Driver.does_multiply hfits (h.ready.coherent.idle h.ready.resting) h.ready.resting hcontains
    h.unarmed h.unhalted

theorem does_multiply (h : Poised d s) (ho : Operands s.curve s.size point k) :
    Does (Ready d) (d.multiply point k) s
      (d.collected (d.loaded s point k).begun.finished (d.tokenBytes s))
      (d.afterPoint (d.loaded s point k).begun.finished .r1) :=
  h.does_accepted (h.operandsFit ho) ho.contains

end Poised

namespace Answering

theorem withBlinding (h : Answering d s) (bits : Nat) : Answering d { s with blinding := bits } :=
  { h with ready := h.ready.frame { h.ready.coherent with } rfl }

/-- The multiple of a point comes back, blinded or not. -/
theorem writes_product {c : Curve} [Fact c.p.Prime] (h : Answering d s) (hcurve : s.curve = c)
    (ho : Operands c s.size point k) (hp : 3 < c.p) (hsmooth : c.Smooth)
    (horder : c.q • c.groupPoint (.affine point.x.toNat point.y.toNat) = 0) :
    Writes s.size (d.collected (d.loaded s point k).begun.finished (d.tokenBytes s))
      (c.scalarMul k.toNat (.affine point.x.toNat point.y.toNat)
        (max s.size (State.bitLength k.toNat))) := by
  subst hcurve
  have hr1 : (d.loaded s point k).begun.pointR1 = .affine point.x.toNat point.y.toNat :=
    h.pointR1 (h.operandsFit ho)
  have hscalar : (d.loaded s point k).begun.scalar = k.toNat :=
    scalar_loaded h.matching (h.operandsFit ho)
  have hrun : (LadderRun.start (d.loaded s point k).begun.inputs).result =
      s.curve.scalarMul (d.loaded s point k).begun.scalar (d.loaded s point k).begun.pointR1
        (max s.size (State.bitLength (d.loaded s point k).begun.scalar)) := by
    rcases Nat.eq_zero_or_pos s.blinding with hzero | hpos
    · exact result_plain (t := (d.loaded s point k).begun) h.smallScalar hzero
    · have hfact : Fact (d.loaded s point k).begun.curve.p.Prime := ‹Fact s.curve.p.Prime›
      refine State.result_blinded (s := (d.loaded s point k).begun) hp hsmooth ?_ ?_ h.smallScalar
        hpos
      · rw [hr1]
        exact ho.contains
      · rw [hr1]
        exact horder
  rw [hr1, hscalar] at hrun
  exact h.writes_result hrun (Curve.reduced_scalarMul ho.contains _ _)

end Answering

/-- **Blinding changes no answer.** Between a point whose order divides that of the curve and any
scalar, a multiplication is answered with the same bytes whether scalars are blinded before it, by
any size below the prime size, or not: they write the multiple of the point by the scalar. -/
theorem multiply_blinded (d : Driver) (s : State) (point : Coordinates) (k : Bytes) (bits : UInt32)
    [Fact s.curve.p.Prime] (hs : Reachable s) (hresting : s.multiplying = false)
    (hclear : s.errors = 0) (hunarmed : s.sequencer.Unarmed)
    (hpending : s.sequencer.haltPending = false) (hmask : s.tokenMask = true)
    (hsmall : s.smallScalar = none) (hnull : s.r1Null = false) (hsize : s.size ≤ 0xffff)
    (hlarge : 3 < s.curve.p) (hprime : s.curve.p < 2 ^ s.size) (hsmooth : s.curve.Smooth)
    (hwidth : d.Matches s) (hpatient : max s.params.latency 3 < d.checks)
    (hoperands : Operands s.curve s.size point k)
    (horder : s.curve.q • s.curve.groupPoint (.affine point.x.toNat point.y.toNat) = 0)
    (hpos : 0 < bits.toNat) (hbelow : bits.toNat < s.size) :
    ∃ out t u, Returns bus (do d.enableBlinding bits; d.multiply point k) s out t ∧
      Returns bus (do d.disableBlinding; d.multiply point k) s out u ∧
      ∃ product, Writes s.size out product ∧ s.curve.contains product = true ∧
        s.curve.groupPoint product =
          k.toNat • s.curve.groupPoint (.affine point.x.toNat point.y.toNat) := by
  have hready : Ready d s := ⟨⟨hs.coherent, hresting, hpatient⟩, hclear⟩
  have h : Answering d s := ⟨⟨hready, hunarmed, hpending, hmask, hwidth, hsize,
    Nat.lt_trans (by decide) hlarge, hprime, hnull⟩, hsmall⟩
  have hblinded :=
    (h.withBlinding bits.toNat).writes_product (c := s.curve) rfl hoperands hlarge hsmooth horder
  have hplain :=
    (h.withBlinding 0).writes_product (c := s.curve) rfl hoperands hlarge hsmooth horder
  obtain ⟨t, ht, -⟩ := ((does_enableBlinding hpos hbelow hsize).bind
    (f := fun _ => d.multiply point k)
    ((h.withBlinding bits.toNat).does_multiply hoperands)).returns s (.refl s) hready
  obtain ⟨u, hu, -⟩ := (does_disableBlinding.bind (f := fun _ => d.multiply point k)
    ((h.withBlinding 0).does_multiply hoperands)).returns s (.refl s) hready
  obtain ⟨hin, hmultiple⟩ := Curve.groupPoint_scalarMul hlarge hsmooth hoperands.contains k.toNat
    (max s.size (State.bitLength k.toNat))
  rw [State.mod_bits_max] at hmultiple
  refine ⟨_, t, u, ht, ?_, _, hblinded, hin, hmultiple⟩
  rw [hblinded.unique hplain]
  exact hu

/-- Twenty-one times the point `(3, 6)` of order 5, blinded by three bits. -/
theorem multiply_blinded_curve97 :
    let d : Driver := ⟨{}, 10⟩
    ∃ out t u, Returns bus (do d.enableBlinding 3; d.multiply ⟨[3], [6]⟩ [21]) curve97 out t ∧
      Returns bus (do d.disableBlinding; d.multiply ⟨[3], [6]⟩ [21]) curve97 out u ∧
      Writes 8 out (.affine 3 6) := by
  intro d
  have hcurve : curve97.curve = ⟨97, 2, 3, 5⟩ := by decide
  have hfact : Fact curve97.curve.p.Prime := ⟨by rw [hcurve]; norm_num⟩
  have hlarge : 3 < curve97.curve.p := by decide
  have hsmooth : curve97.curve.Smooth := by
    rw [hcurve]
    unfold Curve.Smooth
    decide
  have hpoint : curve97.curve.contains (.affine 3 6) = true := by decide
  have hoperands : Operands curve97.curve curve97.size ⟨[3], [6]⟩ [21] :=
    ⟨by decide, by decide, by decide, hpoint⟩
  have hmultiple := Curve.groupPoint_scalarMul hlarge hsmooth hpoint
  have horder : curve97.curve.q • curve97.curve.groupPoint (.affine 3 6) = 0 := by
    have hinfinity : curve97.curve.scalarMul 5 (.affine 3 6) 3 = .infinity := by decide +kernel
    have hfive := (hmultiple 5 3).2.symm
    rwa [hinfinity] at hfive
  obtain ⟨out, t, u, ht, hu, product, hwrites, hin, hproduct⟩ :=
    multiply_blinded d curve97 ⟨[3], [6]⟩ [21] 3 reachable_curve97 rfl rfl rfl rfl rfl rfl rfl
      (by decide) hlarge (by decide) hsmooth rfl (by decide) hoperands horder (by decide)
      (by decide)
  have hsame : curve97.curve.scalarMul 21 (.affine 3 6) 8 = .affine 3 6 := by decide +kernel
  obtain ⟨hin', hproduct'⟩ := hmultiple 21 8
  have heq := Curve.groupPoint_injective hlarge hsmooth hin hin' (hproduct.trans hproduct'.symm)
  rw [heq, hsame] at hwrites
  exact ⟨out, t, u, ht, hu, hwrites⟩

end Driver

end CurveEngine
