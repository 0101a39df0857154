import CurveEngine.Proofs.PrimeField
import Mathlib.AlgebraicGeometry.EllipticCurve.Affine.Point
import Mathlib.Tactic.NormNum.Prime

/-! The points of a curve as an abelian group, and the ladder in it.

Over a prime greater than three, and without a singular point, the points that
`Curve.contains` accepts are the points of a Weierstrass curve over `ZMod p`:
`groupPoint` reads them there, each group element exactly once. The operations on
points are those of the group, special cases included (`groupPoint_add`), and the
ladder keeps the second point one summand ahead of the first, so that it ends at a
multiple of the point it began with (`scalarMul_group`). -/
namespace CurveEngine.Curve
open WeierstrassCurve.Affine

variable (c : Curve)

/-- The curve over the field of residues. -/
def weierstrass : WeierstrassCurve.Affine (ZMod c.p) := ⟨0, 0, 0, c.a, c.b⟩

/-- The curve has no singular point. -/
def Smooth : Prop := ¬ c.p ∣ 4 * c.a ^ 3 + 27 * c.b ^ 2

/-- The pairs of points before each iteration of a ladder. -/
def ladderPairs (k : Nat) : Nat → Point × Point → List (Point × Point)
  | 0, _ => []
  | n + 1, pair => pair :: ladderPairs k n (c.ladderStep (k.testBit n) pair.1 pair.2).2

section Field
variable [Fact c.p.Prime]

open Classical in
/-- A point as an element of the group. -/
noncomputable def groupPoint : Point → c.weierstrass.Point
  | .infinity => 0
  | .affine x y =>
    if h : c.weierstrass.Nonsingular (x : ZMod c.p) (y : ZMod c.p) then .some _ _ h else 0

@[simp] theorem groupPoint_infinity : c.groupPoint .infinity = 0 := rfl

theorem equation_iff (x y : ZMod c.p) :
    c.weierstrass.Equation x y ↔ y ^ 2 = x ^ 3 + c.a * x + c.b := by
  rw [WeierstrassCurve.Affine.equation_iff]
  simp [weierstrass]

theorem negY_eq (x y : ZMod c.p) : c.weierstrass.negY x y = -y := by
  simp [WeierstrassCurve.Affine.negY, weierstrass]

/-- What `contains` asks of a pair of coordinates. -/
theorem contains_affine (x y : Nat) :
    c.contains (.affine x y) = true ↔
      x < c.p ∧ y < c.p ∧ c.weierstrass.Equation (x : ZMod c.p) (y : ZMod c.p) := by
  have hp := c.p_ne_zero
  have hequation : c.mul y y = c.reduce (c.mul (c.mul x x) x + c.mul c.a x + c.b) ↔
      c.weierstrass.Equation (x : ZMod c.p) (y : ZMod c.p) := by
    rw [mul, reduce_eq_reduce_iff, equation_iff]
    simp only [Nat.cast_add, Nat.cast_mul, cast_mul]
    rw [pow_two, pow_succ, pow_two]
  by_cases hrange : c.p = 0 ∨ c.p ≤ x ∨ c.p ≤ y
  · simp only [contains, if_pos hrange, Bool.false_eq_true, false_iff]
    rintro ⟨hx, hy, -⟩
    omega
  · simp only [contains, if_neg hrange, beq_iff_eq, hequation]
    constructor
    · intro h
      exact ⟨by omega, by omega, h⟩
    · exact fun h => h.2.2

end Field

/-! ### Chords and tangents -/

section Odd
variable [Fact c.p.Prime]

theorem two_ne_zero (hp : 2 < c.p) : (2 : ZMod c.p) ≠ 0 := by
  intro h
  have hdvd : c.p ∣ 2 := (ZMod.natCast_eq_zero_iff 2 c.p).mp (by exact_mod_cast h)
  have := Nat.le_of_dvd (by omega) hdvd
  omega

variable {c} (hp : 2 < c.p)
include hp

/-- Only the residue zero is its own negative. -/
theorem eq_neg_self_iff (y : ZMod c.p) : y = -y ↔ y = 0 := by
  rw [eq_neg_iff_add_eq_zero, ← two_mul, mul_eq_zero, or_iff_right (c.two_ne_zero hp)]

/-- The slope of a tangent. -/
theorem cast_tangent {x y : Nat} (hy : (y : ZMod c.p) ≠ c.weierstrass.negY x y) :
    ((c.mul (c.reduce (c.mul 3 (c.mul x x) + c.a)) (c.inv (c.mul 2 y)) : Nat) : ZMod c.p) =
      c.weierstrass.slope x x y y := by
  rw [slope_of_Y_ne rfl hy, negY_eq, cast_mul, cast_inv c hp, cast_reduce, Nat.cast_add]
  simp only [cast_mul, weierstrass, div_eq_mul_inv]
  congr 1
  · push_cast
    ring
  · congr 1
    push_cast
    ring

/-- The slope of a chord. -/
theorem cast_chord {x₁ x₂ : Nat} (y₁ y₂ : Nat) (hx : (x₁ : ZMod c.p) ≠ x₂) :
    ((c.mul (c.sub y₂ y₁) (c.inv (c.sub x₂ x₁)) : Nat) : ZMod c.p) =
      c.weierstrass.slope x₁ x₂ y₁ y₂ := by
  rw [slope_of_X_ne hx, cast_mul, cast_inv c hp, cast_sub, cast_sub, ← div_eq_mul_inv,
    ← neg_sub (y₁ : ZMod c.p), ← neg_sub (x₁ : ZMod c.p), neg_div_neg_eq]

omit hp in
/-- The second coordinate of a sum, from its slope and its first coordinate. -/
theorem cast_addY {slope x₁ x₂ x₃ y₁ : Nat}
    (hx : (x₃ : ZMod c.p) = c.weierstrass.addX x₁ x₂ slope) :
    ((c.sub (c.mul slope (c.sub x₁ x₃)) y₁ : Nat) : ZMod c.p) =
      c.weierstrass.addY x₁ x₂ y₁ slope := by
  rw [cast_sub, cast_mul, cast_sub, hx, addY, negY_eq, negAddY]
  ring

/-- Where a tangent meets the curve again, reflected. -/
theorem double_affine {x y : Nat} (hy : (y : ZMod c.p) ≠ 0) :
    ∃ x₃ y₃, c.double (.affine x y) = .affine x₃ y₃ ∧ x₃ < c.p ∧ y₃ < c.p ∧
      (x₃ : ZMod c.p) = c.weierstrass.addX x x (c.weierstrass.slope x x y y) ∧
      (y₃ : ZMod c.p) = c.weierstrass.addY x x y (c.weierstrass.slope x x y y) := by
  have hne : (y : ZMod c.p) ≠ c.weierstrass.negY x y := by
    rwa [negY_eq, ne_eq, eq_neg_self_iff hp]
  have hslope := cast_tangent hp hne
  simp only [double, reduce_eq_zero_iff, if_neg hy]
  set slope := c.mul (c.reduce (c.mul 3 (c.mul x x) + c.a)) (c.inv (c.mul 2 y))
  have hx : ((c.sub (c.mul slope slope) (c.mul 2 x) : Nat) : ZMod c.p) =
      c.weierstrass.addX x x slope := by
    simp only [cast_sub, cast_mul, addX, weierstrass]
    push_cast
    ring
  refine ⟨_, _, rfl, c.sub_lt _ _, c.sub_lt _ _, ?_, ?_⟩
  · rw [hx, hslope]
  · rw [cast_addY hx, hslope]

/-- Where a chord meets the curve again, reflected. -/
theorem add_affine {x₁ x₂ : Nat} (y₁ y₂ : Nat) (hx : (x₁ : ZMod c.p) ≠ x₂) :
    ∃ x₃ y₃, c.add (.affine x₁ y₁) (.affine x₂ y₂) = .affine x₃ y₃ ∧ x₃ < c.p ∧ y₃ < c.p ∧
      (x₃ : ZMod c.p) = c.weierstrass.addX x₁ x₂ (c.weierstrass.slope x₁ x₂ y₁ y₂) ∧
      (y₃ : ZMod c.p) = c.weierstrass.addY x₁ x₂ y₁ (c.weierstrass.slope x₁ x₂ y₁ y₂) := by
  have hslope := cast_chord hp y₁ y₂ hx
  simp only [add, reduce_eq_reduce_iff, if_neg hx]
  set slope := c.mul (c.sub y₂ y₁) (c.inv (c.sub x₂ x₁))
  have hx₃ : ((c.sub (c.sub (c.mul slope slope) x₁) x₂ : Nat) : ZMod c.p) =
      c.weierstrass.addX x₁ x₂ slope := by
    simp only [cast_sub, cast_mul, addX, weierstrass]
    ring
  refine ⟨_, _, rfl, c.sub_lt _ _, c.sub_lt _ _, ?_, ?_⟩
  · rw [hx₃, hslope]
  · rw [cast_addY hx₃, hslope]

end Odd

/-! ### Points and group elements -/

section Smooth
variable [Fact c.p.Prime]

/-- A smooth curve over a prime greater than three is elliptic. -/
theorem discriminant_ne_zero (hp : 3 < c.p) (hs : c.Smooth) : c.weierstrass.Δ ≠ 0 := by
  have hsum : (4 * c.a ^ 3 + 27 * c.b ^ 2 : ZMod c.p) ≠ 0 := by
    intro h
    exact hs ((ZMod.natCast_eq_zero_iff _ _).mp (by push_cast; exact h))
  have hΔ : c.weierstrass.Δ = -(2 ^ 4 * (4 * c.a ^ 3 + 27 * c.b ^ 2)) := by
    simp only [WeierstrassCurve.Δ, WeierstrassCurve.b₂, WeierstrassCurve.b₄,
      WeierstrassCurve.b₆, WeierstrassCurve.b₈, weierstrass]
    ring
  rw [hΔ]
  exact neg_ne_zero.mpr (mul_ne_zero (pow_ne_zero _ (c.two_ne_zero (by omega))) hsum)

variable {c} (hp : 3 < c.p) (hs : c.Smooth)
include hp hs

theorem nonsingular_of_equation {x y : ZMod c.p} (h : c.weierstrass.Equation x y) :
    c.weierstrass.Nonsingular x y :=
  (equation_iff_nonsingular_of_Δ_ne_zero (c.discriminant_ne_zero hp hs)).mp h

/-- Accepted coordinates are read as they stand. -/
theorem groupPoint_affine {x y : Nat} (h : c.contains (.affine x y) = true) :
    ∃ hxy, c.groupPoint (.affine x y) = .some (x : ZMod c.p) (y : ZMod c.p) hxy := by
  have hxy := nonsingular_of_equation hp hs ((c.contains_affine x y).mp h).2.2
  exact ⟨hxy, by simp only [groupPoint, dif_pos hxy]⟩

/-- Reduced coordinates whose residues are those of a group element are accepted, and
are read as that element. -/
theorem groupPoint_eq_some {x y : Nat} {u v : ZMod c.p} (hx : x < c.p) (hy : y < c.p)
    (hu : (x : ZMod c.p) = u) (hv : (y : ZMod c.p) = v) (huv : c.weierstrass.Nonsingular u v) :
    c.contains (.affine x y) = true ∧ c.groupPoint (.affine x y) = .some u v huv := by
  subst hu hv
  have hin := (c.contains_affine x y).mpr ⟨hx, hy, huv.1⟩
  obtain ⟨_, hread⟩ := groupPoint_affine hp hs hin
  exact ⟨hin, hread⟩

/-- Different points are different group elements. -/
theorem groupPoint_injective {P Q : Point} (hP : c.contains P = true) (hQ : c.contains Q = true)
    (h : c.groupPoint P = c.groupPoint Q) : P = Q := by
  cases P with
  | infinity =>
    cases Q with
    | infinity => rfl
    | affine x y =>
      obtain ⟨hxy, hread⟩ := groupPoint_affine hp hs hQ
      rw [hread, groupPoint_infinity] at h
      exact absurd h.symm (Point.some_ne_zero hxy)
  | affine x y =>
    obtain ⟨hxy, hread⟩ := groupPoint_affine hp hs hP
    cases Q with
    | infinity =>
      rw [hread, groupPoint_infinity] at h
      exact absurd h (Point.some_ne_zero hxy)
    | affine x' y' =>
      obtain ⟨hxy', hread'⟩ := groupPoint_affine hp hs hQ
      rw [hread, hread', Point.some.injEq] at h
      obtain ⟨hx, hy, -⟩ := (c.contains_affine x y).mp hP
      obtain ⟨hx', hy', -⟩ := (c.contains_affine x' y').mp hQ
      rw [c.eq_of_cast_eq hx hx' h.1, c.eq_of_cast_eq hy hy' h.2]

/-- Every group element is a point. -/
theorem groupPoint_surjective (g : c.weierstrass.Point) :
    ∃ P, c.contains P = true ∧ c.groupPoint P = g := by
  cases g with
  | zero => exact ⟨.infinity, rfl, rfl⟩
  | some u v huv =>
    exact ⟨.affine u.val v.val, groupPoint_eq_some hp hs (ZMod.val_lt u) (ZMod.val_lt v)
      (ZMod.natCast_zmod_val u) (ZMod.natCast_zmod_val v) huv⟩

/-! ### Operations -/

theorem groupPoint_neg {P : Point} (hP : c.contains P = true) :
    c.contains (c.neg P) = true ∧ c.groupPoint (c.neg P) = -c.groupPoint P := by
  cases P with
  | infinity => exact ⟨rfl, Point.neg_zero.symm⟩
  | affine x y =>
    obtain ⟨hx, -, -⟩ := (c.contains_affine x y).mp hP
    obtain ⟨hxy, hread⟩ := groupPoint_affine hp hs hP
    rw [hread, Point.neg_some]
    refine groupPoint_eq_some hp hs hx (c.sub_lt 0 y) rfl ?_ _
    rw [cast_sub, Nat.cast_zero, zero_sub, negY_eq]

theorem groupPoint_double {P : Point} (hP : c.contains P = true) :
    c.contains (c.double P) = true ∧
      c.groupPoint (c.double P) = c.groupPoint P + c.groupPoint P := by
  cases P with
  | infinity => exact ⟨rfl, (add_zero _).symm⟩
  | affine x y =>
    obtain ⟨hxy, hread⟩ := groupPoint_affine hp hs hP
    rw [hread]
    by_cases hy : (y : ZMod c.p) = 0
    · -- a point of order two
      have hself : (y : ZMod c.p) = c.weierstrass.negY x y := by rw [negY_eq, hy, neg_zero]
      simp only [double, reduce_eq_zero_iff, if_pos hy]
      exact ⟨rfl, (Point.add_self_of_Y_eq hself).symm⟩
    · have hne : (y : ZMod c.p) ≠ c.weierstrass.negY x y := by
        rwa [negY_eq, ne_eq, eq_neg_self_iff (by omega)]
      obtain ⟨x₃, y₃, hdouble, hx₃, hy₃, hcastX, hcastY⟩ := double_affine (by omega) hy
      rw [hdouble, Point.add_self_of_Y_ne hne]
      exact groupPoint_eq_some hp hs hx₃ hy₃ hcastX hcastY _

theorem groupPoint_add {P Q : Point} (hP : c.contains P = true) (hQ : c.contains Q = true) :
    c.contains (c.add P Q) = true ∧
      c.groupPoint (c.add P Q) = c.groupPoint P + c.groupPoint Q := by
  cases P with
  | infinity => exact ⟨hQ, (zero_add _).symm⟩
  | affine x₁ y₁ =>
    cases Q with
    | infinity => exact ⟨hP, (add_zero _).symm⟩
    | affine x₂ y₂ =>
      obtain ⟨h₁, hread₁⟩ := groupPoint_affine hp hs hP
      obtain ⟨h₂, hread₂⟩ := groupPoint_affine hp hs hQ
      obtain ⟨hx₁, hy₁, heq₁⟩ := (c.contains_affine x₁ y₁).mp hP
      obtain ⟨hx₂, hy₂, heq₂⟩ := (c.contains_affine x₂ y₂).mp hQ
      by_cases hx : (x₁ : ZMod c.p) = x₂
      · simp only [add, reduce_eq_reduce_iff, if_pos hx]
        by_cases hy : (y₁ : ZMod c.p) = y₂
        · -- the same point twice
          rw [if_pos hy, c.eq_of_cast_eq hx₁ hx₂ hx, c.eq_of_cast_eq hy₁ hy₂ hy]
          exact groupPoint_double hp hs hQ
        · -- opposite points: the equation leaves no third root
          rw [if_neg hy, hread₁, hread₂]
          have hopposite := Y_eq_of_X_eq heq₁ heq₂ hx
          exact ⟨rfl, (Point.add_of_Y_eq hx (hopposite.resolve_left hy)).symm⟩
      · obtain ⟨x₃, y₃, hadd, hx₃, hy₃, hcastX, hcastY⟩ := add_affine (by omega) y₁ y₂ hx
        rw [hread₁, hread₂, hadd, Point.add_of_X_ne hx]
        exact groupPoint_eq_some hp hs hx₃ hy₃ hcastX hcastY _

/-! ### The ladder -/

omit hp hs in
variable (c) in
/-- The pair holds a multiple of the point and the multiple after it. -/
structure Consecutive (P : Point) (m : Nat) (pair : Point × Point) : Prop where
  left : c.contains pair.1 = true
  right : c.contains pair.2 = true
  group_left : c.groupPoint pair.1 = m • c.groupPoint P
  group_right : c.groupPoint pair.2 = (m + 1) • c.groupPoint P

omit hp hs in
theorem consecutive_start {P : Point} (hP : c.contains P = true) :
    c.Consecutive P 0 (.infinity, P) :=
  ⟨rfl, hP, (zero_nsmul _).symm, by rw [zero_add, one_nsmul]⟩

/-- An iteration doubles the multiple and adds the bit. -/
theorem Consecutive.step {P : Point} {m : Nat} {pair : Point × Point} (h : c.Consecutive P m pair)
    (bit : Bool) : c.Consecutive P (2 * m + bit.toNat) (c.ladderStep bit pair.1 pair.2).2 := by
  obtain ⟨hsumIn, hsum⟩ := groupPoint_add hp hs h.left h.right
  have hboth : c.groupPoint (c.add pair.1 pair.2) = (2 * m + 1) • c.groupPoint P := by
    rw [hsum, h.group_left, h.group_right, ← add_nsmul]
    congr 1
    omega
  cases bit with
  | false =>
    obtain ⟨hin, hdouble⟩ := groupPoint_double hp hs h.left
    refine ⟨hin, hsumIn, ?_, hboth⟩
    show c.groupPoint (c.double pair.1) = (2 * m + 0) • _
    rw [hdouble, h.group_left, ← add_nsmul]
    congr 1
    omega
  | true =>
    obtain ⟨hin, hdouble⟩ := groupPoint_double hp hs h.right
    refine ⟨hsumIn, hin, hboth, ?_⟩
    show c.groupPoint (c.double pair.2) = (2 * m + 1 + 1) • _
    rw [hdouble, h.group_right, ← add_nsmul]
    congr 1
    omega

omit [Fact c.p.Prime] hp hs in
/-- The low bits of a scalar, one more of them. -/
theorem mod_two_pow_succ (k n : Nat) :
    k % 2 ^ (n + 1) = (k.testBit n).toNat * 2 ^ n + k % 2 ^ n := by
  rw [pow_succ, Nat.mod_mul, Nat.toNat_testBit, Nat.mul_comm (2 ^ n), Nat.add_comm]

/-- A run appends the low bits of the scalar to the multiple it begins with. -/
theorem Consecutive.ladder {P : Point} {m : Nat} {pair : Point × Point} (k n : Nat)
    (h : c.Consecutive P m pair) : c.Consecutive P (m * 2 ^ n + k % 2 ^ n) (c.ladder k n pair) := by
  induction n generalizing m pair with
  | zero => simpa [Curve.ladder, Nat.mod_one] using h
  | succ n ih =>
    have hrest := ih (h.step hp hs (k.testBit n))
    have hmultiple : m * 2 ^ (n + 1) + k % 2 ^ (n + 1) =
        (2 * m + (k.testBit n).toNat) * 2 ^ n + k % 2 ^ n := by
      rw [mod_two_pow_succ, pow_succ]
      ring
    rw [hmultiple]
    exact hrest

/-- Every pair of a run is consecutive. -/
theorem Consecutive.ladderPairs {P : Point} {m : Nat} {pair : Point × Point} (k n : Nat)
    (h : c.Consecutive P m pair) : ∀ q ∈ c.ladderPairs k n pair, ∃ j, c.Consecutive P j q := by
  induction n generalizing m pair with
  | zero =>
    intro q hq
    cases hq
  | succ n ih =>
    intro q hq
    rcases List.mem_cons.mp hq with rfl | hq
    · exact ⟨m, h⟩
    · exact ih (h.step hp hs (k.testBit n)) q hq

/-- In a consecutive pair the second point is the sum of the first and the point. -/
theorem Consecutive.right_eq {P : Point} {m : Nat} {pair : Point × Point}
    (h : c.Consecutive P m pair) (hP : c.contains P = true) : pair.2 = c.add pair.1 P := by
  obtain ⟨hin, hsum⟩ := groupPoint_add hp hs h.left hP
  apply groupPoint_injective hp hs h.right hin
  rw [hsum, h.group_left, h.group_right, add_nsmul, one_nsmul]

omit hp hs in
/-- **The ladder multiplies in the group.** Over a prime greater than three, the points
of a smooth curve are the elements of an abelian group, with infinity as zero and with
`add`, `double` and `neg` as its operations; a run over `n` bits of `k` gives the
`k mod 2 ^ n`-fold sum of the point, and before each of its iterations the second point
is the sum of the first and the point. -/
theorem scalarMul_group (hp : 3 < c.p) (hs : c.Smooth) :
    (Set.BijOn c.groupPoint {P | c.contains P = true} Set.univ ∧
      c.groupPoint .infinity = 0) ∧
    (∀ P Q, c.contains P = true → c.contains Q = true →
      c.contains (c.add P Q) = true ∧
        c.groupPoint (c.add P Q) = c.groupPoint P + c.groupPoint Q) ∧
    (∀ P, c.contains P = true →
      (c.contains (c.double P) = true ∧
        c.groupPoint (c.double P) = c.groupPoint P + c.groupPoint P) ∧
      c.contains (c.neg P) = true ∧ c.groupPoint (c.neg P) = -c.groupPoint P) ∧
    ∀ P, c.contains P = true → ∀ k n : Nat,
      (c.contains (c.scalarMul k P n) = true ∧
        c.groupPoint (c.scalarMul k P n) = (k % 2 ^ n) • c.groupPoint P) ∧
      ∀ pair ∈ c.ladderPairs k n (.infinity, P),
        c.contains pair.1 = true ∧ pair.2 = c.add pair.1 P := by
  refine ⟨⟨⟨?_, ?_, ?_⟩, rfl⟩, ?_, ?_, ?_⟩
  · exact fun _ _ => Set.mem_univ _
  · exact fun P hP Q hQ => groupPoint_injective hp hs hP hQ
  · exact fun g _ => groupPoint_surjective hp hs g
  · exact fun P Q hP hQ => groupPoint_add hp hs hP hQ
  · exact fun P hP => ⟨groupPoint_double hp hs hP, groupPoint_neg hp hs hP⟩
  · intro P hP k n
    have hstart := consecutive_start hP
    have hend := hstart.ladder hp hs k n
    rw [zero_mul, zero_add] at hend
    refine ⟨⟨hend.left, hend.group_left⟩, fun pair hpair => ?_⟩
    obtain ⟨j, hj⟩ := hstart.ladderPairs hp hs k n pair hpair
    exact ⟨hj.left, hj.right_eq hp hs hP⟩

end Smooth

/-- On `y² = x³ + 2x + 3` over the integers modulo 97, the point `(3, 6)` five times. -/
theorem scalarMul_group_mod97 :
    ∃ _ : Fact (Nat.Prime 97), ∃ g : (Curve.weierstrass ⟨97, 2, 3, 5⟩).Point,
      (3 < 97 ∧ Smooth ⟨97, 2, 3, 5⟩ ∧ Curve.contains ⟨97, 2, 3, 5⟩ (.affine 3 6) = true) ∧
      Curve.groupPoint ⟨97, 2, 3, 5⟩ (.affine 3 6) = g ∧
      Curve.groupPoint ⟨97, 2, 3, 5⟩ (Curve.scalarMul ⟨97, 2, 3, 5⟩ 21 (.affine 3 6) 4) =
        (21 % 2 ^ 4) • g := by
  have hprime : Fact (Nat.Prime 97) := ⟨by norm_num⟩
  have hs : Smooth ⟨97, 2, 3, 5⟩ := by
    unfold Smooth
    decide
  have hP : Curve.contains ⟨97, 2, 3, 5⟩ (.affine 3 6) = true := by decide
  have hmain := @scalarMul_group ⟨97, 2, 3, 5⟩ hprime (by decide) hs
  exact ⟨hprime, _, ⟨by decide, hs, hP⟩, rfl, (hmain.2.2.2 _ hP 21 4).1.2⟩

end CurveEngine.Curve
