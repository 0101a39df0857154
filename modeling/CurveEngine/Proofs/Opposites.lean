import CurveEngine.Proofs.OnCurve
import CurveEngine.Proofs.PointOperations

/-! What the tests on two points say about their sum.

A test compares representatives, coordinate by coordinate, while an addition compares residues
and has a branch of its own for doubling. On points of the curve, whose coordinates are reduced,
both come to the same over an odd prime. The equation leaves two points with one first coordinate
only when they are opposite or equal, and a point that is both has the second coordinate zero,
where doubling gives infinity (`add_eq_infinity_iff`). Negating twice gives the point back
(`neg_neg_of_contains`), so one test is the other with a point negated. -/
namespace CurveEngine
open Register Device WeierstrassCurve.Affine

namespace Curve
variable {c : Curve} [Fact c.p.Prime]

/-- A point with reduced coordinates is opposite to another one if their residues are. -/
theorem affine_eq_neg_iff {x₁ y₁ x₂ y₂ : Nat} (hP : c.contains (.affine x₁ y₁) = true)
    (hQ : c.contains (.affine x₂ y₂) = true) :
    Point.affine x₁ y₁ = c.neg (.affine x₂ y₂) ↔
      (x₁ : ZMod c.p) = x₂ ∧ (y₁ : ZMod c.p) = -y₂ := by
  obtain ⟨hx₁, hy₁, -⟩ := (c.contains_affine x₁ y₁).mp hP
  obtain ⟨hx₂, -, -⟩ := (c.contains_affine x₂ y₂).mp hQ
  have hcast : ((c.sub 0 y₂ : Nat) : ZMod c.p) = -y₂ := by rw [cast_sub, Nat.cast_zero, zero_sub]
  rw [neg, Point.affine.injEq, ← hcast]
  constructor
  · rintro ⟨rfl, rfl⟩
    exact ⟨rfl, rfl⟩
  · rintro ⟨hx, hy⟩
    exact ⟨c.eq_of_cast_eq hx₁ hx₂ hx, c.eq_of_cast_eq hy₁ (c.sub_lt 0 y₂) hy⟩

theorem neg_neg_of_contains {P : Point} (hP : c.contains P = true) : c.neg (c.neg P) = P := by
  cases P with
  | infinity => rfl
  | affine x y =>
    refine ((affine_eq_neg_iff hP (contains_neg hP)).mpr ⟨rfl, ?_⟩).symm
    rw [cast_sub, Nat.cast_zero, zero_sub, neg_neg]

/-- Being opposite does not depend on the order of the points. -/
theorem eq_neg_iff {P Q : Point} (hP : c.contains P = true) (hQ : c.contains Q = true) :
    P = c.neg Q ↔ Q = c.neg P := by
  constructor
  · rintro rfl
    exact (neg_neg_of_contains hQ).symm
  · rintro rfl
    exact (neg_neg_of_contains hP).symm

/-- Doubling gives infinity where a point is its own opposite. -/
theorem double_eq_infinity_iff (hp : 2 < c.p) {P : Point} (hP : c.contains P = true) :
    c.double P = .infinity ↔ P = c.neg P := by
  cases P with
  | infinity => exact ⟨fun _ => rfl, fun _ => rfl⟩
  | affine x y =>
    rw [affine_eq_neg_iff hP hP, eq_neg_self_iff hp, and_iff_right rfl]
    constructor
    · intro hdouble
      by_contra hy
      obtain ⟨x₃, y₃, haffine, -⟩ := double_affine (x := x) hp hy
      rw [haffine] at hdouble
      cases hdouble
    · intro hy
      simp only [double, reduce_eq_zero_iff, if_pos hy]

/-- A sum is infinity where the summands are opposite. -/
theorem add_eq_infinity_iff (hp : 2 < c.p) {P Q : Point} (hP : c.contains P = true)
    (hQ : c.contains Q = true) : c.add P Q = .infinity ↔ P = c.neg Q := by
  cases P with
  | infinity =>
    show Q = c.neg .infinity ↔ _
    exact eq_neg_iff hQ hP
  | affine x₁ y₁ =>
    cases Q with
    | infinity => exact Iff.rfl
    | affine x₂ y₂ =>
      obtain ⟨hx₁, hy₁, heq₁⟩ := (c.contains_affine x₁ y₁).mp hP
      obtain ⟨hx₂, hy₂, heq₂⟩ := (c.contains_affine x₂ y₂).mp hQ
      by_cases hx : (x₁ : ZMod c.p) = x₂
      · by_cases hy : (y₁ : ZMod c.p) = y₂
        · -- the same point twice, which the addition doubles
          obtain rfl := c.eq_of_cast_eq hx₁ hx₂ hx
          obtain rfl := c.eq_of_cast_eq hy₁ hy₂ hy
          rw [← double_eq_infinity_iff hp hP, add, if_pos rfl, if_pos rfl]
        · -- the equation leaves no third root
          have hopposite := (Y_eq_of_X_eq heq₁ heq₂ hx).resolve_left hy
          rw [negY_eq] at hopposite
          simp only [add, reduce_eq_reduce_iff, if_pos hx, if_neg hy, true_iff]
          exact (affine_eq_neg_iff hP hQ).mpr ⟨hx, hopposite⟩
      · obtain ⟨x₃, y₃, hadd, -⟩ := add_affine hp y₁ y₂ hx
        rw [hadd, affine_eq_neg_iff hP hQ]
        exact ⟨fun h => (Point.noConfusion h), fun h => absurd h.1 hx⟩

end Curve

namespace Device.State

/-- The answer to a test on points, in the state that its command leaves. -/
def answer (operation : PointOperation) (s : State) : Bool :=
  (s.control (Command.operate operation).word).yes

/-- The engine is free, and has a curve and two points on it in its registers. -/
structure Presents (s : State) (c : Curve) (P Q : Point) : Prop where
  resting : s.multiplying = false
  curve : s.curve = c
  left : s.pointR0 = P
  right : s.pointR1 = Q

variable {s : State} {c : Curve} {P Q : Point}

/-- A point operation of a free engine is carried out by its command. -/
theorem control_operation {operation : PointOperation} (h : operation ≠ .multiply)
    (hresting : s.multiplying = false) :
    s.control (Command.operate operation).word =
      { s.begun.effect operation with operationTime := 1 } := by
  obtain ⟨hwrite, hread⟩ := not_or.mp (Driver.not_opensTransfer operation)
  have hmultiply : ¬ Control.multiply.test (Command.operate operation).word = true := by
    cases operation <;> first | exact absurd rfl h | decide
  rw [control_begun hresting hwrite hread, if_neg hmultiply, operate_word]

namespace Presents

theorem answer_opposite (h : s.Presents c P Q) : s.answer .opposite = (P == c.neg Q) := by
  rw [answer, control_operation (by decide) h.resting, ← h.curve, ← h.left, ← h.right]
  rfl

theorem answer_equal (h : s.Presents c P Q) : s.answer .equal = (P == Q) := by
  rw [answer, control_operation (by decide) h.resting, ← h.left, ← h.right]
  rfl

end Presents

/-- **The tests agree with addition.** Over any odd prime and for any coefficients, on points of
the curve, infinity included: the answer to the test for opposites is whether R0 is the negative
of R1, which is whether their sum is infinity, and it stays the same when the points change
places; the answer to the test for equality is whether the sum of R0 and the negative of R1 is
infinity. -/
theorem tests_agree_with_add (c : Curve) (hp : c.p.Prime) (hodd : c.p ≠ 2) (P Q : Point)
    (hP : c.contains P = true) (hQ : c.contains Q = true) (s : State) (hs : s.Presents c P Q) :
    (s.answer .opposite = (P == c.neg Q) ∧
      (s.answer .opposite = true ↔ c.add P Q = .infinity)) ∧
    (∀ t : State, t.Presents c Q P → t.answer .opposite = s.answer .opposite) ∧
    (s.answer .equal = (P == Q) ∧
      (s.answer .equal = true ↔ c.add P (c.neg Q) = .infinity)) := by
  have : Fact c.p.Prime := ⟨hp⟩
  have htwo : 2 < c.p := Nat.lt_of_le_of_ne hp.two_le (Ne.symm hodd)
  have hopposite := hs.answer_opposite
  have hequal := hs.answer_equal
  refine ⟨⟨hopposite, ?_⟩, fun t ht => ?_, hequal, ?_⟩
  · rw [hopposite, beq_iff_eq, Curve.add_eq_infinity_iff htwo hP hQ]
  · rw [ht.answer_opposite, hopposite, Bool.eq_iff_iff, beq_iff_eq, beq_iff_eq,
      Curve.eq_neg_iff hQ hP]
  · rw [hequal, beq_iff_eq, Curve.add_eq_infinity_iff htwo hP (Curve.contains_neg hQ),
      Curve.neg_neg_of_contains hQ]

/-- What puts the point `(3, 6)` in R0 and its opposite in R1. -/
def opposites97Stores : List (Number × UInt64) := [(.xR0, 3), (.yR0, 6), (.xR1, 3), (.yR1, 91)]

/-- The small engine with those points. -/
def opposites97 : State :=
  Driver.curve97.serveAll (opposites97Stores.flatMap fun (n, value) =>
    [.write .word Sink.control.offset (Command.writeNumber n.address).word.toUInt64,
      .write .word Sink.writeData.offset value])

theorem tests_agree_with_add_opposites97 :
    Nat.Prime 97 ∧ opposites97.Presents ⟨97, 2, 3, 5⟩ (.affine 3 6) (.affine 3 91) ∧
      opposites97.answer .opposite = true ∧ ¬ opposites97.answer .equal = true := by
  have hprime : Nat.Prime 97 := by norm_num
  have hpresents : opposites97.Presents ⟨97, 2, 3, 5⟩ (.affine 3 6) (.affine 3 91) :=
    ⟨by decide +kernel, by decide +kernel, by decide +kernel, by decide +kernel⟩
  obtain ⟨⟨-, hopposite⟩, -, -, hequal⟩ := tests_agree_with_add ⟨97, 2, 3, 5⟩ hprime (by decide)
    (.affine 3 6) (.affine 3 91) (by decide) (by decide) opposites97 hpresents
  exact ⟨hprime, hpresents, hopposite.mpr (by decide +kernel),
    fun h => absurd (hequal.mp h) (by decide +kernel)⟩

end Device.State

end CurveEngine
