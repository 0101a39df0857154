import CurveEngine.Curve
import Mathlib.Tactic.Common

/-! Reduced coordinates.

Whatever the modulus, the coordinates of a point on the curve are below it, and so are
those of every point that the ladder makes of one (`reduced_ladder`). They take no more
bits than the modulus. Without a modulus every coordinate is zero. Operands that are not
reduced may come back as they are, so that what is computed of them stays below any bound
that holds of them and of the modulus (`below_add`, `below_neg`). -/
namespace CurveEngine

/-- Both coordinates are below a bound. -/
def Point.Below (bound : Nat) (P : Point) : Prop := P.coords.1 < bound ∧ P.coords.2 < bound

namespace Curve
variable {c : Curve}

/-- Both coordinates are below the modulus, or zero if there is none. -/
def Reduced (c : Curve) (P : Point) : Prop := P.coords.1 < max c.p 1 ∧ P.coords.2 < max c.p 1

theorem reduced_infinity : c.Reduced .infinity :=
  ⟨Nat.lt_of_lt_of_le Nat.one_pos (Nat.le_max_right _ _),
    Nat.lt_of_lt_of_le Nat.one_pos (Nat.le_max_right _ _)⟩

theorem reduced_of_contains {P : Point} (hP : c.contains P = true) : c.Reduced P := by
  cases P with
  | infinity => exact reduced_infinity
  | affine x y =>
    simp only [contains] at hP
    split at hP
    · cases hP
    · rename_i hrange
      constructor
      · show x < max c.p 1
        omega
      · show y < max c.p 1
        omega

theorem reduced_sub (a b a' b' : Nat) : c.Reduced (.affine (c.sub a b) (c.sub a' b')) := by
  have hlt (v : Nat) : c.reduce v < max c.p 1 := by
    rw [reduce]
    split
    · omega
    · exact Nat.lt_of_lt_of_le (Nat.mod_lt v (by omega)) (Nat.le_max_left _ _)
  exact ⟨hlt _, hlt _⟩

theorem reduced_double (P : Point) : c.Reduced (c.double P) := by
  cases P with
  | infinity => exact reduced_infinity
  | affine x y =>
    simp only [double]
    split
    · exact reduced_infinity
    · exact reduced_sub _ _ _ _

/-- What is computed of two affine points is reduced. -/
theorem reduced_add_affine (x₁ y₁ x₂ y₂ : Nat) :
    c.Reduced (c.add (.affine x₁ y₁) (.affine x₂ y₂)) := by
  simp only [add]
  split
  · split
    · exact reduced_double _
    · exact reduced_infinity
  · exact reduced_sub _ _ _ _

theorem Reduced.below {P : Point} (hP : c.Reduced P) {bound : Nat} (hbound : max c.p 1 ≤ bound) :
    P.Below bound :=
  ⟨Nat.lt_of_lt_of_le hP.1 hbound, Nat.lt_of_lt_of_le hP.2 hbound⟩

theorem below_add {P Q : Point} {bound : Nat} (hbound : max c.p 1 ≤ bound) (hP : P.Below bound)
    (hQ : Q.Below bound) : (c.add P Q).Below bound := by
  cases P with
  | infinity => exact hQ
  | affine x₁ y₁ =>
    cases Q with
    | infinity => exact hP
    | affine x₂ y₂ => exact (reduced_add_affine x₁ y₁ x₂ y₂).below hbound

theorem below_neg {P : Point} {bound : Nat} (hbound : max c.p 1 ≤ bound) (hP : P.Below bound) :
    (c.neg P).Below bound := by
  cases P with
  | infinity => exact hP
  | affine x y => exact ⟨hP.1, ((reduced_sub 0 0 0 y).below hbound).2⟩

theorem reduced_add {P Q : Point} (hP : c.Reduced P) (hQ : c.Reduced Q) : c.Reduced (c.add P Q) :=
  below_add (Nat.le_refl _) hP hQ

theorem reduced_ladderStep (bit : Bool) {P Q : Point} (hP : c.Reduced P) (hQ : c.Reduced Q) :
    (c.Reduced (c.ladderStep bit P Q).1.1 ∧ c.Reduced (c.ladderStep bit P Q).1.2) ∧
      c.Reduced (c.ladderStep bit P Q).2.1 ∧ c.Reduced (c.ladderStep bit P Q).2.2 := by
  have hsum := reduced_add hP hQ
  cases bit with
  | true => exact ⟨⟨hsum, hQ⟩, hsum, reduced_double Q⟩
  | false => exact ⟨⟨hP, hsum⟩, reduced_double P, hsum⟩

theorem reduced_ladder (k n : Nat) {pair : Point × Point} (hP : c.Reduced pair.1)
    (hQ : c.Reduced pair.2) :
    c.Reduced (c.ladder k n pair).1 ∧ c.Reduced (c.ladder k n pair).2 := by
  induction n generalizing pair with
  | zero => exact ⟨hP, hQ⟩
  | succ n ih =>
    obtain ⟨-, hleft, hright⟩ := reduced_ladderStep (k.testBit n) hP hQ
    exact ih hleft hright

theorem reduced_scalarMul {P : Point} (hP : c.contains P = true) (k n : Nat) :
    c.Reduced (c.scalarMul k P n) :=
  (reduced_ladder k n reduced_infinity (reduced_of_contains hP)).1

end Curve

end CurveEngine
