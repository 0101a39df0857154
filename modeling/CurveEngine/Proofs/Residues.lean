import CurveEngine.Proofs.PrimeField
import CurveEngine.Proofs.Reduced
import Mathlib.Data.Nat.PSub
import Mathlib.Tactic.LinearCombination

/-! Curve arithmetic on representatives.

A coordinate stands for its residue, and an engine computes with whatever representative it is
given, for whatever modulus. Subtraction and division of natural numbers are defined only in
part. `sub?`, `inv?`, `add?` and their like carry out the arithmetic of a curve with the partial
operations, and always have a result, the one of the total arithmetic. The points that are
computed depend on the residues of the operands alone, and have reduced coordinates themselves
(`arithmetic_of_residues`). Modulo a prime two points can be added in either order, whether they
are on the curve or not (`add_comm_of_prime`). -/
namespace CurveEngine.Curve
variable (c : Curve)

/-! ### Partial arithmetic -/

/-- The remainder, if there is a modulus. -/
def mod? (v m : Nat) : Option Nat := if m = 0 then none else some (v % m)

/-- The power modulo `m`, if there is a modulus. -/
def powMod? (m b e : Nat) : Option Nat := if m = 0 then none else some (powMod m b e)

def reduce? (v : Nat) : Option Nat := if c.p = 0 then some 0 else mod? v c.p

def sub? (a b : Nat) : Option Nat := do
  let difference ← ((← c.reduce? a) + c.p).psub (← c.reduce? b)
  c.reduce? difference

def mul? (a b : Nat) : Option Nat := c.reduce? (a * b)

def inv? (a : Nat) : Option Nat :=
  if c.p ≤ 1 then some 0 else do powMod? c.p (← c.reduce? a) (← c.p.psub 2)

def neg? : Point → Option Point
  | .infinity => some .infinity
  | .affine x y => do return .affine x (← c.sub? 0 y)

def double? : Point → Option Point
  | .infinity => some .infinity
  | .affine x y => do
    if (← c.reduce? y) = 0 then return .infinity
    let numerator ← c.reduce? ((← c.mul? 3 (← c.mul? x x)) + c.a)
    let slope ← c.mul? numerator (← c.inv? (← c.mul? 2 y))
    let x3 ← c.sub? (← c.mul? slope slope) (← c.mul? 2 x)
    return .affine x3 (← c.sub? (← c.mul? slope (← c.sub? x x3)) y)

def add? : Point → Point → Option Point
  | .infinity, r => some r
  | r, .infinity => some r
  | .affine x1 y1, .affine x2 y2 => do
    if (← c.reduce? x1) = (← c.reduce? x2) then
      if (← c.reduce? y1) = (← c.reduce? y2) then return ← c.double? (.affine x1 y1)
      return .infinity
    let slope ← c.mul? (← c.sub? y2 y1) (← c.inv? (← c.sub? x2 x1))
    let x3 ← c.sub? (← c.sub? (← c.mul? slope slope) x1) x2
    return .affine x3 (← c.sub? (← c.mul? slope (← c.sub? x1 x3)) y1)

def ladderStep? (bit : Bool) (r0 r1 : Point) : Option ((Point × Point) × (Point × Point)) := do
  let sum ← c.add? r0 r1
  if bit then return ((sum, r1), (sum, ← c.double? r1))
  else return ((r0, sum), (← c.double? r0, sum))

theorem reduce_le (v : Nat) : c.reduce v ≤ c.p := by
  unfold reduce
  split
  · omega
  · exact Nat.le_of_lt (Nat.mod_lt v (by omega))

@[simp] theorem reduce?_eq (v : Nat) : c.reduce? v = some (c.reduce v) := by
  unfold reduce? reduce
  split
  · rfl
  · rename_i hp
    rw [mod?, if_neg hp]

/-- The modulus that is added first keeps a difference from going below zero. -/
@[simp] theorem sub?_eq (a b : Nat) : c.sub? a b = some (c.sub a b) := by
  have hle : c.reduce b ≤ c.reduce a + c.p := Nat.le_add_left_of_le (c.reduce_le b)
  simp only [sub?, reduce?_eq, Option.bind_eq_bind, Option.bind_some, Nat.psub_eq_sub hle]
  rfl

@[simp] theorem mul?_eq (a b : Nat) : c.mul? a b = some (c.mul a b) := c.reduce?_eq _

@[simp] theorem inv?_eq (a : Nat) : c.inv? a = some (c.inv a) := by
  unfold inv? inv
  split
  · rfl
  · rename_i hp
    have hle : 2 ≤ c.p := by omega
    have hne : c.p ≠ 0 := by omega
    simp only [reduce?_eq, Option.bind_eq_bind, Option.bind_some, Nat.psub_eq_sub hle, powMod?,
      if_neg hne]

theorem neg?_eq (P : Point) : c.neg? P = some (c.neg P) := by
  cases P with
  | infinity => rfl
  | affine x y => simp [neg?, neg]

@[simp] theorem double?_eq (P : Point) : c.double? P = some (c.double P) := by
  cases P with
  | infinity => rfl
  | affine x y =>
    by_cases hy : c.reduce y = 0
    · simp [double?, double, hy]
    · simp [double?, double, hy]

@[simp] theorem add?_eq (P Q : Point) : c.add? P Q = some (c.add P Q) := by
  cases P with
  | infinity => rfl
  | affine x₁ y₁ =>
    cases Q with
    | infinity => rfl
    | affine x₂ y₂ =>
      by_cases hx : c.reduce x₁ = c.reduce x₂
      · by_cases hy : c.reduce y₁ = c.reduce y₂
        · simp [add?, add, hx, hy]
        · simp [add?, add, hx, hy]
      · simp [add?, add, hx]

theorem ladderStep?_eq (bit : Bool) (P Q : Point) :
    c.ladderStep? bit P Q = some (c.ladderStep bit P Q) := by
  cases bit with
  | false => simp [ladderStep?, ladderStep]
  | true => simp [ladderStep?, ladderStep]

/-! ### Representatives -/

/-- The point with the remainders of the coordinates. -/
def reducePoint : Point → Point
  | .infinity => .infinity
  | .affine x y => .affine (c.reduce x) (c.reduce y)

@[simp] theorem reduce_reduce (v : Nat) : c.reduce (c.reduce v) = c.reduce v := by
  unfold reduce
  split
  · rfl
  · exact Nat.mod_mod v c.p

@[simp] theorem sub_reduce_left (a b : Nat) : c.sub (c.reduce a) b = c.sub a b := by
  rw [sub, reduce_reduce, sub]

@[simp] theorem sub_reduce_right (a b : Nat) : c.sub a (c.reduce b) = c.sub a b := by
  rw [sub, reduce_reduce, sub]

@[simp] theorem mul_reduce_left (a b : Nat) : c.mul (c.reduce a) b = c.mul a b := by
  unfold mul reduce
  split
  · rfl
  · exact Nat.mod_mul_mod a b c.p

@[simp] theorem mul_reduce_right (a b : Nat) : c.mul a (c.reduce b) = c.mul a b := by
  rw [mul, Nat.mul_comm]
  exact (c.mul_reduce_left b a).trans (by rw [mul, mul, Nat.mul_comm])

@[simp] theorem reducePoint_reducePoint (P : Point) :
    c.reducePoint (c.reducePoint P) = c.reducePoint P := by
  cases P with
  | infinity => rfl
  | affine x y => simp [reducePoint]

/-- Which branch a doubling takes, and what it computes there, depends on residues only. -/
theorem double_reducePoint (P : Point) : c.double (c.reducePoint P) = c.double P := by
  cases P with
  | infinity => rfl
  | affine x y =>
    simp only [reducePoint, double, reduce_reduce, mul_reduce_left, mul_reduce_right,
      sub_reduce_left, sub_reduce_right]

theorem add_reducePoint_affine (x₁ y₁ x₂ y₂ : Nat) :
    c.add (c.reducePoint (.affine x₁ y₁)) (c.reducePoint (.affine x₂ y₂)) =
      c.add (.affine x₁ y₁) (.affine x₂ y₂) := by
  have hdouble := c.double_reducePoint (.affine x₁ y₁)
  simp only [reducePoint] at hdouble
  simp only [reducePoint, add, hdouble, reduce_reduce, sub_reduce_left, sub_reduce_right]

theorem reducePoint_add (P Q : Point) :
    c.reducePoint (c.add P Q) = c.reducePoint (c.add (c.reducePoint P) (c.reducePoint Q)) := by
  cases P with
  | infinity => exact (c.reducePoint_reducePoint Q).symm
  | affine x₁ y₁ =>
    cases Q with
    | infinity => exact (c.reducePoint_reducePoint (.affine x₁ y₁)).symm
    | affine x₂ y₂ => rw [add_reducePoint_affine]

theorem reducePoint_neg (P : Point) :
    c.reducePoint (c.neg P) = c.reducePoint (c.neg (c.reducePoint P)) := by
  cases P with
  | infinity => rfl
  | affine x y => simp [reducePoint, neg]

/-! ### Reduced coordinates -/

variable {c} in
theorem reduce_of_lt {v : Nat} (h : v < max c.p 1) : c.reduce v = v := by
  unfold reduce
  split
  · omega
  · exact Nat.mod_eq_of_lt (by omega)

variable {c} in
theorem Reduced.reducePoint_eq {P : Point} (h : c.Reduced P) : c.reducePoint P = P := by
  cases P with
  | infinity => rfl
  | affine x y =>
    have hx : c.reduce x = x := reduce_of_lt h.1
    have hy : c.reduce y = y := reduce_of_lt h.2
    rw [reducePoint, hx, hy]

/-- **Curve arithmetic is arithmetic of residues.** Whatever the modulus and the coefficients,
and whatever the size of the coordinates: every operation can be carried out without going below
zero and without dividing by zero; sums, doubles and negatives of points have the residues that
those of the reduced points have; and the coordinates that are computed are reduced. -/
theorem arithmetic_of_residues :
    ((∀ v, c.reduce? v = some (c.reduce v)) ∧
      (∀ a b, c.sub? a b = some (c.sub a b)) ∧
      (∀ a b, c.mul? a b = some (c.mul a b)) ∧
      (∀ a, c.inv? a = some (c.inv a)) ∧
      (∀ P, c.neg? P = some (c.neg P)) ∧
      (∀ P, c.double? P = some (c.double P)) ∧
      (∀ P Q, c.add? P Q = some (c.add P Q)) ∧
      ∀ bit P Q, c.ladderStep? bit P Q = some (c.ladderStep bit P Q)) ∧
    ((∀ P Q, c.reducePoint (c.add P Q) =
        c.reducePoint (c.add (c.reducePoint P) (c.reducePoint Q))) ∧
      (∀ P, c.reducePoint (c.double P) = c.reducePoint (c.double (c.reducePoint P))) ∧
      ∀ P, c.reducePoint (c.neg P) = c.reducePoint (c.neg (c.reducePoint P))) ∧
    (∀ P, c.reducePoint (c.double P) = c.double P) ∧
      (∀ x y, ∃ y', c.neg (.affine x y) = .affine x y' ∧ c.reduce y' = y') ∧
      ∀ x₁ y₁ x₂ y₂, c.reducePoint (c.add (.affine x₁ y₁) (.affine x₂ y₂)) =
        c.add (.affine x₁ y₁) (.affine x₂ y₂) := by
  refine ⟨⟨c.reduce?_eq, c.sub?_eq, c.mul?_eq, c.inv?_eq, c.neg?_eq, c.double?_eq, c.add?_eq,
    c.ladderStep?_eq⟩, ⟨c.reducePoint_add, fun P => ?_, c.reducePoint_neg⟩, fun P => ?_,
    fun x y => ⟨c.sub 0 y, rfl, c.reduce_reduce _⟩, fun x₁ y₁ x₂ y₂ => ?_⟩
  · rw [double_reducePoint]
  · exact (reduced_double P).reducePoint_eq
  · exact (reduced_add_affine x₁ y₁ x₂ y₂).reducePoint_eq

/-! ### Points in either order -/

section Prime
variable [Fact c.p.Prime]

/-- The slope of the chord through two points, on whichever of them it is computed. -/
theorem chord_slope {x₁ x₂ : Nat} (y₁ y₂ : Nat) (hx : (x₁ : ZMod c.p) ≠ x₂) :
    ((c.mul (c.sub y₂ y₁) (c.inv (c.sub x₂ x₁)) : Nat) : ZMod c.p) * (x₂ - x₁) = y₂ - y₁ := by
  have hne : ((c.sub x₂ x₁ : Nat) : ZMod c.p) ≠ 0 := by
    rw [cast_sub]
    exact sub_ne_zero.mpr hx.symm
  rw [cast_mul, cast_inv_of_ne_zero c hne, cast_sub, cast_sub, mul_assoc,
    inv_mul_cancel₀ (sub_ne_zero.mpr hx.symm), mul_one]

theorem add_comm_chord {x₁ x₂ : Nat} (y₁ y₂ : Nat) (hx : c.reduce x₁ ≠ c.reduce x₂) :
    c.add (.affine x₁ y₁) (.affine x₂ y₂) = c.add (.affine x₂ y₂) (.affine x₁ y₁) := by
  have hne : (x₁ : ZMod c.p) ≠ x₂ := mt (c.reduce_eq_reduce_iff x₁ x₂).mpr hx
  have hforth := c.chord_slope y₁ y₂ hne
  have hback := c.chord_slope y₂ y₁ hne.symm
  simp only [add, if_neg hx, if_neg hx.symm]
  set slope := c.mul (c.sub y₂ y₁) (c.inv (c.sub x₂ x₁))
  set slope' := c.mul (c.sub y₁ y₂) (c.inv (c.sub x₁ x₂))
  have hslope : (slope : ZMod c.p) = slope' := by
    apply mul_right_cancel₀ (sub_ne_zero.mpr hne.symm)
    linear_combination hforth + hback
  have hx₃ : c.sub (c.sub (c.mul slope slope) x₁) x₂ =
      c.sub (c.sub (c.mul slope' slope') x₂) x₁ := by
    apply c.eq_of_cast_eq (c.sub_lt _ _) (c.sub_lt _ _)
    simp only [cast_sub, cast_mul, hslope]
    ring
  rw [hx₃]
  -- the chord passes through both points, so either of them gives the second coordinate
  congr 1
  apply c.eq_of_cast_eq (c.sub_lt _ _) (c.sub_lt _ _)
  simp only [cast_sub, cast_mul, hslope] at hforth ⊢
  linear_combination -hforth

end Prime

/-- **Addition is commutative, off the curve as well.** Modulo any prime, two included, the sum of
two points does not depend on their order, whatever the size of their coordinates. -/
theorem add_comm_of_prime (hp : c.p.Prime) (P Q : Point) : c.add P Q = c.add Q P := by
  have : Fact c.p.Prime := ⟨hp⟩
  cases P with
  | infinity =>
    cases Q with
    | infinity => rfl
    | affine x₂ y₂ => rfl
  | affine x₁ y₁ =>
    cases Q with
    | infinity => rfl
    | affine x₂ y₂ =>
      by_cases hx : c.reduce x₁ = c.reduce x₂
      · by_cases hy : c.reduce y₁ = c.reduce y₂
        · -- one and the same residue: both orders double it
          have hdouble : c.double (.affine x₁ y₁) = c.double (.affine x₂ y₂) := by
            rw [← double_reducePoint, reducePoint, hx, hy, ← double_reducePoint c (.affine x₂ y₂),
              reducePoint]
          simp only [add, if_pos hx, if_pos hy, if_pos hx.symm, if_pos hy.symm, hdouble]
        · simp only [add, if_pos hx, if_neg hy, if_pos hx.symm, if_neg (Ne.symm hy)]
      · exact c.add_comm_chord y₁ y₂ hx

/-- Modulo two, the sum of two points that are neither reduced nor, when they are reduced, on the
curve. -/
theorem add_comm_of_prime_mod2 :
    Nat.Prime 2 ∧ Curve.contains ⟨2, 1, 1, 1⟩ (.affine 0 0) = false ∧
      Curve.contains ⟨2, 1, 1, 1⟩ (.affine 1 0) = false ∧
      Curve.add ⟨2, 1, 1, 1⟩ (.affine 4 6) (.affine 3 8) =
        Curve.add ⟨2, 1, 1, 1⟩ (.affine 3 8) (.affine 4 6) :=
  ⟨Nat.prime_two, by decide, by decide, add_comm_of_prime ⟨2, 1, 1, 1⟩ Nat.prime_two _ _⟩

end CurveEngine.Curve
