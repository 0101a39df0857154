import CurveEngine.Curve
import Mathlib.FieldTheory.Finite.Basic

/-! Curve arithmetic as arithmetic of a prime field.

With a prime modulus, every operation of `Curve` on numbers is the operation of the
field `ZMod p` on their residues: the remainder changes no residue (`cast_reduce`), the
difference never goes below zero (`cast_sub`), and the power of exponent `p - 2` is the
inverse (`cast_inv`), zero included as soon as `p` is odd. -/
namespace CurveEngine

/-- Repeated squaring computes the power. -/
theorem powMod_eq (m b e : Nat) : powMod m b e = b ^ e % m := by
  induction e using Nat.strong_induction_on generalizing b with
  | _ e ih =>
    rw [powMod]
    by_cases he : e = 0
    · subst he
      rfl
    · rw [dif_neg he]
      have hhalf := ih (e / 2) (by omega) (b * b % m)
      have hsquare : powMod m (b * b % m) (e / 2) = b ^ (2 * (e / 2)) % m := by
        rw [hhalf, ← Nat.pow_mod, ← pow_two, ← pow_mul]
      simp only [hsquare]
      split
      · rename_i hodd
        rw [Nat.mul_mod_mod, ← pow_succ']
        congr 2
        omega
      · rename_i heven
        congr 2
        omega

namespace Curve
variable (c : Curve)

section Residues
variable [Fact c.p.Prime]

theorem p_ne_zero : c.p ≠ 0 := (Fact.out : c.p.Prime).ne_zero

theorem reduce_eq (v : Nat) : c.reduce v = v % c.p := if_neg c.p_ne_zero

theorem reduce_lt (v : Nat) : c.reduce v < c.p := by
  rw [reduce_eq]
  exact Nat.mod_lt _ (Nat.pos_of_ne_zero c.p_ne_zero)

theorem cast_reduce (v : Nat) : ((c.reduce v : Nat) : ZMod c.p) = v := by
  rw [reduce_eq, ZMod.natCast_mod]

/-- Two numbers have the same remainder if and only if they have the same residue. -/
theorem reduce_eq_reduce_iff (a b : Nat) :
    c.reduce a = c.reduce b ↔ (a : ZMod c.p) = b := by
  rw [reduce_eq, reduce_eq, ZMod.natCast_eq_natCast_iff']

theorem reduce_eq_zero_iff (a : Nat) : c.reduce a = 0 ↔ (a : ZMod c.p) = 0 := by
  rw [reduce_eq, ← Nat.dvd_iff_mod_eq_zero, ZMod.natCast_eq_zero_iff]

theorem cast_mul (a b : Nat) : ((c.mul a b : Nat) : ZMod c.p) = a * b := by
  rw [mul, cast_reduce, Nat.cast_mul]

theorem cast_sub (a b : Nat) : ((c.sub a b : Nat) : ZMod c.p) = a - b := by
  have hb : c.reduce b ≤ c.reduce a + c.p := by
    have := c.reduce_lt b
    omega
  rw [sub, cast_reduce, Nat.cast_sub hb, Nat.cast_add, cast_reduce, cast_reduce,
    ZMod.natCast_self, add_zero]

theorem sub_lt (a b : Nat) : c.sub a b < c.p := c.reduce_lt _

/-- The power of exponent `p - 2` is the inverse of what has one. -/
theorem cast_inv_of_ne_zero {a : Nat} (ha : (a : ZMod c.p) ≠ 0) :
    ((c.inv a : Nat) : ZMod c.p) = (a : ZMod c.p)⁻¹ := by
  have htwo : 2 ≤ c.p := (Fact.out : c.p.Prime).two_le
  have hone : ¬ c.p ≤ 1 := by omega
  rw [inv, if_neg hone, powMod_eq, ZMod.natCast_mod, Nat.cast_pow, cast_reduce]
  have hfermat : (a : ZMod c.p) ^ (c.p - 2) * a = 1 := by
    rw [← pow_succ, show c.p - 2 + 1 = c.p - 1 by omega]
    exact ZMod.pow_card_sub_one_eq_one ha
  exact eq_inv_of_mul_eq_one_left hfermat

/-- Modulo an odd prime zero goes to zero, as inverses have it. -/
theorem cast_inv (hp : 2 < c.p) (a : Nat) : ((c.inv a : Nat) : ZMod c.p) = (a : ZMod c.p)⁻¹ := by
  by_cases ha : (a : ZMod c.p) = 0
  · have hone : ¬ c.p ≤ 1 := by omega
    rw [inv, if_neg hone, powMod_eq, ZMod.natCast_mod, Nat.cast_pow, cast_reduce, ha, inv_zero,
      zero_pow (by omega)]
  · exact c.cast_inv_of_ne_zero ha

/-- Numbers below the prime are told apart by their residues. -/
theorem eq_of_cast_eq {a b : Nat} (ha : a < c.p) (hb : b < c.p)
    (h : (a : ZMod c.p) = b) : a = b := by
  rw [ZMod.natCast_eq_natCast_iff', Nat.mod_eq_of_lt ha, Nat.mod_eq_of_lt hb] at h
  exact h

end Residues

end Curve

end CurveEngine
