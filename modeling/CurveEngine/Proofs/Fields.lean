import CurveEngine.Register.BitField
import Mathlib.Algebra.Group.Nat.Defs
import Mathlib.Tactic.Common

/-! Reading a field of a word in which fields have been set.

A register word is built by setting one field after another. A field that fits the word
reads back what was put into it (`get_set`, `test_put`), and a field that lies beside it
is not disturbed (`get_set_of_apart`, `test_put_of_apart`). Whether two fields lie apart
is decided, so that a register read through a chain of settings comes down to one of
them. -/
namespace CurveEngine.BitField

/-- The field lies within a word. -/
abbrev Fits (f : BitField) : Prop := f.low + f.width ≤ 32

/-- The fields share no bit. -/
abbrev Apart (f g : BitField) : Prop := f.low + f.width ≤ g.low ∨ g.low + g.width ≤ f.low

/-- The bits of a word. -/
def bitOf (word : UInt32) (i : Nat) : Bool := word.toBitVec.getLsbD i

theorem eq_of_bitOf {a b : UInt32} (h : ∀ i < 32, bitOf a i = bitOf b i) : a = b := by
  apply UInt32.toBitVec_inj.mp
  exact BitVec.eq_of_getLsbD_eq h

theorem bitOf_ofNat (n i : Nat) : bitOf (UInt32.ofNat n) i = (decide (i < 32) && n.testBit i) := by
  show (BitVec.ofNat 32 n).getLsbD i = _
  rw [BitVec.getLsbD_ofNat]

theorem bitOf_zero (i : Nat) : bitOf 0 i = false := by
  simp [bitOf]

theorem bitOf_and (a b : UInt32) (i : Nat) : bitOf (a &&& b) i = (bitOf a i && bitOf b i) := by
  simp [bitOf]

theorem bitOf_or (a b : UInt32) (i : Nat) : bitOf (a ||| b) i = (bitOf a i || bitOf b i) := by
  simp [bitOf]

theorem bitOf_not (a : UInt32) (i : Nat) : bitOf (~~~a) i = (decide (i < 32) && !bitOf a i) := by
  simp [bitOf]

theorem bitOf_shiftRight (a : UInt32) {k : Nat} (hk : k < 32) (i : Nat) :
    bitOf (a >>> UInt32.ofNat k) i = bitOf a (k + i) := by
  simp [bitOf, Nat.mod_eq_of_lt hk, Nat.mod_eq_of_lt (show k < 4294967296 by omega)]

theorem bitOf_shiftLeft (a : UInt32) {k : Nat} (hk : k < 32) (i : Nat) :
    bitOf (a <<< UInt32.ofNat k) i = (decide (i < 32) && decide (k ≤ i) && bitOf a (i - k)) := by
  have hnot : (!decide (i < k)) = decide (k ≤ i) := by
    by_cases h : i < k
    · simp [h]
    · simp [h, Nat.not_lt.mp h]
  simp [bitOf, Nat.mod_eq_of_lt hk, Nat.mod_eq_of_lt (show k < 4294967296 by omega), hnot]

theorem bitOf_mask {f : BitField} (hf : f.Fits) (i : Nat) : bitOf f.mask i = decide (i < f.width) := by
  rw [mask, bitOf_ofNat, Nat.one_shiftLeft, Nat.testBit_two_pow_sub_one]
  by_cases hi : i < f.width
  · have : i < 32 := by
      unfold Fits at hf
      omega
    simp [hi, this]
  · simp [hi]

theorem bitOf_get {f : BitField} (hf : f.Fits) (hw : 0 < f.width) (word : UInt32) (i : Nat) :
    bitOf (f.get word) i = (decide (i < f.width) && bitOf word (f.low + i)) := by
  unfold Fits at hf
  rw [get, bitOf_and, bitOf_shiftRight word (by omega), bitOf_mask hf, Bool.and_comm]

theorem bitOf_set {f : BitField} (hf : f.Fits) (hw : 0 < f.width) (value word : UInt32) (i : Nat) :
    bitOf (f.set value word) i =
      if f.low ≤ i ∧ i < f.low + f.width then bitOf value (i - f.low)
      else decide (i < 32) && bitOf word i := by
  unfold Fits at hf
  have hshift : f.low < 32 := by omega
  rw [set, bitOf_or, bitOf_and, bitOf_not, bitOf_shiftLeft _ hshift, bitOf_shiftLeft _ hshift,
    bitOf_and, bitOf_mask hf]
  by_cases hin : f.low ≤ i ∧ i < f.low + f.width
  · have h32 : i < 32 := by omega
    have hoff : i - f.low < f.width := by omega
    simp [hin, h32, hoff]
  · rw [if_neg hin]
    by_cases hlow : f.low ≤ i
    · have hoff : ¬ i - f.low < f.width := by omega
      simp [hlow, hoff, Bool.and_comm]
    · simp [hlow, Bool.and_comm]

/-! ### Numbers -/

/-- A field reads back the low bits of what was put into it. -/
theorem get_set {f : BitField} (hf : f.Fits) (hw : 0 < f.width) (value word : UInt32) :
    f.get (f.set value word) = value &&& f.mask := by
  apply eq_of_bitOf
  intro i _
  rw [bitOf_get hf hw, bitOf_set hf hw, bitOf_and, bitOf_mask hf]
  by_cases hi : i < f.width
  · simp [hi]
  · simp [hi]

/-- Setting a field leaves the fields beside it alone. -/
theorem get_set_of_apart {f g : BitField} (hf : f.Fits) (hg : g.Fits) (hwf : 0 < f.width)
    (hwg : 0 < g.width) (h : f.Apart g) (value word : UInt32) :
    f.get (g.set value word) = f.get word := by
  apply eq_of_bitOf
  intro i _
  rw [bitOf_get hf hwf, bitOf_get hf hwf, bitOf_set hg hwg]
  unfold Fits Apart at *
  by_cases hi : i < f.width
  · have hout : ¬ (g.low ≤ f.low + i ∧ f.low + i < g.low + g.width) := by omega
    have h32 : f.low + i < 32 := by omega
    rw [if_neg hout]
    simp [h32]
  · simp [hi]

/-- A field keeps the low bits of a value. -/
theorem toNat_and_mask {f : BitField} (hf : f.width ≤ 32) (value : UInt32) :
    (value &&& f.mask).toNat = value.toNat % 2 ^ f.width := by
  have hpow : 2 ^ f.width ≤ 2 ^ 32 := Nat.pow_le_pow_right (by decide) hf
  have hpos := Nat.two_pow_pos f.width
  have hmask : f.mask.toNat = 2 ^ f.width - 1 := by
    rw [mask, UInt32.toNat_ofNat', Nat.one_shiftLeft]
    exact Nat.mod_eq_of_lt (by omega)
  rw [UInt32.toNat_and, hmask, Nat.and_two_pow_sub_one_eq_mod]

theorem get_zero (f : BitField) : f.get 0 = 0 := by
  simp [get]

/-- What fits a field is read back whole. -/
theorem get_set_of_lt {f : BitField} (hf : f.Fits) (hw : 0 < f.width) {value : UInt32}
    (hv : value.toNat < 2 ^ f.width) (word : UInt32) : f.get (f.set value word) = value := by
  rw [get_set hf hw]
  apply eq_of_bitOf
  intro i _
  rw [bitOf_and, bitOf_mask hf]
  by_cases hi : i < f.width
  · simp [hi]
  · have : bitOf value i = false := by
      rw [bitOf, ← BitVec.testBit_toNat]
      exact Nat.testBit_lt_two_pow (Nat.lt_of_lt_of_le hv
        (Nat.pow_le_pow_right (by decide) (by omega)))
    simp [hi, this]

/-! ### Flags -/

theorem test_put {f : BitField} (hf : f.Fits) (hw : f.width = 1) (value : Bool) (word : UInt32) :
    f.test (f.put value word) = value := by
  have hone : f.mask = 1 := by rw [mask, hw]; rfl
  rw [test, put, get_set hf (by omega), hone]
  cases value <;> rfl

theorem test_put_of_apart {f g : BitField} (hf : f.Fits) (hg : g.Fits) (hwf : 0 < f.width)
    (hwg : 0 < g.width) (h : f.Apart g) (value : Bool) (word : UInt32) :
    f.test (g.put value word) = f.test word := by
  rw [test, put, get_set_of_apart hf hg hwf hwg h, test]

theorem test_set_of_apart {f g : BitField} (hf : f.Fits) (hg : g.Fits) (hwf : 0 < f.width)
    (hwg : 0 < g.width) (h : f.Apart g) (value word : UInt32) :
    f.test (g.set value word) = f.test word := by
  rw [test, get_set_of_apart hf hg hwf hwg h, test]

theorem test_zero (f : BitField) : f.test 0 = false := by
  rw [test, get_zero]
  rfl

end CurveEngine.BitField
