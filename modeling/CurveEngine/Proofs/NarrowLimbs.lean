import CurveEngine.Proofs.LimbDecoding

/-! Fp memory with limbs of any width.

The device puts 32 bits of a number into every limb, whatever the width of a limb is; the driver
takes as many bits from a limb as it is wide. So a number comes back through limbs of 32 bits, and
through narrower ones only if it fits into one of them (`readSlot_limbs`). The bytes of a limb
number are the bytes of its value, whatever the width (`toNat_toBytes`): it is the limbs that are
wrong, not their decoding. -/
namespace CurveEngine
open Register Device

/-! ### Digits read as limbs -/

namespace LimbNumber

theorem value_cons_of_le {limbWidth : Nat} (h : limbWidth ≤ 32) (limb : UInt32)
    (limbs : List UInt32) :
    (⟨limbWidth, limb :: limbs⟩ : LimbNumber).value =
      limb.toNat % 2 ^ limbWidth + 2 ^ limbWidth * (⟨limbWidth, limbs⟩ : LimbNumber).value := by
  have hlimb : limb.toNat % 2 ^ min limbWidth 32 = limb.toNat % 2 ^ limbWidth := by
    rw [Nat.min_eq_left h]
  calc (⟨limbWidth, limb :: limbs⟩ : LimbNumber).value
    _ = limb.toNat % 2 ^ min limbWidth 32 +
        2 ^ limbWidth * (⟨limbWidth, limbs⟩ : LimbNumber).value := rfl
    _ = _ := by rw [hlimb]

end LimbNumber

namespace FpMemory

/-- What is left of a number that is stored in digits of 32 bits and read back as limbs of
`limbWidth` bits. -/
def narrowed (limbWidth : Nat) : Nat → Nat → Nat
  | 0, _ => 0
  | limbs + 1, value =>
    value % 2 ^ limbWidth + 2 ^ limbWidth * narrowed limbWidth limbs (value / 2 ^ 32)

theorem value_limbs {limbWidth : Nat} (h : limbWidth ≤ 32) (value limbs : Nat) :
    (⟨limbWidth, (List.range limbs).map (digit value)⟩ : LimbNumber).value =
      narrowed limbWidth limbs value := by
  induction limbs generalizing value with
  | zero => rfl
  | succ limbs ih =>
    have hshift : digit value ∘ Nat.succ = digit (value / 2 ^ 32) := by
      funext i
      show UInt32.ofNat (value >>> (32 * (i + 1))) = UInt32.ofNat ((value / 2 ^ 32) >>> (32 * i))
      rw [← Nat.shiftRight_eq_div_pow, ← Nat.shiftRight_add, Nat.mul_succ, Nat.add_comm]
    have hlow : (digit value 0).toNat % 2 ^ limbWidth = value % 2 ^ limbWidth := by
      show (UInt32.ofNat value).toNat % 2 ^ limbWidth = _
      rw [UInt32.toNat_ofNat', Nat.mod_mod_of_dvd _ (Nat.pow_dvd_pow 2 h)]
    rw [List.range_succ_eq_map, List.map_cons, List.map_map, hshift,
      LimbNumber.value_cons_of_le h, ih, hlow, narrowed]

/-- Narrow limbs hold no more of a number than is there. -/
theorem narrowed_le {limbWidth : Nat} (h : limbWidth ≤ 32) (limbs value : Nat) :
    narrowed limbWidth limbs value ≤ value := by
  induction limbs generalizing value with
  | zero => exact Nat.zero_le _
  | succ limbs ih =>
    have hlow : value % 2 ^ limbWidth ≤ value % 2 ^ 32 := by
      rw [← Nat.mod_mod_of_dvd value (Nat.pow_dvd_pow 2 h)]
      exact Nat.mod_le _ _
    calc narrowed limbWidth (limbs + 1) value
      _ ≤ value % 2 ^ limbWidth + 2 ^ limbWidth * (value / 2 ^ 32) :=
        Nat.add_le_add_left (Nat.mul_le_mul_left _ (ih _)) _
      _ ≤ value % 2 ^ 32 + 2 ^ 32 * (value / 2 ^ 32) :=
        Nat.add_le_add hlow (Nat.mul_le_mul_right _ (Nat.pow_le_pow_right (by decide) h))
      _ = value := Nat.mod_add_div _ _

/-- A number that fits into one limb is read back. -/
theorem narrowed_of_lt {limbWidth limbs value : Nat} (h : limbWidth ≤ 32) (hpos : 0 < limbs)
    (hvalue : value < 2 ^ limbWidth) : narrowed limbWidth limbs value = value := by
  obtain ⟨limbs, rfl⟩ := Nat.exists_eq_succ_of_ne_zero (Nat.pos_iff_ne_zero.mp hpos)
  have hdigit : value / 2 ^ 32 = 0 :=
    Nat.div_eq_of_lt (Nat.lt_of_lt_of_le hvalue (Nat.pow_le_pow_right (by decide) h))
  have hnothing : narrowed limbWidth limbs 0 = 0 := Nat.le_zero.mp (narrowed_le h limbs 0)
  rw [narrowed, hdigit, hnothing, Nat.mul_zero, Nat.add_zero, Nat.mod_eq_of_lt hvalue]

/-- Limbs that are narrower than a digit lose something of every number that does not fit into
one of them. -/
theorem narrowed_lt {limbWidth limbs value : Nat} (h : limbWidth < 32)
    (hvalue : 2 ^ limbWidth ≤ value) : narrowed limbWidth limbs value < value := by
  have hpos := Nat.two_pow_pos limbWidth
  cases limbs with
  | zero => exact Nat.lt_of_lt_of_le hpos hvalue
  | succ limbs =>
    have hrest := Nat.mul_le_mul_left (2 ^ limbWidth) (narrowed_le h.le limbs (value / 2 ^ 32))
    rw [narrowed]
    rcases Nat.eq_zero_or_pos (value / 2 ^ 32) with hzero | hdigit
    · rw [hzero] at hrest ⊢
      have hlow := Nat.mod_lt value hpos
      omega
    · have hlow : value % 2 ^ limbWidth ≤ value % 2 ^ 32 := by
        rw [← Nat.mod_mod_of_dvd value (Nat.pow_dvd_pow 2 h.le)]
        exact Nat.mod_le _ _
      have hhigh : 2 ^ limbWidth * (value / 2 ^ 32) < 2 ^ 32 * (value / 2 ^ 32) :=
        Nat.mul_lt_mul_of_pos_right (Nat.pow_lt_pow_right (by decide) h) hdigit
      have hsum := Nat.mod_add_div value (2 ^ 32)
      omega

/-- Limbs of 32 bits hold everything up to their number. -/
theorem narrowed_full (limbs value : Nat) : narrowed 32 limbs value = value % 2 ^ (32 * limbs) :=
  (value_limbs (Nat.le_refl 32) value limbs).symm.trans (LimbNumber.value_digits value limbs)

end FpMemory

/-! ### Reading a slot back -/

namespace Driver
open FpMemory Operation

/-- What the device has stored in a slot is read as it was stored, digit by digit. -/
theorem readSlot_digits {d : Driver} {s : State} {slot : Nat} (hs : Reachable s)
    (hdebug : s.params.debug = true)
    (hplaced : LimbLayout.Addressable s.params.maxSize s.params.limbWidth)
    (hsize : s.size ≤ s.params.maxSize) (hslot : slot < Microcode.Slot.count)
    (hchecks : 0 < d.checks) (value : Nat) :
    ∃ t, Returns bus (d.readSlot (.ofSize s.size s.params.limbWidth) slot)
      { s with fp := FpMemory.store s.limbLayout slot value s.fp }
      ⟨s.params.limbWidth, (List.range s.limbLayout.limbs).map (digit value)⟩ t := by
  set stored : State := { s with fp := FpMemory.store s.limbLayout slot value s.fp }
  have hroomy : s.limbLayout.Roomy s.fp := hplaced.roomy hsize hs.coherent.fp_size
  have hcoherent : stored.Coherent :=
    { hs.coherent with fp_size := (State.size_store _ _ _ _).trans hs.coherent.fp_size }
  obtain ⟨t, hread, -⟩ :=
    (does_readSlot (d := d) (s := stored) hdebug hchecks s.limbLayout slot).returns
    stored (.refl stored) hcoherent
  rw [State.slotOf_store hroomy hslot value] at hread
  exact ⟨t, hread⟩

/-- **Limbs narrower than 32 bits lose numbers.** A number that the device has stored in a slot is
read by the driver through the digits that were stored; the bytes are those of the number if limbs
are 32 bits wide or the number fits into a single limb, and of a smaller number otherwise. -/
theorem readSlot_limbs (d : Driver) (s : State) (slot value : Nat) (hs : Reachable s)
    (hdebug : s.params.debug = true) (hpos : 1 ≤ s.params.limbWidth)
    (hwidth : s.params.limbWidth ≤ 32) (hsize : s.size ≤ s.params.maxSize)
    (hmax : s.params.maxSize ≤ 0xffff)
    (hslot : slot < Microcode.Slot.count) (hvalue : value < 2 ^ s.size) (hchecks : 0 < d.checks) :
    ∃ n t, Returns bus (d.readSlot (.ofSize s.size s.params.limbWidth) slot)
        { s with fp := FpMemory.store s.limbLayout slot value s.fp } n t ∧
      n = ⟨s.params.limbWidth, (List.range s.limbLayout.limbs).map (digit value)⟩ ∧
      (n.toBytes ((s.size + 7) / 8)).toNat =
        narrowed s.params.limbWidth s.limbLayout.limbs value ∧
      ((n.toBytes ((s.size + 7) / 8)).toNat = value ↔
        s.params.limbWidth = 32 ∨ value < 2 ^ s.params.limbWidth) := by
  have hplaced : LimbLayout.Addressable s.params.maxSize s.params.limbWidth :=
    .of_le hpos (by omega) hmax
  obtain ⟨t, hread⟩ := readSlot_digits hs hdebug hplaced hsize hslot hchecks value
  refine ⟨_, t, hread, rfl, ?_⟩
  have hlimbs : s.size + 4 ≤ s.params.limbWidth * s.limbLayout.limbs := by
    have hcount : s.limbLayout.limbs = (s.size + s.params.limbWidth + 3) / s.params.limbWidth :=
      LimbLayout.limbs_ofSize (hplaced.mono hsize).limbs
    have hdivision := Nat.div_add_mod (s.size + s.params.limbWidth + 3) s.params.limbWidth
    have hremainder := Nat.mod_lt (s.size + s.params.limbWidth + 3) hpos
    rw [hcount]
    omega
  have hmany : 0 < s.limbLayout.limbs := by
    rcases Nat.eq_zero_or_pos s.limbLayout.limbs with hnone | hmany
    · rw [hnone] at hlimbs
      omega
    · exact hmany
  -- the bytes reach as far as the number, so that nothing but the limbs can lose any of it
  have hbytes : (LimbNumber.toBytes ⟨s.params.limbWidth,
      (List.range s.limbLayout.limbs).map (digit value)⟩ ((s.size + 7) / 8)).toNat =
        narrowed s.params.limbWidth s.limbLayout.limbs value := by
    rw [LimbNumber.toNat_toBytes, value_limbs hwidth, Nat.mod_eq_of_lt]
    calc narrowed s.params.limbWidth s.limbLayout.limbs value
      _ ≤ value := narrowed_le hwidth _ _
      _ < 2 ^ s.size := hvalue
      _ ≤ 256 ^ ((s.size + 7) / 8) := by
        rw [Bytes.pow_eight_mul]
        exact Nat.pow_le_pow_right (by decide) (by omega)
  refine ⟨hbytes, ?_⟩
  rw [hbytes]
  constructor
  · intro hsame
    by_contra hneither
    rw [not_or, Nat.not_lt] at hneither
    have hlost : narrowed s.params.limbWidth s.limbLayout.limbs value < value :=
      narrowed_lt (Nat.lt_of_le_of_ne hwidth hneither.1) hneither.2
    omega
  · rintro (hfull | hfits)
    · rw [hfull] at hlimbs ⊢
      rw [narrowed_full, Nat.mod_eq_of_lt]
      exact Nat.lt_of_lt_of_le hvalue (Nat.pow_le_pow_right (by decide) (by omega))
    · exact narrowed_of_lt hwidth hmany hfits

/-- A small engine with limbs of four bits. -/
def nibbles : State :=
  .powerUp { limbWidth := 4, maxSize := 8, size := 8, opcodes := 0, rawSize := 0 } fun _ => 0

/-- There a number of six bits is not read back. -/
theorem readSlot_limbs_nibbles :
    ∃ n t, Returns bus ((⟨{}, 10⟩ : Driver).readSlot (.ofSize 8 4) Microcode.Slot.lambda)
        { nibbles with fp := FpMemory.store nibbles.limbLayout Microcode.Slot.lambda 61 nibbles.fp }
        n t ∧ (n.toBytes 1).toNat ≠ 61 := by
  obtain ⟨n, t, hread, -, -, hsame⟩ :=
    readSlot_limbs ⟨{}, 10⟩ nibbles Microcode.Slot.lambda 61 (.powerUp _ _) rfl (by decide)
      (by decide) (by decide) (by decide) (by decide) (by decide) (by decide)
  refine ⟨n, t, hread, fun h => ?_⟩
  exact absurd (hsame.mp h) (by decide)

/-- **A slot does not read back what is stored there.** With limbs of four bits, 61 comes back as
the low four bits of it, 13. -/
theorem readSlot_loses_bits :
    Reachable nibbles ∧ nibbles.params.debug = true ∧ nibbles.size ≤ nibbles.params.maxSize ∧
      61 < 2 ^ nibbles.size ∧
      ∃ n t, Returns bus ((⟨{}, 10⟩ : Driver).readSlot (.ofSize 8 4) Microcode.Slot.lambda)
        { nibbles with fp := FpMemory.store nibbles.limbLayout Microcode.Slot.lambda 61 nibbles.fp }
        n t ∧ n.toBytes ((nibbles.size + 7) / 8) = [13] ∧
        n.toBytes ((nibbles.size + 7) / 8) ≠ [61] := by
  have hslot : Microcode.Slot.lambda < Microcode.Slot.count := by decide
  obtain ⟨t, hread⟩ := readSlot_digits (d := ⟨{}, 10⟩) (s := nibbles) (.powerUp _ _) rfl
    (.of_le (by decide) (by decide) (by decide)) (by decide) hslot (by decide) 61
  exact ⟨.powerUp _ _, rfl, by decide, by decide, _, t, hread, by decide, by decide⟩

end Driver

end CurveEngine
