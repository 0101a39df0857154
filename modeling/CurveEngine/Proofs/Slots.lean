import CurveEngine.Proofs.Halting

/-! Numbers in the slots of Fp memory.

The slots of a layout neither overlap nor reach beyond a memory that is `Roomy` for it, so
that a slot reads back what was stored there last (`slotOf_store`), whatever has been stored
elsewhere since (`slotOf_store_of_ne`). With limbs of 32 bits the number read is the number
stored, up to the bits that its limbs hold (`value_digits`). -/
namespace CurveEngine

namespace LimbLayout

/-! ### The placement of slots -/

theorem roundUp_eq (n : Nat) : roundUp n = if n ≤ 1 then 1 else 2 ^ ((n - 1).log2 + 1) := by
  rw [roundUp, Nat.one_shiftLeft]

theorem le_roundUp (n : Nat) : n ≤ roundUp n := by
  rw [roundUp_eq]
  split
  · assumption
  · have hlog := Nat.lt_log2_self (n := n - 1)
    omega

theorem roundUp_le {n k : Nat} (h : n ≤ 2 ^ k) : roundUp n ≤ 2 ^ k := by
  rw [roundUp_eq]
  split
  · exact Nat.one_le_two_pow
  · have hlog : (n - 1).log2 < k := (Nat.log2_lt (by omega)).mpr (by omega)
    exact Nat.pow_le_pow_right (by decide) hlog

theorem roundUp_mono {m n : Nat} (h : m ≤ n) : roundUp m ≤ roundUp n := by
  have hle := Nat.le_trans h (le_roundUp n)
  obtain ⟨k, hk⟩ : ∃ k, roundUp n = 2 ^ k := by
    rw [roundUp_eq]
    split
    · exact ⟨0, rfl⟩
    · exact ⟨_, rfl⟩
  rw [hk] at hle ⊢
  exact roundUp_le hle

/-! ### Counts that fit into words -/

/-- No count and no address wraps around in a memory for numbers of `size` bits. -/
structure Addressable (size limbWidth : Nat) : Prop where
  limbs : size + limbWidth + 4 < 2 ^ 32
  slots : Microcode.Slot.count * roundUp ((size + limbWidth + 3) / limbWidth) < 2 ^ 32

instance (size limbWidth : Nat) : Decidable (Addressable size limbWidth) :=
  decidable_of_iff
    (size + limbWidth + 4 < 2 ^ 32 ∧
      Microcode.Slot.count * roundUp ((size + limbWidth + 3) / limbWidth) < 2 ^ 32)
    ⟨fun h => ⟨h.1, h.2⟩, fun h => ⟨h.limbs, h.slots⟩⟩

/-- A number has its bits and the headroom spread over as few limbs as hold them. -/
theorem limbs_ofSize {size limbWidth : Nat} (h : size + limbWidth + 4 < 2 ^ 32) :
    (ofSize size limbWidth).limbs = (size + limbWidth + 3) / limbWidth := by
  have hsize : (UInt32.ofNat size).toNat = size :=
    UInt32.toNat_ofNat_of_lt' (show size < 2 ^ 32 by omega)
  have hwidth : (UInt32.ofNat limbWidth).toNat = limbWidth :=
    UInt32.toNat_ofNat_of_lt' (show limbWidth < 2 ^ 32 by omega)
  have hsum : (UInt32.ofNat size + 4 + UInt32.ofNat limbWidth).toNat = size + 4 + limbWidth := by
    simp only [UInt32.toNat_add, hsize, hwidth, UInt32.reduceToNat]
    omega
  have hone : (1 : UInt32) ≤ UInt32.ofNat size + 4 + UInt32.ofNat limbWidth := by
    rw [UInt32.le_iff_toNat_le, hsum]
    exact show 1 ≤ size + 4 + limbWidth by omega
  show ((UInt32.ofNat size + 4 + UInt32.ofNat limbWidth - 1) / UInt32.ofNat limbWidth).toNat = _
  rw [UInt32.toNat_div, UInt32.toNat_sub_of_le _ _ hone, hsum, hwidth]
  exact congrArg (· / limbWidth) (show size + 4 + limbWidth - 1 = size + limbWidth + 3 by omega)

namespace Addressable
variable {size maxSize limbWidth : Nat}

/-- What fits for a size fits for every smaller one. -/
theorem mono (h : Addressable maxSize limbWidth) (hsize : size ≤ maxSize) :
    Addressable size limbWidth where
  limbs := Nat.lt_of_le_of_lt (by omega) h.limbs
  slots := by
    have hround := roundUp_mono (Nat.div_le_div_right (c := limbWidth)
      (show size + limbWidth + 3 ≤ maxSize + limbWidth + 3 by omega))
    exact Nat.lt_of_le_of_lt (Nat.mul_le_mul_left _ hround) h.slots

theorem of_le (hpos : 0 < limbWidth) (hwidth : limbWidth ≤ 2 ^ 31) (hmax : maxSize ≤ 0xffff) :
    Addressable maxSize limbWidth where
  limbs := by omega
  slots := by
    have hfew : (maxSize + limbWidth + 3) / limbWidth ≤ 2 ^ 17 := by
      rw [show maxSize + limbWidth + 3 = maxSize + 3 + limbWidth by omega, Nat.add_div_right _ hpos]
      have hdiv := Nat.div_le_self (maxSize + 3) limbWidth
      omega
    have hround := roundUp_le hfew
    have hcount : Microcode.Slot.count = 64 := rfl
    rw [hcount]
    omega

/-- Numbers are as far apart as the next power of two. -/
theorem stride_ofSize (h : Addressable size limbWidth) :
    (ofSize size limbWidth).stride = roundUp (ofSize size limbWidth).limbs := by
  have hslots := h.slots
  rw [← limbs_ofSize h.limbs] at hslots
  exact UInt32.toNat_ofNat_of_lt' (Nat.lt_of_le_of_lt (Nat.le_mul_of_pos_left _ (by decide)) hslots)

/-- The limbs of a number fit between two slots. -/
theorem limbs_le_stride (h : Addressable size limbWidth) :
    (ofSize size limbWidth).limbs ≤ (ofSize size limbWidth).stride := by
  rw [h.stride_ofSize]
  exact le_roundUp _

/-- The slots of a smaller size are no further apart. -/
theorem stride_mono (h : Addressable maxSize limbWidth) (hsize : size ≤ maxSize) :
    (ofSize size limbWidth).stride ≤ (ofSize maxSize limbWidth).stride := by
  have hless := h.mono hsize
  rw [h.stride_ofSize, hless.stride_ofSize, limbs_ofSize h.limbs, limbs_ofSize hless.limbs]
  exact roundUp_mono (Nat.div_le_div_right (by omega))

/-- The strides of all slots together fit into a word. -/
theorem count_mul_stride_lt (h : Addressable size limbWidth) :
    Microcode.Slot.count * (ofSize size limbWidth).stride < 2 ^ 32 := by
  have hslots := h.slots
  rwa [← limbs_ofSize h.limbs, ← h.stride_ofSize] at hslots

/-- Memory for numbers of a size has as many strides of them as there are slots. -/
theorem toNat_capacity (h : Addressable maxSize limbWidth) :
    (FpMemory.capacity maxSize limbWidth).toNat =
      Microcode.Slot.count * (ofSize maxSize limbWidth).stride := by
  show (UInt32.ofNat Microcode.Slot.count * FpMemory.stride maxSize limbWidth).toNat = _
  rw [UInt32.toNat_mul, show (FpMemory.stride maxSize limbWidth).toNat =
    (ofSize maxSize limbWidth).stride from rfl]
  exact Nat.mod_eq_of_lt h.count_mul_stride_lt

end Addressable

/-! ### Slots -/

/-- The limbs of a slot end before the strides of all slots do. -/
theorem beyond_le {l : LimbLayout} {slot count : Nat} (hapart : l.limbs ≤ l.stride)
    (hslot : slot < count) : l.base slot + l.limbs ≤ count * l.stride := by
  have hnext : (slot + 1) * l.stride ≤ count * l.stride := Nat.mul_le_mul_right _ hslot
  rw [Nat.succ_mul] at hnext
  rw [base]
  omega

/-- The address is that of a limb of the slot. -/
def Spans (l : LimbLayout) (slot address : Nat) : Prop :=
  l.base slot ≤ address ∧ address < l.base slot + l.limbs

instance (l : LimbLayout) (slot address : Nat) : Decidable (l.Spans slot address) :=
  inferInstanceAs (Decidable (_ ∧ _))

namespace Spans
variable {l : LimbLayout} {slot other address : Nat}

theorem of_lt {i : Nat} (hi : i < l.limbs) : l.Spans slot (l.base slot + i) :=
  ⟨Nat.le_add_right _ _, Nat.add_lt_add_left hi _⟩

/-- The slot of a limb is the number of strides before it. -/
theorem div_stride (h : l.Spans slot address) (hapart : l.limbs ≤ l.stride) :
    address / l.stride = slot := by
  obtain ⟨hlow, hhigh⟩ := h
  rw [base] at hlow hhigh
  refine Nat.div_eq_of_lt_le hlow ?_
  rw [Nat.succ_mul]
  omega

/-- A limb is in one slot only. -/
theorem unique (h : l.Spans slot address) (h' : l.Spans other address)
    (hapart : l.limbs ≤ l.stride) : slot = other :=
  (h.div_stride hapart).symm.trans (h'.div_stride hapart)

/-- The limbs of the slots lie within as many strides. -/
theorem lt_mul_stride (h : l.Spans slot address) (hapart : l.limbs ≤ l.stride) {count : Nat}
    (hslot : slot < count) : address < count * l.stride :=
  Nat.lt_of_lt_of_le h.2 (beyond_le hapart hslot)

end Spans

/-- Where no address wraps around, none of a slot does. -/
theorem Addressable.beyond_lt {size limbWidth slot : Nat} (h : Addressable size limbWidth)
    (hslot : slot < Microcode.Slot.count) :
    (ofSize size limbWidth).base slot + (ofSize size limbWidth).limbs < 2 ^ 32 :=
  Nat.lt_of_le_of_lt (beyond_le h.limbs_le_stride hslot) h.count_mul_stride_lt

/-- A memory in which every slot of a layout is a place of its own, at an address that a
driver can give. -/
structure Roomy (l : LimbLayout) (memory : FpMemory) : Prop where
  apart : l.limbs ≤ l.stride
  inside : Microcode.Slot.count * l.stride ≤ memory.size
  addressable : memory.size < 2 ^ 32

/-- Fp memory for the largest size has room for every other one. -/
theorem Addressable.roomy {size maxSize limbWidth : Nat} {memory : FpMemory}
    (h : Addressable maxSize limbWidth) (hsize : size ≤ maxSize)
    (hmemory : memory.size = (FpMemory.capacity maxSize limbWidth).toNat) :
    (ofSize size limbWidth).Roomy memory where
  apart := (h.mono hsize).limbs_le_stride
  inside := by
    rw [hmemory, h.toNat_capacity]
    exact Nat.mul_le_mul_left _ (h.stride_mono hsize)
  addressable := by
    rw [hmemory]
    exact UInt32.toNat_lt _

namespace Roomy
variable {l : LimbLayout} {memory : FpMemory} {slot : Nat}

theorem store (h : l.Roomy memory) (stored : LimbLayout) (slot value : Nat) :
    l.Roomy (FpMemory.store stored slot value memory) := by
  have hsize := Device.State.size_store stored slot value memory
  refine ⟨h.apart, ?_, ?_⟩
  · rw [hsize]
    exact h.inside
  · rw [hsize]
    exact h.addressable

/-- The limbs of a slot lie within the memory. -/
theorem address_lt (h : l.Roomy memory) (hslot : slot < Microcode.Slot.count) {i : Nat}
    (hi : i < l.limbs) : l.base slot + i < memory.size :=
  Nat.lt_of_lt_of_le ((Spans.of_lt hi).lt_mul_stride h.apart hslot) h.inside

/-- So their addresses do not wrap around. -/
theorem beyond_lt (h : l.Roomy memory) (hslot : slot < Microcode.Slot.count) :
    l.base slot + l.limbs < 2 ^ 32 :=
  Nat.lt_of_le_of_lt (Nat.le_trans (beyond_le h.apart hslot) h.inside) h.addressable

end Roomy

end LimbLayout

/-! ### Storing and reading -/

namespace LimbLayout
variable {l : LimbLayout} {slot i : Nat}

theorem toNat_address (h : l.base slot + i < 2 ^ 32) : (l.address slot i).toNat = l.base slot + i :=
  UInt32.toNat_ofNat_of_lt' h

theorem limbAddresses_eq (h : l.base slot + l.limbs < 2 ^ 32) :
    Driver.limbAddresses l slot = (List.range l.limbs).map (l.address slot) := by
  rw [Driver.limbAddresses, toNat_address h, toNat_address (i := 0) (by omega), Nat.add_zero,
    Nat.add_sub_cancel_left]

end LimbLayout

namespace FpMemory

theorem getD_setIfInBounds (memory : FpMemory) (a b : Nat) (limb : UInt32) :
    (memory.setIfInBounds a limb).getD b 0 =
      if b = a ∧ a < memory.size then limb else memory.getD b 0 := by
  rw [Array.getD_eq_getD_getElem?, Array.getD_eq_getD_getElem?, Array.getElem?_setIfInBounds]
  by_cases hb : b = a
  · subst hb
    by_cases hsize : b < memory.size
    · simp only [hsize, and_self, if_true, Option.getD_some]
    · simp only [hsize, and_false, if_false, if_true, Option.getD_none]
      rw [Array.getElem?_eq_none (by omega), Option.getD_none]
  · rw [if_neg (fun h => hb h.symm), if_neg (fun h => hb h.1)]

/-- A number has its digits at its limbs, and leaves every other limb as it was. -/
theorem getD_store {layout : LimbLayout} {slot : Nat} (h : layout.base slot + layout.limbs < 2 ^ 32)
    (value : Nat) (memory : FpMemory) (a : Nat) :
    (store layout slot value memory).getD a 0 =
      if layout.base slot ≤ a ∧ a < layout.base slot + layout.limbs ∧ a < memory.size then
        digit value (a - layout.base slot)
      else memory.getD a 0 := by
  have hsize (n : Nat) : ((List.range n).foldl
      (fun m i => m.setIfInBounds (layout.address slot i).toNat (digit value i)) memory).size =
      memory.size := Device.State.size_store { layout with limbs := n } slot value memory
  rw [store]
  generalize layout.limbs = count at h
  induction count with
  | zero => rw [if_neg (by omega)]; rfl
  | succ n ih =>
    rw [List.range_succ, List.foldl_append, List.foldl_cons, List.foldl_nil, getD_setIfInBounds,
      hsize, ih (by omega), LimbLayout.toNat_address (by omega)]
    by_cases ha : a = layout.base slot + n
    · subst ha
      simp only [true_and, Nat.le_add_right, Nat.lt_irrefl, Nat.add_lt_add_left (Nat.lt_succ_self n),
        false_and, and_false, if_false, Nat.add_sub_cancel_left]
    · rw [if_neg (fun h => ha h.1)]
      congr 1
      simp only [eq_iff_iff]
      omega

end FpMemory

namespace Device.State
variable {layout : LimbLayout} {memory : FpMemory} {slot other value : Nat}

/-- The device places numbers by the same rule as a driver. -/
theorem limbLayout_eq (s : State) : s.limbLayout = .ofSize s.size s.params.limbWidth := rfl

/-- What a driver reads are the limbs of the slot. -/
theorem slotOf_eq (h : layout.Roomy memory) (hslot : slot < Microcode.Slot.count) :
    slotOf layout slot memory =
      ⟨layout.limbWidth,
        (List.range layout.limbs).map fun i => memory.getD (layout.base slot + i) 0⟩ := by
  have hbeyond := h.beyond_lt hslot
  rw [slotOf, LimbLayout.limbAddresses_eq hbeyond, List.map_map, LimbNumber.mk.injEq]
  refine ⟨rfl, List.map_congr_left fun i hi => ?_⟩
  have hlimb := List.mem_range.mp hi
  rw [Function.comp_apply, LimbLayout.toNat_address (by omega)]

/-- A slot reads back what has just been stored there. -/
theorem slotOf_store (h : layout.Roomy memory) (hslot : slot < Microcode.Slot.count)
    (value : Nat) :
    slotOf layout slot (FpMemory.store layout slot value memory) =
      ⟨layout.limbWidth, (List.range layout.limbs).map (FpMemory.digit value)⟩ := by
  rw [slotOf_eq (h.store layout slot value) hslot, LimbNumber.mk.injEq]
  refine ⟨rfl, List.map_congr_left fun i hi => ?_⟩
  have hlimb := List.mem_range.mp hi
  have haddress := h.address_lt hslot hlimb
  rw [FpMemory.getD_store (h.beyond_lt hslot), if_pos ⟨by omega, by omega, haddress⟩,
    Nat.add_sub_cancel_left]

/-- A slot reads the same when another one has been stored to. -/
theorem slotOf_store_of_ne (h : layout.Roomy memory) (hslot : slot < Microcode.Slot.count)
    (hother : other < Microcode.Slot.count) (hne : slot ≠ other) (value : Nat) :
    slotOf layout slot (FpMemory.store layout other value memory) = slotOf layout slot memory := by
  rw [slotOf_eq (h.store layout other value) hslot, slotOf_eq h hslot, LimbNumber.mk.injEq]
  refine ⟨rfl, List.map_congr_left fun i hi => ?_⟩
  rw [FpMemory.getD_store (h.beyond_lt hother), if_neg]
  rintro ⟨hlow, hhigh, -⟩
  exact hne ((LimbLayout.Spans.of_lt (List.mem_range.mp hi)).unique ⟨hlow, hhigh⟩ h.apart)

end Device.State

/-! ### The number of the limbs -/

namespace LimbNumber

/-- The number that the limbs add up to. -/
def value (n : LimbNumber) : Nat :=
  n.limbs.foldr (fun limb high => limb.toNat % 2 ^ min n.limbWidth 32 + 2 ^ n.limbWidth * high) 0

theorem value_cons (limb : UInt32) (limbs : List UInt32) :
    (⟨32, limb :: limbs⟩ : LimbNumber).value =
      limb.toNat + 2 ^ 32 * (⟨32, limbs⟩ : LimbNumber).value := by
  have hlimb : limb.toNat % 2 ^ min 32 32 = limb.toNat := Nat.mod_eq_of_lt limb.toNat_lt
  show limb.toNat % 2 ^ min 32 32 + 2 ^ 32 * _ = _
  rw [hlimb]
  rfl

/-- The digits of a number add up to it, as far as they go. -/
theorem value_digits (v n : Nat) :
    (⟨32, (List.range n).map (FpMemory.digit v)⟩ : LimbNumber).value = v % 2 ^ (32 * n) := by
  induction n generalizing v with
  | zero => rw [Nat.mul_zero, Nat.pow_zero, Nat.mod_one]; rfl
  | succ n ih =>
    have hshift : FpMemory.digit v ∘ Nat.succ = FpMemory.digit (v / 2 ^ 32) := by
      funext i
      show UInt32.ofNat (v >>> (32 * (i + 1))) = UInt32.ofNat ((v / 2 ^ 32) >>> (32 * i))
      rw [← Nat.shiftRight_eq_div_pow, ← Nat.shiftRight_add, Nat.mul_succ, Nat.add_comm]
    have hlow : (FpMemory.digit v 0).toNat = v % 2 ^ 32 := UInt32.toNat_ofNat'
    rw [List.range_succ_eq_map, List.map_cons, List.map_map, hshift, value_cons, ih, hlow,
      Nat.mul_succ, Nat.add_comm (32 * n), Nat.pow_add, Nat.mod_mul]

end LimbNumber

namespace FpMemory
variable {size : Nat} {memory : FpMemory}

/-- A memory that has room for numbers of `size` bits in limbs of 32 bits. -/
structure Holds (size : Nat) (memory : FpMemory) : Prop where
  small : size < 2 ^ 31
  roomy : (LimbLayout.ofSize size 32).Roomy memory

theorem Holds.store (h : Holds size memory) (slot value : Nat) :
    Holds size (store (.ofSize size 32) slot value memory) := ⟨h.small, h.roomy.store _ slot value⟩

end FpMemory

/-- With limbs of 32 bits a slot reads back the number that has just been stored there, if
that takes up no more than its size and the headroom. -/
theorem Device.State.value_slotOf_store {size slot value : Nat} {memory : FpMemory}
    (h : FpMemory.Holds size memory) (hslot : slot < Microcode.Slot.count)
    (hvalue : value < 2 ^ (size + 4)) :
    (slotOf (.ofSize size 32) slot (FpMemory.store (.ofSize size 32) slot value memory)).value =
      value := by
  have hsmall := h.small
  have hbits : size + 4 ≤ 32 * (LimbLayout.ofSize size 32).limbs := by
    rw [LimbLayout.limbs_ofSize (by omega)]
    omega
  rw [slotOf_store h.roomy hslot]
  exact (LimbNumber.value_digits value _).trans
    (Nat.mod_eq_of_lt (Nat.lt_of_lt_of_le hvalue (Nat.pow_le_pow_right (by decide) hbits)))

end CurveEngine
