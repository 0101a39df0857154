import CurveEngine.Proofs.Slots
import CurveEngine.Proofs.Words
import Mathlib.Data.List.Induction
import Mathlib.Tactic.Ring

/-! Limbs of any width as bytes.

Limb by limb, `Pouring` follows the buffer through which a number is turned into bytes. Between
two limbs it holds fewer than eight bits, and these and the bytes that have been taken off make up
the value of the limbs so far (`whole_poured`): a limb is put on top of what is held, without a bit
falling out at either end. So the bytes of a limb number are those of its value (`toNat_toBytes`),
and its text, which has room for all of them, tells the value (`toBytes_value`). -/
namespace CurveEngine

/-! ### Hexadecimal text -/

namespace Hex

theorem digitChar_injective : ∀ a < 16, ∀ b < 16, Nat.digitChar a = Nat.digitChar b → a = b := by
  decide

/-- The digits of a byte. -/
def byteDigits (b : UInt8) : List Char :=
  [Nat.digitChar (b.toNat / 16), Nat.digitChar (b.toNat % 16)]

theorem toList_bytes (bs : List UInt8) : (bytes bs).toList = bs.flatMap byteDigits := by
  have hfold (text : String) : (bs.foldl (fun text b => text ++ byte b) text).toList =
      text.toList ++ bs.flatMap byteDigits := by
    induction bs generalizing text with
    | nil => simp
    | cons b rest ih =>
      rw [List.foldl_cons, ih, String.toList_append, List.append_assoc, List.flatMap_cons, byte,
        String.toList_ofList]
      rfl
  rw [bytes, hfold]
  rfl

/-- The text of bytes tells the bytes. -/
theorem bytes_injective {bs cs : List UInt8} (h : bytes bs = bytes cs) : bs = cs := by
  have hdigits : bs.flatMap byteDigits = cs.flatMap byteDigits := by
    rw [← toList_bytes, h, toList_bytes]
  induction bs generalizing cs with
  | nil =>
    cases cs with
    | nil => rfl
    | cons c rest => simp [byteDigits] at hdigits
  | cons b rest ih =>
    cases cs with
    | nil => simp [byteDigits] at hdigits
    | cons c rest' =>
      simp only [List.flatMap_cons, byteDigits, List.cons_append, List.nil_append,
        List.cons.injEq] at hdigits
      obtain ⟨hhigh, hlow, hrest⟩ := hdigits
      have hb := b.toNat_lt
      have hc := c.toNat_lt
      have hdiv := digitChar_injective _ (by omega) _ (by omega) hhigh
      have hmod := digitChar_injective _ (by omega) _ (by omega) hlow
      have hhead : b = c := UInt8.toNat_inj.mp (by omega)
      rw [hhead, ih (String.toList_inj.mp (by rw [toList_bytes, toList_bytes]; exact hrest)) hrest]

end Hex

namespace LimbNumber
variable {limbWidth : Nat}

/-! ### Limbs -/

theorem toNat_limb (limb : UInt32) (limbWidth : Nat) :
    (limb &&& limbMask limbWidth).toNat = limb.toNat % 2 ^ min limbWidth 32 := by
  have hless : 2 ^ min limbWidth 32 ≤ 2 ^ 32 :=
    Nat.pow_le_pow_right (by decide) (Nat.min_le_right ..)
  have hmask : (limbMask limbWidth).toNat = 2 ^ min limbWidth 32 - 1 := by
    rw [limbMask, UInt32.toNat_ofNat', Nat.one_shiftLeft]
    have hpos := Nat.two_pow_pos (min limbWidth 32)
    exact Nat.mod_eq_of_lt (by omega)
  rw [UInt32.toNat_and, hmask, Nat.and_two_pow_sub_one_eq_mod]

/-- Taking bytes off a buffer divides it. -/
theorem takeBytes_eq (count : Nat) (buffer : UInt64) :
    (takeBytes count buffer).1.length = count ∧
      Bytes.lowNat (takeBytes count buffer).1 = buffer.toNat % 256 ^ count ∧
      (takeBytes count buffer).2.toNat = buffer.toNat / 256 ^ count := by
  induction count generalizing buffer with
  | zero => simp [takeBytes, Bytes.lowNat, Nat.mod_one]
  | succ count ih =>
    obtain ⟨hlength, hbytes, hrest⟩ := ih (buffer >>> 8)
    have hshift : (buffer >>> 8).toNat = buffer.toNat / 256 := by
      rw [UInt64.toNat_shiftRight]
      exact Nat.shiftRight_eq_div_pow _ 8
    have hsucc : takeBytes (count + 1) buffer =
        (buffer.toUInt8 :: (takeBytes count (buffer >>> 8)).1,
          (takeBytes count (buffer >>> 8)).2) := rfl
    have hpow : 256 ^ (count + 1) = 2 ^ 8 * 256 ^ count := Nat.pow_succ'
    rw [hsucc, hrest, hshift, List.length_cons, hlength, Bytes.lowNat, hbytes, hshift,
      UInt64.toNat_toUInt8, Nat.div_div_eq_div_mul, hpow, Nat.mod_mul]
    exact ⟨rfl, rfl, rfl⟩

theorem limb_lt (limb : UInt32) (limbWidth : Nat) :
    limb.toNat % 2 ^ min limbWidth 32 < 2 ^ limbWidth :=
  Nat.lt_of_lt_of_le (Nat.mod_lt _ (Nat.two_pow_pos _))
    (Nat.pow_le_pow_right (by decide) (Nat.min_le_left ..))

/-! ### The value of limbs -/

theorem value_nil : (⟨limbWidth, []⟩ : LimbNumber).value = 0 := rfl

theorem value_cons_any (limb : UInt32) (limbs : List UInt32) :
    (⟨limbWidth, limb :: limbs⟩ : LimbNumber).value =
      limb.toNat % 2 ^ min limbWidth 32 + 2 ^ limbWidth * (⟨limbWidth, limbs⟩ : LimbNumber).value :=
  rfl

theorem value_concat (limbs : List UInt32) (limb : UInt32) :
    (⟨limbWidth, limbs ++ [limb]⟩ : LimbNumber).value =
      (⟨limbWidth, limbs⟩ : LimbNumber).value +
        2 ^ (limbWidth * limbs.length) * (limb.toNat % 2 ^ min limbWidth 32) := by
  induction limbs with
  | nil => simp [value_cons_any, value_nil]
  | cons first rest ih =>
    rw [List.cons_append, value_cons_any, ih, value_cons_any, List.length_cons, Nat.mul_succ,
      Nat.pow_add]
    ring

/-- The value is the sum of the limbs, each at its place. -/
theorem value_eq_sum (limbs : List UInt32) :
    (⟨limbWidth, limbs⟩ : LimbNumber).value =
      (limbs.mapIdx fun i limb =>
        limb.toNat % 2 ^ min limbWidth 32 * 2 ^ (limbWidth * i)).sum := by
  induction limbs using List.reverseRecOn with
  | nil => rfl
  | append_singleton limbs limb ih =>
    rw [value_concat, ih, List.mapIdx_concat, List.sum_append, List.sum_singleton, Nat.mul_comm]

theorem value_lt (limbs : List UInt32) :
    (⟨limbWidth, limbs⟩ : LimbNumber).value < 2 ^ (limbWidth * limbs.length) := by
  induction limbs with
  | nil => exact Nat.one_pos
  | cons limb rest ih =>
    have hlimb := limb_lt limb limbWidth
    rw [value_cons_any, List.length_cons, Nat.mul_succ, Nat.add_comm (limbWidth * rest.length),
      Nat.pow_add]
    calc limb.toNat % 2 ^ min limbWidth 32 + 2 ^ limbWidth * (⟨limbWidth, rest⟩ : LimbNumber).value
      _ < 2 ^ limbWidth * ((⟨limbWidth, rest⟩ : LimbNumber).value + 1) := by
        rw [Nat.mul_succ]
        omega
      _ ≤ 2 ^ limbWidth * 2 ^ (limbWidth * rest.length) := Nat.mul_le_mul_left _ ih

/-! ### Pouring -/

/-- How far limbs have been turned into bytes: the bytes that have been taken off the buffer, lowest
first, and the bits that are left in it. -/
structure Pouring where
  bytes : List UInt8
  buffer : UInt64
  held : Nat

namespace Pouring

/-- The buffer with a limb put on top of what is held. -/
def filled (limbWidth : Nat) (p : Pouring) (limb : UInt32) : UInt64 :=
  p.buffer ||| (limb &&& limbMask limbWidth).toUInt64 <<< UInt64.ofNat p.held

/-- A limb is put into the buffer, and whole bytes are taken off. -/
def next (limbWidth : Nat) (p : Pouring) (limb : UInt32) : Pouring :=
  let (bytes, buffer) := takeBytes ((p.held + limbWidth) / 8) (p.filled limbWidth limb)
  ⟨p.bytes ++ bytes, buffer, (p.held + limbWidth) % 8⟩

/-- What is held at the end makes a last byte. -/
def tail (p : Pouring) : List UInt8 := if p.held > 0 then [p.buffer.toUInt8] else []

/-- Nothing of the limbs so far is lost: their value is in the bytes and in the buffer. -/
structure Whole (limbWidth : Nat) (limbs : List UInt32) (p : Pouring) : Prop where
  held_lt : p.held < 8
  buffer_lt : p.buffer.toNat < 2 ^ p.held
  bits : 8 * p.bytes.length + p.held = limbWidth * limbs.length
  total : Bytes.lowNat p.bytes + 256 ^ p.bytes.length * p.buffer.toNat =
    (⟨limbWidth, limbs⟩ : LimbNumber).value

variable {p : Pouring} {limbs : List UInt32}

/-- What is held and the limb on top of it make up no more than forty bits. -/
theorem Whole.toNat_filled (h : Whole limbWidth limbs p) (limb : UInt32) :
    (p.filled limbWidth limb).toNat =
      p.buffer.toNat + 2 ^ p.held * (limb.toNat % 2 ^ min limbWidth 32) := by
  have hheld := h.held_lt
  have hroom : limb.toNat % 2 ^ min limbWidth 32 * 2 ^ p.held < 2 ^ 64 := by
    calc limb.toNat % 2 ^ min limbWidth 32 * 2 ^ p.held
      _ < 2 ^ 32 * 2 ^ p.held :=
        Nat.mul_lt_mul_of_pos_right (Nat.lt_of_le_of_lt (Nat.mod_le _ _) limb.toNat_lt)
          (Nat.two_pow_pos _)
      _ ≤ 2 ^ 32 * 2 ^ 32 := Nat.mul_le_mul_left _ (Nat.pow_le_pow_right (by decide) (by omega))
      _ = 2 ^ 64 := by decide
  have hpart : ((limb &&& limbMask limbWidth).toUInt64 <<< UInt64.ofNat p.held).toNat =
      (limb.toNat % 2 ^ min limbWidth 32) <<< p.held := by
    rw [UInt64.toNat_shiftLeft, UInt32.toNat_toUInt64, toNat_limb, UInt64.toNat_ofNat',
      Nat.mod_eq_of_lt (show p.held < 2 ^ 64 by omega), Nat.mod_eq_of_lt (show p.held < 64 by omega),
      Nat.mod_eq_of_lt]
    rwa [Nat.shiftLeft_eq]
  rw [filled, UInt64.toNat_or, hpart, Nat.or_comm, ← Nat.shiftLeft_add_eq_or_of_lt h.buffer_lt,
    Nat.shiftLeft_eq, Nat.mul_comm, Nat.add_comm]

theorem Whole.filled_lt (h : Whole limbWidth limbs p) (limb : UInt32) :
    (p.filled limbWidth limb).toNat < 2 ^ (p.held + limbWidth) := by
  have hbuffer := h.buffer_lt
  rw [h.toNat_filled, Nat.pow_add]
  calc p.buffer.toNat + 2 ^ p.held * (limb.toNat % 2 ^ min limbWidth 32)
    _ < 2 ^ p.held * (limb.toNat % 2 ^ min limbWidth 32 + 1) := by
      rw [Nat.mul_succ]
      omega
    _ ≤ 2 ^ p.held * 2 ^ limbWidth := Nat.mul_le_mul_left _ (limb_lt limb limbWidth)

theorem Whole.next (h : Whole limbWidth limbs p) (limb : UInt32) :
    Whole limbWidth (limbs ++ [limb]) (p.next limbWidth limb) := by
  obtain ⟨hlength, hbytes, hrest⟩ :=
    takeBytes_eq ((p.held + limbWidth) / 8) (p.filled limbWidth limb)
  have hsplit : 2 ^ (p.held + limbWidth) =
      256 ^ ((p.held + limbWidth) / 8) * 2 ^ ((p.held + limbWidth) % 8) := by
    rw [Bytes.pow_eight_mul, ← Nat.pow_add, Nat.div_add_mod]
  refine ⟨Nat.mod_lt _ (by decide), ?_, ?_, ?_⟩
  · show (takeBytes _ _).2.toNat < _
    rw [hrest]
    exact Nat.div_lt_of_lt_mul (hsplit ▸ h.filled_lt limb)
  · show 8 * (p.bytes ++ (takeBytes _ _).1).length + (p.held + limbWidth) % 8 = _
    have hbits := h.bits
    rw [List.length_append, List.length_append, hlength, List.length_singleton, Nat.mul_succ]
    omega
  · show Bytes.lowNat (p.bytes ++ (takeBytes _ _).1) +
      256 ^ (p.bytes ++ (takeBytes _ _).1).length * (takeBytes _ _).2.toNat = _
    have hplace : 256 ^ p.bytes.length * 2 ^ p.held = 2 ^ (limbWidth * limbs.length) := by
      rw [Bytes.pow_eight_mul, ← Nat.pow_add, h.bits]
    rw [Bytes.lowNat_append, List.length_append, hlength, hbytes, hrest, Nat.pow_add, value_concat,
      ← hplace, ← h.total]
    calc Bytes.lowNat p.bytes + 256 ^ p.bytes.length *
            ((p.filled limbWidth limb).toNat % 256 ^ ((p.held + limbWidth) / 8)) +
          256 ^ p.bytes.length * 256 ^ ((p.held + limbWidth) / 8) *
            ((p.filled limbWidth limb).toNat / 256 ^ ((p.held + limbWidth) / 8))
      _ = Bytes.lowNat p.bytes + 256 ^ p.bytes.length *
            ((p.filled limbWidth limb).toNat % 256 ^ ((p.held + limbWidth) / 8) +
              256 ^ ((p.held + limbWidth) / 8) *
                ((p.filled limbWidth limb).toNat / 256 ^ ((p.held + limbWidth) / 8))) := by ring
      _ = Bytes.lowNat p.bytes + 256 ^ p.bytes.length *
            (p.buffer.toNat + 2 ^ p.held * (limb.toNat % 2 ^ min limbWidth 32)) := by
        rw [Nat.mod_add_div, h.toNat_filled]
      _ = _ := by ring

/-- What is held fits into a last byte. -/
theorem Whole.lowNat_tail (h : Whole limbWidth limbs p) : Bytes.lowNat p.tail = p.buffer.toNat := by
  have hheld := h.held_lt
  have hbuffer := h.buffer_lt
  rw [tail]
  split
  · have hbyte : 2 ^ p.held ≤ 2 ^ 7 := Nat.pow_le_pow_right (by decide) (by omega)
    simp only [Bytes.lowNat, UInt64.toNat_toUInt8]
    omega
  · rename_i hnone
    obtain hzero : p.held = 0 := by omega
    rw [hzero] at hbuffer
    simp only [Bytes.lowNat]
    omega

end Pouring

/-- How far the bytes are after some limbs. -/
def poured (limbWidth : Nat) (limbs : List UInt32) : Pouring :=
  limbs.foldl (Pouring.next limbWidth) ⟨[], 0, 0⟩

theorem poured_concat (limbs : List UInt32) (limb : UInt32) :
    poured limbWidth (limbs ++ [limb]) = (poured limbWidth limbs).next limbWidth limb := by
  rw [poured, List.foldl_append]
  rfl

/-- After each limb the bytes and the buffer have the whole of the limbs so far. -/
theorem whole_poured (limbWidth : Nat) (limbs : List UInt32) :
    (poured limbWidth limbs).Whole limbWidth limbs := by
  induction limbs using List.reverseRecOn with
  | nil => exact ⟨Nat.succ_pos 7, Nat.one_pos, rfl, rfl⟩
  | append_singleton limbs limb ih =>
    rw [poured_concat]
    exact ih.next limb

/-- Where the first limbs have been poured, the rest goes on from there. -/
theorem pour_append (limbs rest : List UInt32) :
    pour limbWidth (limbs ++ rest) 0 0 =
      (poured limbWidth limbs).bytes ++
        pour limbWidth rest (poured limbWidth limbs).buffer (poured limbWidth limbs).held := by
  induction limbs using List.reverseRecOn generalizing rest with
  | nil => rfl
  | append_singleton limbs limb ih =>
    rw [List.append_assoc, ih, poured_concat]
    show _ ++ (_ ++ pour limbWidth rest _ _) = (_ ++ _) ++ pour limbWidth rest _ _
    rw [List.append_assoc]
    rfl

theorem lowNat_pour (limbWidth : Nat) (limbs : List UInt32) :
    Bytes.lowNat (pour limbWidth limbs 0 0) = (⟨limbWidth, limbs⟩ : LimbNumber).value := by
  have hwhole := whole_poured limbWidth limbs
  have hend : pour limbWidth limbs 0 0 =
      (poured limbWidth limbs).bytes ++ (poured limbWidth limbs).tail := by
    have happend : pour limbWidth (limbs ++ []) 0 0 = _ := pour_append limbs []
    rwa [List.append_nil] at happend
  rw [hend, Bytes.lowNat_append, hwhole.lowNat_tail, hwhole.total]

/-! ### Bytes and text -/

/-- The bytes of a limb number write its value, as far as they reach. -/
theorem toNat_toBytes (n : LimbNumber) (len : Nat) :
    (n.toBytes len).toNat = n.value % 256 ^ len := by
  have hzeros (count : Nat) : Bytes.lowNat (List.replicate count 0) = 0 := by
    simpa using Bytes.lowNat_replicate count 0
  rw [Bytes.toNat_eq, toBytes, List.reverse_reverse, Bytes.lowNat_append, hzeros, Nat.mul_zero,
    Nat.add_zero, Bytes.lowNat_take, lowNat_pour]

/-- The bytes of the text reach as far as the value. -/
theorem toNat_textBytes (n : LimbNumber) : (n.toBytes n.byteLength).toNat = n.value := by
  rw [toNat_toBytes, Nat.mod_eq_of_lt]
  calc n.value
    _ < 2 ^ (n.limbWidth * n.limbs.length) := value_lt n.limbs
    _ ≤ 2 ^ (8 * n.byteLength) := by
      refine Nat.pow_le_pow_right (by decide) ?_
      rw [byteLength, Nat.mul_comm]
      omega
    _ = 256 ^ n.byteLength := (Bytes.pow_eight_mul _).symm

/-- The text tells the value. -/
theorem value_eq_of_text {n m : LimbNumber} (h : n.text = m.text) : n.value = m.value := by
  have hlist := congrArg String.toList h
  rw [text, text, String.toList_append, String.toList_append, List.append_cancel_left_eq,
    String.toList_inj] at hlist
  rw [← toNat_textBytes, Hex.bytes_injective hlist, toNat_textBytes]

/-- **The bytes and the text of limbs.** The value of limbs is their sum, each cut to its width and
at its place. The bytes of a limb number, as many as are asked for, write its value as far as they
reach. On the way to them no bit is lost: before each limb the bytes so far and the fewer than eight
bits that are held make up the limbs before it, the limb is added above what is held, and the count
of bits stays within 32 bits. The text shows the bytes that hold every limb, so that numbers with
the same text have the same value. -/
theorem toBytes_value (n : LimbNumber) (h : n.limbWidth ≤ 2 ^ 31) :
    n.value = (n.limbs.mapIdx fun i limb =>
      limb.toNat % 2 ^ min n.limbWidth 32 * 2 ^ (n.limbWidth * i)).sum ∧
    (∀ len, (n.toBytes len).length = len ∧ (n.toBytes len).toNat = n.value % 256 ^ len) ∧
    (∀ before limb after, n.limbs = before ++ limb :: after →
      let p := poured n.limbWidth before
      pour n.limbWidth n.limbs 0 0 =
          p.bytes ++ pour n.limbWidth (limb :: after) p.buffer p.held ∧
        p.Whole n.limbWidth before ∧ p.held + n.limbWidth < 2 ^ 32 ∧
        (p.filled n.limbWidth limb).toNat =
          p.buffer.toNat + 2 ^ p.held * (limb.toNat % 2 ^ min n.limbWidth 32)) ∧
    (∃ bytes : Bytes, n.text = "0x" ++ Hex.bytes bytes ∧
      bytes.length = (n.limbs.length * n.limbWidth + 7) / 8 ∧ bytes.toNat = n.value) ∧
    ∀ m : LimbNumber, m.text = n.text → m.value = n.value := by
  refine ⟨value_eq_sum n.limbs, fun len => ⟨length_toBytes n len, toNat_toBytes n len⟩, ?_,
    ⟨_, rfl, length_toBytes n _, toNat_textBytes n⟩, fun m => value_eq_of_text⟩
  intro before limb after hlimbs p
  have hwhole := whole_poured n.limbWidth before
  have hheld := hwhole.held_lt
  refine ⟨?_, hwhole, ?_, hwhole.toNat_filled limb⟩
  · rw [hlimbs]
    exact pour_append before (limb :: after)
  · show (poured n.limbWidth before).held + n.limbWidth < 2 ^ 32
    omega

/-- Two limbs of twelve bits, the second with bits beyond its width, on two bytes and as text. -/
theorem toBytes_value_twelve :
    let n : LimbNumber := ⟨12, [0xabc, 0xf123]⟩
    (n.toBytes 2).toNat = 0x3abc ∧ n.text = "0x123abc" := by
  intro n
  obtain ⟨hsum, hbytes, -, ⟨bytes, htext, hlength, hvalue⟩, -⟩ := toBytes_value n (by decide)
  have hn : n.value = 0x123abc := hsum.trans (by decide)
  have hthree : bytes.length = 3 := hlength.trans (show (2 * 12 + 7) / 8 = 3 by decide)
  have hshown : bytes = [0x12, 0x3a, 0xbc] := Bytes.eq_of_toNat hthree (hvalue.trans hn)
  have hlow := (hbytes 2).2
  rw [hn] at hlow
  rw [htext, hshown]
  exact ⟨hlow, by decide⟩

end LimbNumber

end CurveEngine
