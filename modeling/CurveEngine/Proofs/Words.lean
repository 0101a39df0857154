import CurveEngine.Bytes
import Mathlib.Tactic.Ring

/-! Byte strings and the words that carry them, as numbers.

The bytes of a transfer come least significant first, so they are read by `lowNat`. An
engine puts the words it is sent together by `gather` and cuts a number into words by
`scatter`; sending a byte string gathers the number that it writes (`gather_toWords`),
and filling a buffer with the words of a number writes as much of it as the buffer holds
(`toNat_fill`). -/
namespace CurveEngine.Bytes

/-- The number that bytes write, least significant byte first. -/
def lowNat : List UInt8 → Nat
  | [] => 0
  | b :: rest => b.toNat + 256 * lowNat rest

theorem toNat_eq (bytes : Bytes) : toNat bytes = lowNat bytes.reverse := by
  have hfold (l : List UInt8) : l.foldr (fun b n => n * 256 + b.toNat) 0 = lowNat l := by
    induction l with
    | nil => rfl
    | cons b rest ih =>
      rw [List.foldr_cons, ih, lowNat]
      ring
  rw [toNat, ← hfold, List.foldr_reverse]

theorem lowNat_lt (l : List UInt8) : lowNat l < 256 ^ l.length := by
  induction l with
  | nil => exact Nat.one_pos
  | cons b rest ih =>
    have hbyte := b.toNat_lt
    rw [lowNat, List.length_cons, pow_succ]
    omega

theorem lowNat_append (l m : List UInt8) :
    lowNat (l ++ m) = lowNat l + 256 ^ l.length * lowNat m := by
  induction l with
  | nil => simp [lowNat]
  | cons b rest ih =>
    rw [List.cons_append, lowNat, ih, lowNat, List.length_cons, pow_succ]
    ring

/-- A byte that is repeated writes as many equal digits. -/
theorem lowNat_replicate (count : Nat) (b : UInt8) :
    255 * lowNat (List.replicate count b) + b.toNat = b.toNat * 256 ^ count := by
  induction count with
  | zero => rw [List.replicate_zero, lowNat, pow_zero, mul_zero, mul_one, zero_add]
  | succ count ih =>
    rw [List.replicate_succ, lowNat, pow_succ, ← mul_assoc]
    omega

theorem toNat_lt (bytes : Bytes) : toNat bytes < 256 ^ bytes.length := by
  rw [toNat_eq, ← List.length_reverse]
  exact lowNat_lt _

theorem lowNat_injective {l m : List UInt8} (hlen : l.length = m.length)
    (h : lowNat l = lowNat m) : l = m := by
  induction l generalizing m with
  | nil => exact (List.length_eq_zero_iff.mp hlen.symm).symm
  | cons b rest ih =>
    cases m with
    | nil => cases hlen
    | cons c rest' =>
      rw [lowNat, lowNat] at h
      have hb := b.toNat_lt
      have hc := c.toNat_lt
      have hhead : b = c := UInt8.toNat_inj.mp (by omega)
      rw [hhead, ih (Nat.succ.inj hlen) (by omega)]

/-- Byte strings of one length are told apart by the numbers they write. -/
theorem eq_of_toNat {a b : Bytes} (hlen : a.length = b.length) (h : a.toNat = b.toNat) : a = b := by
  rw [toNat_eq, toNat_eq] at h
  exact List.reverse_inj.mp (lowNat_injective (by simpa using hlen) h)

theorem lowNat_take (n : Nat) (l : List UInt8) : lowNat (l.take n) = lowNat l % 256 ^ n := by
  induction n generalizing l with
  | zero => simp [lowNat, Nat.mod_one]
  | succ n ih =>
    cases l with
    | nil => simp [lowNat]
    | cons b rest =>
      have hbyte := b.toNat_lt
      have hlow : (b.toNat + 256 * lowNat rest) % 256 = b.toNat := by omega
      have hhigh : (b.toNat + 256 * lowNat rest) / 256 = lowNat rest := by omega
      rw [List.take_succ_cons, lowNat, lowNat, ih, pow_succ', Nat.mod_mul, hlow, hhigh]

theorem lowNat_drop (n : Nat) (l : List UInt8) : lowNat (l.drop n) = lowNat l / 256 ^ n := by
  induction n generalizing l with
  | zero => simp
  | succ n ih =>
    cases l with
    | nil => simp [lowNat]
    | cons b rest =>
      have hbyte := b.toNat_lt
      rw [List.drop_succ_cons, lowNat, ih, pow_succ', ← Nat.div_div_eq_div_mul]
      congr 1
      omega

theorem pow_eight_mul (n : Nat) : (256 : Nat) ^ n = 2 ^ (8 * n) := by
  rw [pow_mul]
  rfl

/-! ### Words -/

theorem toNat_assemble (l : List UInt8) (h : l.length ≤ 8) : (assemble l).toNat = lowNat l := by
  induction l with
  | nil => rfl
  | cons b rest ih =>
    rw [List.length_cons] at h
    have hrest := ih (by omega)
    have hlt : lowNat rest < 2 ^ 56 :=
      Nat.lt_of_lt_of_le (lowNat_lt rest)
        (Nat.pow_le_pow_right (n := 256) (by omega) (show rest.length ≤ 7 by omega))
    have hshift : ((assemble rest) <<< 8).toNat = lowNat rest <<< 8 := by
      rw [UInt64.toNat_shiftLeft, hrest]
      show lowNat rest <<< 8 % 2 ^ 64 = _
      rw [Nat.shiftLeft_eq]
      omega
    show ((assemble rest <<< 8) ||| b.toUInt64).toNat = _
    rw [UInt64.toNat_or, hshift, UInt8.toNat_toUInt64,
      ← Nat.shiftLeft_add_eq_or_of_lt b.toNat_lt, Nat.shiftLeft_eq, lowNat]
    omega

theorem length_split (wordBytes : Nat) (word : UInt64) :
    (split wordBytes word).length = wordBytes := by
  rw [split, List.length_map, List.length_range]

theorem lowNat_split {wordBytes : Nat} (h : wordBytes ≤ 8) (word : UInt64) :
    lowNat (split wordBytes word) = word.toNat % 256 ^ wordBytes := by
  unfold split
  induction wordBytes with
  | zero => simp [lowNat, Nat.mod_one]
  | succ n ih =>
    have hbyte : ((word >>> UInt64.ofNat (8 * n)).toUInt8).toNat = word.toNat / 256 ^ n % 256 := by
      rw [UInt64.toNat_toUInt8, UInt64.toNat_shiftRight, UInt64.toNat_ofNat',
        Nat.shiftRight_eq_div_pow, Nat.mod_eq_of_lt (show 8 * n < 2 ^ 64 by omega),
        Nat.mod_eq_of_lt (show 8 * n < 64 by omega), ← pow_eight_mul]
    rw [List.range_succ, List.map_append, lowNat_append, ih (by omega), List.length_map,
      List.length_range, List.map_singleton, lowNat, lowNat, hbyte, pow_succ, Nat.mod_mul,
      mul_zero, add_zero]

/-! ### Sending -/

/-- The number that an engine puts together from words of `bits` bits, from one index
on. -/
def gather (bits : Nat) : Nat → List UInt64 → Nat
  | _, [] => 0
  | index, word :: rest => (word.toNat <<< (index * bits)) ||| gather bits (index + 1) rest

theorem gather_chunks {wordBytes : Nat} (h : wordBytes ≤ 8) (count index : Nat)
    (lowFirst : List UInt8) :
    gather (8 * wordBytes) index (chunks wordBytes count lowFirst) =
      (lowNat lowFirst % 256 ^ (wordBytes * count)) * 2 ^ (index * (8 * wordBytes)) := by
  have hradix : (256 : Nat) ^ wordBytes = 2 ^ (8 * wordBytes) := pow_eight_mul wordBytes
  induction count generalizing index lowFirst with
  | zero => simp [chunks, gather, Nat.mod_one]
  | succ count ih =>
    have hword : (assemble (lowFirst.take wordBytes)).toNat = lowNat lowFirst % 256 ^ wordBytes := by
      rw [toNat_assemble _ (by rw [List.length_take]; omega), lowNat_take]
    have hlow : lowNat lowFirst % 256 ^ wordBytes < 2 ^ (8 * wordBytes) := by
      rw [← hradix]
      exact Nat.mod_lt _ (Nat.pow_pos (by decide))
    have hfits : (lowNat lowFirst % 256 ^ wordBytes) * 2 ^ (index * (8 * wordBytes)) <
        2 ^ ((index + 1) * (8 * wordBytes)) := by
      rw [add_mul, one_mul, pow_add, mul_comm (2 ^ (index * (8 * wordBytes)))]
      exact Nat.mul_lt_mul_of_pos_right hlow (Nat.two_pow_pos _)
    rw [chunks, gather, ih, hword, lowNat_drop, Nat.or_comm, Nat.shiftLeft_eq,
      ← Nat.shiftLeft_eq _ ((index + 1) * (8 * wordBytes)),
      ← Nat.shiftLeft_add_eq_or_of_lt hfits, Nat.shiftLeft_eq, Nat.mul_succ, pow_add,
      mul_comm (256 ^ (wordBytes * count)), Nat.mod_mul, add_mul index, one_mul, pow_add, hradix]
    ring

/-- What is sent is the number that the byte string writes, if there are words enough. -/
theorem gather_toWords {wordBytes : Nat} (h : wordBytes ≤ 8) {count : Nat} {bytes : Bytes}
    (hlen : bytes.length ≤ wordBytes * count) :
    gather (8 * wordBytes) 0 (toWords wordBytes count bytes) = toNat bytes := by
  have hlt : lowNat bytes.reverse < 256 ^ (wordBytes * count) :=
    Nat.lt_of_lt_of_le (lowNat_lt _)
      (Nat.pow_le_pow_right (by decide) (by rwa [List.length_reverse]))
  rw [toWords, gather_chunks h, Nat.mod_eq_of_lt hlt, zero_mul, pow_zero, mul_one, toNat_eq]

/-- Only the numbers of the words count. -/
theorem gather_map {bits : Nat} {f : UInt64 → UInt64} {words : List UInt64}
    (h : ∀ word ∈ words, (f word).toNat = word.toNat) (index : Nat) :
    gather bits index (words.map f) = gather bits index words := by
  induction words generalizing index with
  | nil => rfl
  | cons word rest ih =>
    rw [List.map_cons, gather, gather, h word List.mem_cons_self,
      ih (fun w hw => h w (List.mem_cons_of_mem _ hw))]

theorem chunks_lt {wordBytes : Nat} (h : wordBytes ≤ 8) (count : Nat) (lowFirst : List UInt8) :
    ∀ word ∈ chunks wordBytes count lowFirst, word.toNat < 2 ^ (8 * wordBytes) := by
  induction count generalizing lowFirst with
  | zero =>
    intro word hword
    cases hword
  | succ count ih =>
    intro word hword
    rcases List.mem_cons.mp hword with rfl | hrest
    · rw [toNat_assemble _ (by rw [List.length_take]; omega), lowNat_take, ← pow_eight_mul]
      exact Nat.mod_lt _ (Nat.pow_pos (by decide))
    · exact ih _ word hrest

theorem le_wordsFor (len : Nat) {wordBytes : Nat} (h : 0 < wordBytes) :
    len ≤ wordBytes * wordsFor len wordBytes := by
  have hdiv := Nat.div_add_mod (len + wordBytes - 1) wordBytes
  have hmod := Nat.mod_lt (len + wordBytes - 1) h
  unfold wordsFor
  omega

theorem wordsFor_mono {len len' : Nat} (wordBytes : Nat) (h : len ≤ len') :
    wordsFor len wordBytes ≤ wordsFor len' wordBytes :=
  Nat.div_le_div_right (by omega)

/-! ### Receiving -/

/-- The words of `bits` bits of a number, `count` of them from one index on. Their high
bits are those of the number. -/
def scatter (bits value : Nat) : Nat → Nat → List UInt64
  | _, 0 => []
  | index, count + 1 =>
    UInt64.ofNat (value >>> (index * bits)) :: scatter bits value (index + 1) count

@[simp] theorem length_scatter (bits value index count : Nat) :
    (scatter bits value index count).length = count := by
  induction count generalizing index with
  | zero => rfl
  | succ count ih => rw [scatter, List.length_cons, ih]

/-- The bytes of the words of a number, if what is done to a word on the way keeps its
low bytes. -/
theorem lowNat_scatter {wordBytes : Nat} (h : wordBytes ≤ 8) {f : UInt64 → UInt64}
    (hf : ∀ word, (f word).toNat % 256 ^ wordBytes = word.toNat % 256 ^ wordBytes)
    (value index count : Nat) :
    lowNat (((scatter (8 * wordBytes) value index count).map f).flatMap (split wordBytes)) =
      value / 2 ^ (index * (8 * wordBytes)) % 256 ^ (wordBytes * count) := by
  have hradix : (256 : Nat) ^ wordBytes = 2 ^ (8 * wordBytes) := pow_eight_mul wordBytes
  have hdvd : (256 : Nat) ^ wordBytes ∣ 2 ^ 64 := by
    rw [hradix]
    exact pow_dvd_pow 2 (by omega)
  induction count generalizing index with
  | zero => simp [scatter, lowNat, Nat.mod_one]
  | succ count ih =>
    rw [scatter, List.map_cons, List.flatMap_cons, lowNat_append, ih, length_split,
      lowNat_split h, hf, UInt64.toNat_ofNat', Nat.mod_mod_of_dvd _ hdvd, Nat.shiftRight_eq_div_pow,
      Nat.mul_succ, pow_add, mul_comm (256 ^ (wordBytes * count)), Nat.mod_mul, add_mul, one_mul,
      pow_add, ← Nat.div_div_eq_div_mul, hradix]

theorem length_flatMap_split (wordBytes : Nat) (words : List UInt64) :
    (words.flatMap (split wordBytes)).length = wordBytes * words.length := by
  induction words with
  | nil => rfl
  | cons word rest ih =>
    rw [List.flatMap_cons, List.length_append, length_split, ih, List.length_cons, Nat.mul_succ,
      Nat.add_comm]

@[simp] theorem fill_nil (wordBytes : Nat) (buffer : Bytes) : fill wordBytes [] buffer = buffer := by
  simp [fill]

/-- A buffer that the words fill holds the low bytes of what they carry. -/
theorem toNat_fill {wordBytes : Nat} {words : List UInt64} {buffer : Bytes}
    (hlen : buffer.length ≤ wordBytes * words.length) :
    toNat (fill wordBytes words buffer) =
      lowNat (words.flatMap (split wordBytes)) % 256 ^ buffer.length := by
  have hall : buffer.reverse.drop (words.flatMap (split wordBytes)).length = [] := by
    rw [length_flatMap_split]
    exact List.drop_of_length_le (by rwa [List.length_reverse])
  rw [toNat_eq, fill, List.reverse_reverse, hall, List.append_nil, lowNat_take]

/-! ### Exclusive or -/

theorem xor_mul_add (a b r s n : Nat) (hr : r < 2 ^ n) (hs : s < 2 ^ n) :
    (2 ^ n * a + r) ^^^ (2 ^ n * b + s) = 2 ^ n * (a ^^^ b) + (r ^^^ s) := by
  apply Nat.eq_of_testBit_eq
  intro i
  rw [Nat.testBit_xor, Nat.testBit_two_pow_mul_add _ hr, Nat.testBit_two_pow_mul_add _ hs,
    Nat.testBit_two_pow_mul_add _ (Nat.xor_lt_two_pow hr hs)]
  split
  · rw [Nat.testBit_xor]
  · rw [Nat.testBit_xor]

theorem lowNat_zipWith_xor {l m : List UInt8} (h : l.length = m.length) :
    lowNat (List.zipWith (fun x y => x ^^^ y) l m) = lowNat l ^^^ lowNat m := by
  induction l generalizing m with
  | nil =>
    cases m with
    | nil => rfl
    | cons b rest => cases h
  | cons a l ih =>
    cases m with
    | nil => cases h
    | cons b m =>
      have hxor := xor_mul_add (lowNat l) (lowNat m) a.toNat b.toNat 8 a.toNat_lt b.toNat_lt
      rw [List.zipWith_cons_cons, lowNat, lowNat, lowNat, ih (Nat.succ.inj h), UInt8.toNat_xor,
        Nat.add_comm a.toNat, Nat.add_comm b.toNat, Nat.add_comm (a.toNat ^^^ b.toNat)]
      exact hxor.symm

/-- The exclusive or of byte strings of one length is that of their numbers. -/
theorem toNat_xor {a b : Bytes} (h : a.length = b.length) :
    toNat (xor a b) = toNat a ^^^ toNat b := by
  rw [toNat_eq, toNat_eq, toNat_eq, xor, ← lowNat_zipWith_xor (by simpa using h)]
  congr 1
  exact List.reverse_zipWith h

theorem length_xor (a b : Bytes) : (xor a b).length = min a.length b.length :=
  List.length_zipWith

end CurveEngine.Bytes
