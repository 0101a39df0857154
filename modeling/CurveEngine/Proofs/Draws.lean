import CurveEngine.Proofs.RunStores
import CurveEngine.Proofs.Words

/-! What a run draws.

A random number is what the bytes that are drawn write, modulo the power of two of its bits
(`draw_eq`). It is below that power of two, so that the random values of a run fit into the
slots of Fp memory (`fits_inputs`), and under bypass all its bits are the same (`draw_ones`,
`draw_zeros`). The bytes are counted in words of 32 bits, so that for the last few numbers of
bits that such a word holds none are drawn (`draw_beyond`). `ScalarOf` says which scalar a run
uses and for how many iterations. -/
namespace CurveEngine

theorem Bytes.toNat_cons (lead : UInt8) (rest : Bytes) :
    toNat (lead :: rest) = toNat rest + 256 ^ rest.length * lead.toNat := by
  rw [toNat_eq, toNat_eq, List.reverse_cons, lowNat_append, List.length_reverse]
  rfl

namespace Device

namespace Trng
variable {bits p : Nat} {t : Trng}

/-- The bits of the leading byte that a number does not have are cleared, so that the bytes write
the number modulo its power of two. -/
theorem toNat_trim {bytes : Bytes} (h : bytes.length ≤ (bits + 7) / 8) :
    (trim bits bytes).toNat = bytes.toNat % 2 ^ bits := by
  cases bytes with
  | nil => exact (Nat.zero_mod _).symm
  | cons lead rest =>
    rw [List.length_cons] at h
    -- bits beyond those of the bytes are not there to be cleared
    obtain ⟨kept, hkept, hexcess, hbits⟩ : ∃ kept ≤ 8,
        (rest.length + 1) * 8 - bits = 8 - kept ∧ min bits (8 * (rest.length + 1)) =
          8 * rest.length + kept :=
      ⟨min bits (8 * (rest.length + 1)) - 8 * rest.length, by omega, by omega, by omega⟩
    have hmask : ∀ kept ≤ 8, (UInt8.ofNat (0xff >>> (8 - kept))).toNat = 2 ^ kept - 1 := by decide
    have hlead : (lead &&& UInt8.ofNat (0xff >>> ((rest.length + 1) * 8 - bits))).toNat =
        lead.toNat % 2 ^ kept := by
      rw [UInt8.toNat_and, hexcess, hmask kept hkept, Nat.and_two_pow_sub_one_eq_mod]
    have hrest := Bytes.toNat_lt rest
    have hwhole : Bytes.toNat (lead :: rest) % 2 ^ bits =
        Bytes.toNat (lead :: rest) % 2 ^ (8 * rest.length + kept) := by
      have hlt := Bytes.toNat_lt (lead :: rest)
      rw [Bytes.pow_eight_mul, List.length_cons] at hlt
      rw [← hbits]
      rcases Nat.le_total bits (8 * (rest.length + 1)) with hle | hle
      · rw [Nat.min_eq_left hle]
      · rw [Nat.min_eq_right hle, Nat.mod_eq_of_lt hlt,
          Nat.mod_eq_of_lt (Nat.lt_of_lt_of_le hlt (Nat.pow_le_pow_right (by decide) hle))]
    rw [hwhole, Nat.pow_add, ← Bytes.pow_eight_mul, trim, Bytes.toNat_cons, Bytes.toNat_cons, hlead,
      Nat.mod_mul, Nat.add_mul_mod_self_left, Nat.add_mul_div_left _ _ (Nat.zero_lt_of_lt hrest),
      Nat.mod_eq_of_lt hrest, Nat.div_eq_of_lt hrest, Nat.zero_add]

theorem length_bytes (count : Nat) (t : Trng) : (t.bytes count).1.length = count := by
  rw [bytes]
  split
  · exact List.length_replicate
  · exact (List.length_map _).trans List.length_range

/-- The sum wraps around before it is divided. -/
theorem byteCount_eq (bits : Nat) : byteCount bits = (bits + 7) % 2 ^ 32 / 8 := by
  simp only [byteCount, UInt32.toNat_div, UInt32.toNat_add, UInt32.toNat_ofNat',
    UInt32.reduceToNat, Nat.mod_add_mod]

theorem byteCount_of_lt (h : bits + 7 < 2 ^ 32) : byteCount bits = (bits + 7) / 8 := by
  rw [byteCount_eq, Nat.mod_eq_of_lt h]

/-- No more bytes are drawn than the bits take up. -/
theorem byteCount_le (bits : Nat) : byteCount bits ≤ (bits + 7) / 8 := by
  rw [byteCount_eq]
  exact Nat.div_le_div_right (Nat.mod_le _ _)

/-- A random number is what its bytes write, cut down to the bits it is drawn for. -/
theorem draw_eq (bits : Nat) (channel : Channel) (t : Trng) :
    (t.draw bits channel).1 = (t.bytes (byteCount bits)).1.toNat % 2 ^ bits :=
  toNat_trim ((t.length_bytes _).trans_le (byteCount_le bits))

/-- A random number has the bits it was drawn for. -/
theorem draw_lt (bits : Nat) (channel : Channel) (t : Trng) :
    (t.draw bits channel).1 < 2 ^ bits := by
  rw [draw_eq]
  exact Nat.mod_lt _ (Nat.two_pow_pos bits)

/-- Under bypass every byte that is drawn is made of the same bit. -/
theorem bytes_bypassed {bit : Bool} (h : t.bypass = some bit) (count : Nat) :
    (t.bytes count).1 = List.replicate count (if bit then 0xff else 0) := by
  rw [bytes, h]

/-- Under bypass to ones every bit of a random number is set, as long as the number of its bytes
does not wrap around. -/
theorem draw_ones (h : t.bypass = some true) (hbits : bits + 7 < 2 ^ 32) (channel : Channel) :
    (t.draw bits channel).1 = 2 ^ bits - 1 := by
  have hones := Bytes.lowNat_replicate ((bits + 7) / 8) 0xff
  rw [show (0xff : UInt8).toNat = 255 from rfl] at hones
  have hvalue : (t.bytes ((bits + 7) / 8)).1.toNat = 2 ^ (8 * ((bits + 7) / 8)) - 1 := by
    rw [bytes_bypassed h, if_pos rfl, Bytes.toNat_eq, List.reverse_replicate,
      ← Bytes.pow_eight_mul]
    omega
  rw [draw_eq, byteCount_of_lt hbits, hvalue]
  apply Nat.eq_of_testBit_eq
  intro i
  have hroom : i < bits → i < 8 * ((bits + 7) / 8) := by omega
  simpa [Nat.testBit_mod_two_pow, Nat.testBit_two_pow_sub_one] using hroom

/-- Where the number of bytes wraps around, none are drawn. -/
theorem draw_beyond (hbits : bits < 2 ^ 32) (h : 2 ^ 32 ≤ bits + 7) (channel : Channel)
    (t : Trng) : (t.draw bits channel).1 = 0 := by
  have hcount : byteCount bits = 0 := by
    rw [byteCount_eq]
    omega
  have hnone : (t.bytes 0).1 = [] := List.eq_nil_of_length_eq_zero (t.length_bytes 0)
  rw [draw_eq, hcount, hnone]
  exact Nat.zero_mod _

/-- Under bypass to zeros every random number is zero. -/
theorem draw_zeros (h : t.bypass = some false) (bits : Nat) (channel : Channel) :
    (t.draw bits channel).1 = 0 := by
  have hzeros := Bytes.lowNat_replicate (byteCount bits) 0
  have hvalue : (t.bytes (byteCount bits)).1.toNat = 0 := by
    rw [bytes_bypassed h, if_neg Bool.false_ne_true, Bytes.toNat_eq, List.reverse_replicate]
    simpa using hzeros
  rw [draw_eq, hvalue, Nat.zero_mod]

theorem drawBelow_eq (p bits : Nat) (channel : Channel) (t : Trng) :
    (t.drawBelow p bits channel).1 =
      if p = 0 then (t.draw bits channel).1 else (t.draw bits channel).1 % p := rfl

theorem drawBelow_lt_prime (h : 0 < p) (bits : Nat) (channel : Channel) (t : Trng) :
    (t.drawBelow p bits channel).1 < p := by
  rw [drawBelow_eq, if_neg (Nat.ne_of_gt h)]
  exact Nat.mod_lt _ h

theorem drawBelow_lt (h : p < 2 ^ bits) (channel : Channel) (t : Trng) :
    (t.drawBelow p bits channel).1 < 2 ^ bits := by
  rw [drawBelow_eq]
  split
  · exact t.draw_lt bits channel
  · exact Nat.lt_trans (Nat.mod_lt _ (by omega)) h

end Trng

namespace State
variable {s : State}

/-- The scalar of a run: a small one is cut off, a blinded one has a multiple of the order
added to it, and any other one is the scalar that was loaded. -/
structure ScalarOf (s : State) (scalar : Nat) (run : LadderInputs) : Prop where
  small : ∀ bits, s.smallScalar = some bits →
    run.scalar = scalar &&& (2 ^ bits - 1) ∧ run.bits = bits ∧ run.randoms.alpha = none
  plain : s.smallScalar = none → s.blinding = 0 →
    run.scalar = scalar ∧ run.bits = max s.size (bitLength scalar) ∧ run.randoms.alpha = none
  blinded : s.smallScalar = none → 0 < s.blinding → ∃ alpha, run.randoms.alpha = some alpha ∧
    run.scalar = scalar + alpha * s.numbers.q ∧
    run.bits = max (s.size + s.blinding) (bitLength run.scalar)

theorem alpha_inputs (s : State) : s.inputs.randoms.alpha = s.effectiveScalar.1.alpha := rfl

theorem scalarOf_inputs (s : State) : s.ScalarOf s.scalar s.inputs where
  small bits hsmall := by
    have hscalar := effectiveScalar_small hsmall
    exact ⟨congrArg EffectiveScalar.value hscalar, congrArg EffectiveScalar.bits hscalar,
      congrArg EffectiveScalar.alpha hscalar⟩
  plain hsmall hblinding := by
    have hscalar := effectiveScalar_plain hsmall hblinding
    exact ⟨congrArg EffectiveScalar.value hscalar, congrArg EffectiveScalar.bits hscalar,
      congrArg EffectiveScalar.alpha hscalar⟩
  blinded hsmall hblinding := by
    have hscalar := effectiveScalar_blinded hsmall hblinding
    have hvalue := congrArg EffectiveScalar.value hscalar
    refine ⟨_, congrArg EffectiveScalar.alpha hscalar, hvalue, ?_⟩
    rw [show s.inputs.scalar = _ from hvalue]
    exact congrArg EffectiveScalar.bits hscalar

/-- The multiplier that blinds a scalar is below the power of two it is drawn for. -/
theorem alpha_lt {alpha : Nat} (h : s.inputs.randoms.alpha = some alpha) :
    alpha < 2 ^ s.blinding := by
  rw [alpha_inputs] at h
  cases hsmall : s.smallScalar with
  | some bits =>
    rw [effectiveScalar_small hsmall] at h
    cases h
  | none =>
    rcases Nat.eq_zero_or_pos s.blinding with hzero | hpos
    · rw [effectiveScalar_plain hsmall hzero] at h
      cases h
    · rw [effectiveScalar_blinded hsmall hpos] at h
      obtain rfl := Option.some.inj h
      exact Trng.draw_lt _ .axi s.trng

/-- The random values of a run fit into their slots. -/
theorem fits_inputs (hp : s.numbers.p < 2 ^ s.size) (hblinding : s.blinding ≤ s.size) :
    s.inputs.randoms.Fits s.size := by
  have hbelow {u : State} (hu : u.numbers.p = s.numbers.p ∧ u.size = s.size) (channel : Channel) :
      (u.drawBelowP channel).1 < 2 ^ s.size := by
    rw [← hu.2]
    exact Trng.drawBelow_lt (by rw [hu.1, hu.2]; exact hp) channel u.trng
  have hsettled : s.effectiveScalar.2.numbers.p = s.numbers.p ∧
      s.effectiveScalar.2.size = s.size := by
    rw [effectiveScalar_snd]
    exact ⟨rfl, rfl⟩
  constructor
  · intro alpha halpha
    exact Nat.lt_of_lt_of_le (alpha_lt halpha) (Nat.pow_le_pow_right (by decide) hblinding)
  · exact hbelow hsettled .efp
  · exact hbelow (u := (s.effectiveScalar.2.drawBelowP .efp).2) hsettled .efp
  · exact hbelow (u := ((s.effectiveScalar.2.drawBelowP .efp).2.drawBelowP .efp).2) hsettled .efp

end State

end Device

end CurveEngine
