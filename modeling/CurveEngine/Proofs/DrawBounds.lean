import CurveEngine.Proofs.Draws
import CurveEngine.Proofs.Loading
import CurveEngine.Proofs.Masking

/-! The bounds of what is drawn, and where they are relied on.

Whatever the generator yields and whichever bypass is set, a number that is drawn has the bits
it was drawn for, and as long as its bytes can be counted in 32 bits, bypass decides all of
them. A token keeps the bound of the prime size it was generated at for as long as it lives
(`History.token_lt`). It is therefore no longer than the bytes that a driver reads it into, and
what a driver of the engine's width takes off a result is what the engine put on it
(`fetchToken_drawn`). `draws_bounded` states this for every use that an engine makes of its
generator, and `draws_fall_short` shows where it ends: at counts that wrap around, and at a
driver of another width. -/
namespace CurveEngine
open Register Procedure Device Operation

namespace Device.History

/-- A token that an engine has was generated at a position since when it is held, and fits the
prime size that the engine had there. -/
theorem token_lt (h : History) {n token : Nat} (htoken : (h.engine n).token = some token) :
    ∃ i, h.Holds i n ∧ token = h.generated i ∧ token < 2 ^ (h.engine i).size := by
  rcases h.held_or_bare n with ⟨i, hholds, hgenerated⟩ | ⟨-, hnone⟩
  · obtain rfl := Option.some.inj (htoken.symm.trans hgenerated)
    exact ⟨i, hholds, rfl, Trng.draw_lt _ .axi _⟩
  · rw [hnone] at htoken
    cases htoken

end Device.History

namespace Driver
variable {d : Driver} {s : State}

/-- The token takes no more bytes than a number of the prime size, so that none of its bits is
lost on the way to a driver of the same width. -/
theorem toNat_tokenBytes (hmatch : d.Matches s) (hsize : s.size ≤ 0xffff) :
    (d.tokenBytes s).toNat = (s.draw s.size .axi).1 := by
  have hdrawn : (s.draw s.size .axi).1 < 256 ^ s.numberBytes :=
    calc (s.draw s.size .axi).1
      _ < 2 ^ s.size := Trng.draw_lt s.size .axi s.trng
      _ ≤ 2 ^ (8 * s.numberBytes) := by
        rw [State.numberBytes_of_le hsize]
        exact Nat.pow_le_pow_right (by decide) (by omega)
      _ = 256 ^ s.numberBytes := (Bytes.pow_eight_mul _).symm
  rw [tokenBytes, toNat_delivered_blank hmatch, Nat.mod_eq_of_lt hdrawn]

/-- A driver that gets a token gets the one that the engine has drawn and keeps. -/
theorem fetchToken_drawn {bytes : Bytes} {t : State} (h : Returns bus d.fetchToken s bytes t)
    (hmatch : d.Matches s) (hsize : s.size ≤ 0xffff) :
    t.token = some (s.draw s.size .axi).1 ∧ bytes.length = (s.size + 7) / 8 ∧
      bytes.toNat = (s.draw s.size .axi).1 := by
  obtain ⟨rfl, halike⟩ := does_fetchToken.only s bytes t (.refl s) h
  exact ⟨halike.field State.token fun _ => rfl,
    length_tokenBytes.trans (State.numberBytes_of_le hsize), toNat_tokenBytes hmatch hsize⟩

/-- **What is drawn is bounded.** A random number is below the power of two of its bits, for any
number of them; bypass to zeros makes it zero, and bypass to ones makes it the greatest such
number. Only where the count of its bytes wraps around a word of 32 bits is it zero instead,
whatever the bypass. So every token is below the power of two of the prime size it is generated
at, and a driver of the engine's width reads all of it from a prime size of sixteen bits; an
engine with no error and no multiplication in progress lets it. The multiplier of a blinded
scalar is below the power of two of the blinding size, and the random values of a run are below
the prime. -/
theorem draws_bounded (d : Driver) (s : State) :
    (∀ bits channel, (s.draw bits channel).1 < 2 ^ bits ∧
      (s.trng.bypass = some true → bits + 7 < 2 ^ 32 → (s.draw bits channel).1 = 2 ^ bits - 1) ∧
      (s.trng.bypass = some false → (s.draw bits channel).1 = 0) ∧
      (bits < 2 ^ 32 → 2 ^ 32 ≤ bits + 7 → (s.draw bits channel).1 = 0)) ∧
    (∃ token, s.drawToken.token = some token ∧ token < 2 ^ s.size ∧
      (d.Matches s → s.size ≤ 0xffff →
        (∀ bytes t, Returns bus d.fetchToken s bytes t →
          t.token = some token ∧ bytes.length = (s.size + 7) / 8 ∧ bytes.toNat = token) ∧
        (Reachable s → s.multiplying = false → s.errors = 0 → max s.params.latency 3 < d.checks →
          ∃ bytes t, Returns bus d.fetchToken s bytes t))) ∧
    (∀ (h : History) n token, (h.engine n).token = some token →
      ∃ i, h.Holds i n ∧ token = h.generated i ∧ token < 2 ^ (h.engine i).size) ∧
    (∀ alpha, s.inputs.randoms.alpha = some alpha → alpha < 2 ^ s.blinding) ∧
    (∀ channel, 0 < s.numbers.p → (s.drawBelowP channel).1 < s.numbers.p) := by
  refine ⟨fun bits channel => ⟨?_, ?_, ?_, ?_⟩, ⟨_, rfl, ?_, fun hmatch hsize => ⟨?_, ?_⟩⟩,
    fun h n token => h.token_lt, fun alpha => State.alpha_lt, fun channel hpos => ?_⟩
  · exact s.trng.draw_lt bits channel
  · exact fun hones hbits => Trng.draw_ones hones hbits channel
  · exact fun hzeros => Trng.draw_zeros hzeros bits channel
  · exact fun hword hbeyond => Trng.draw_beyond hword hbeyond channel s.trng
  · exact s.trng.draw_lt s.size .axi
  · exact fun bytes t hreturns => fetchToken_drawn hreturns hmatch hsize
  · intro hs hresting hclear hpatient
    obtain ⟨t, hreturns, -⟩ :=
      does_fetchToken.returns s (.refl s) ⟨⟨hs.coherent, hresting, hpatient⟩, hclear⟩
    exact ⟨_, t, hreturns⟩
  · exact Trng.drawBelow_lt_prime hpos s.size channel s.trng

/-- A small engine under bypass to ones, with a prime of twelve bits and blinding by five. It
has generated one token. -/
def ones12 : History where
  params := { maxSize := 12, size := 12, opcodes := 0, rawSize := 0 }
  entropy _ := 0
  requests := [
    .write .word Sink.trngControl.offset
      (TrngControl.bypassValue.put true (TrngControl.bypass.put true 0)).toUInt64,
    .write .word Sink.control.offset (Command.writeNumber Number.p.address).word.toUInt64,
    .write .word Sink.writeData.offset 3001,
    .write .word Sink.blinding.offset (Blinding.bits.set 5 (Blinding.enable.put true 0)).toUInt64,
    .write .word Sink.token.offset 1]

/-- All bits of what it draws are set, also those of a leading byte of four bits. -/
theorem draws_bounded_ones12 :
    let s := ones12.engine 4
    (s.draw 12 .axi).1 = 0xfff ∧
      (∃ bytes t, Returns bus (⟨{}, 10⟩ : Driver).fetchToken s bytes t ∧ bytes.length = 2 ∧
        bytes.toNat = 0xfff) ∧
      (∃ i, ones12.Holds i 5 ∧ 0xfff < 2 ^ (ones12.engine i).size) ∧
      (∃ alpha, s.inputs.randoms.alpha = some alpha ∧ alpha < 2 ^ 5) ∧
      (s.drawBelowP .efp).1 < 3001 := by
  intro s
  obtain ⟨hdraw, ⟨token, htoken, -, hfetch⟩, hheld, halpha, hbelow⟩ := draws_bounded ⟨{}, 10⟩ s
  have hones : s.trng.bypass = some true := by decide +kernel
  have hall : (s.draw 12 .axi).1 = 0xfff := (hdraw 12 .axi).2.1 hones (by decide)
  obtain ⟨honly, hreturns⟩ := hfetch rfl (by decide)
  have hreachable : Reachable s := (Reachable.powerUp _ _).serveAll _
  obtain ⟨bytes, t, hreturned⟩ := hreturns hreachable rfl (by decide +kernel) (by decide)
  obtain ⟨-, hlength, hvalue⟩ := honly bytes t hreturned
  rw [show s.size = 12 from rfl] at hlength
  obtain ⟨i, hholds, -, hlt⟩ := hheld ones12 5 0xfff (by decide +kernel)
  refine ⟨hall, ⟨bytes, t, hreturned, hlength, hvalue.trans ?_⟩, ⟨i, hholds, hlt⟩, ?_, ?_⟩
  · exact (Option.some.inj htoken).symm.trans hall
  · exact ⟨31, by decide +kernel, halpha 31 (by decide +kernel)⟩
  · exact hbelow .efp (by decide +kernel)

/-- An engine under bypass to ones, with numbers of forty bits in words of 32 bits. -/
def ones40 : State :=
  (State.powerUp { maxSize := 40, size := 40, opcodes := 0, rawSize := 0 } fun _ => 0).serve
    (.write .word Sink.trngControl.offset
      (TrngControl.bypassValue.put true (TrngControl.bypass.put true 0)).toUInt64)

/-- **Not every bit of a random number is drawn, nor every bit of a token read.** A number of as
many bits as a word of 32 bits can count is drawn from no byte at all, so that it is zero even
under bypass to ones. A driver of wider words than the engine's gets the lower 32 bits of a token
of forty. -/
theorem draws_fall_short :
    Reachable ones40 ∧ ones40.trng.bypass = some true ∧
      (∃ bits, bits = 2 ^ 32 - 1 ∧ (ones40.draw bits .axi).1 ≠ 2 ^ bits - 1) ∧
      ∃ bytes t, Returns bus (⟨{ width := .wide }, 10⟩ : Driver).fetchToken ones40 bytes t ∧
        t.token = some 0xffffffffff ∧ bytes.toNat = 0xffffffff := by
  have hs : Reachable ones40 := (Reachable.powerUp _ _).write _ _ _
  have hready : Ready ⟨{ width := .wide }, 10⟩ ones40 := ⟨⟨hs.coherent, rfl, by decide⟩, rfl⟩
  obtain ⟨t, hreturns, -⟩ := (does_fetchToken (d := ⟨{ width := .wide }, 10⟩)).returns ones40
    (.refl _) hready
  have htoken := (does_fetchToken.only _ _ _ (.refl ones40) hreturns).2
  have hfalls (bits : Nat) (hword : bits < 2 ^ 32) (hbeyond : 2 ^ 32 ≤ bits + 7) :
      (ones40.draw bits .axi).1 ≠ 2 ^ bits - 1 := by
    have hzero : (ones40.draw bits .axi).1 = 0 := Trng.draw_beyond hword hbeyond .axi ones40.trng
    rw [hzero]
    exact (Nat.sub_ne_zero_of_lt (Nat.one_lt_two_pow (by omega))).symm
  refine ⟨hs, by decide +kernel, ⟨_, rfl, hfalls _ (by decide) (by decide)⟩, _, t, hreturns, ?_,
    by decide +kernel⟩
  exact (htoken.field State.token fun _ => rfl).trans (by decide +kernel)

end Driver

end CurveEngine
