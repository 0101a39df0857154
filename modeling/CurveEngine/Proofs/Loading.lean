import CurveEngine.Proofs.Receiving
import CurveEngine.Driver.Multiply

/-! What is loaded before a multiplication, and what is collected after it.

Loading draws a token and puts the scalar and the point into their registers; the
infinity flags are restored, so that `loaded` differs from the state before by these
alone. Collecting reads R1 and takes the token off, which between matching widths
uncovers what the engine masked with it (`collected_of_masked`). -/
namespace CurveEngine.Driver
open Register Procedure Device Operation

variable {d : Driver} {s : State}

/-- A state with the operands of a multiplication loaded, and its token drawn. -/
def loaded (d : Driver) (s : State) (point : Coordinates) (k : Bytes) : State :=
  { s.drawToken with
    scalar := d.gathered s k
    numbers := (s.numbers.set .xR1 (d.gathered s point.x)).set .yR1 (d.gathered s point.y)
    transfer := some (.write (.number .yR1) (d.words s)) }

/-- The operands take no more words than the prime size does. -/
structure OperandsFit (d : Driver) (s : State) (point : Coordinates) (k : Bytes) : Prop where
  scalar : d.Fits s k.length
  x : d.Fits s point.x.length
  y : d.Fits s point.y.length

theorem does_restoreFlag (point : PointRegister) (flag : Bool) :
    Does (Ready d) (d.writeSettled (nullSink point) (flagWord flag)) s ()
      (match point with
        | .r0 => { s with r0Null := flag }
        | .r1 => { s with r1Null := flag }) := by
  cases point with
  | r0 =>
    refine does_writeSettled _ _ (fun u hu _ => ?_) rfl
    cases flag with
    | true => exact hu.apply (show State.Timeless fun s => { s with r0Null := true } from fun _ => rfl)
    | false =>
      exact hu.apply (show State.Timeless fun s => { s with r0Null := false } from fun _ => rfl)
  | r1 =>
    refine does_writeSettled _ _ (fun u hu _ => ?_) rfl
    cases flag with
    | true => exact hu.apply (show State.Timeless fun s => { s with r1Null := true } from fun _ => rfl)
    | false =>
      exact hu.apply (show State.Timeless fun s => { s with r1Null := false } from fun _ => rfl)

theorem does_restoreFlags (flags : PointFlags) :
    Does (Ready d) (d.restoreFlags flags) s () { s with r0Null := flags.r0, r1Null := flags.r1 } :=
  (does_restoreFlag .r0 flags.r0).bind (does_restoreFlag .r1 flags.r1)

/-- Loading the operands does nothing else. -/
theorem does_loadMultiplication {point : Coordinates} {k : Bytes}
    (h : d.OperandsFit s point k) :
    Does (Ready d) (d.loadMultiplication point k) s (d.tokenBytes s) (d.loaded s point k) := by
  have hscalar := does_writeNumber (d := d)
    (s := s.drawToken.sending (s.draw s.size .axi).1 (d.words s)) .scalar h.scalar
  have hx := does_writeNumber (d := d)
    (s := { s.drawToken with
      scalar := d.gathered s k
      transfer := some (.write .scalar (d.words s)) }) (.number .xR1) h.x
  have hy := does_writeNumber (d := d)
    (s := State.receiving (.number .xR1) (d.gathered s point.x) (d.words s)
      (State.unflag (.number .xR1) { s.drawToken with scalar := d.gathered s k })) (.number .yR1) h.y
  -- a coordinate that is written unflags its point, until the flags are restored
  have hflags := does_restoreFlags (d := d)
    (s := State.unflag (.number .yR1) (State.unflag (.number .xR1) (d.loaded s point k)))
    ⟨s.r0Null, s.r1Null⟩
  exact does_saveFlags.bind (does_fetchToken.bind (hscalar.bind
    ((hx.bind hy).bind (hflags.bind (Does.pure _)))))

/-- Between matching widths, the scalar and the point are loaded as they are. -/
theorem scalar_loaded {point : Coordinates} {k : Bytes} (h : d.Matches s)
    (hfits : d.OperandsFit s point k) : (d.loaded s point k).scalar = k.toNat :=
  gathered_of_matches h hfits.scalar

theorem pointR1_loaded {point : Coordinates} {k : Bytes} (h : d.Matches s)
    (hfits : d.OperandsFit s point k) :
    (d.loaded s point k).pointR1 =
      if s.r1Null then .infinity else .affine point.x.toNat point.y.toNat := by
  rw [← gathered_of_matches h hfits.x, ← gathered_of_matches h hfits.y]
  rfl

theorem fits_of_size {t : State} (h : t.size = s.size) {len : Nat} :
    d.Fits t len ↔ d.Fits s len := by
  simp only [Fits, words, State.numberBytes, h]

theorem size_writeNumber {bytes : Bytes} {destination : Destination} {t : State}
    (h : Returns bus (d.writeNumber bytes destination) s () t) : t.size = s.size := by
  have hwritten := ((does_writeNumber destination (writeNumber_fits h)).only s () t (.refl s) h).2
  cases destination with
  | number n => exact hwritten.field State.size fun _ => rfl
  | scalar => exact hwritten.field State.size fun _ => rfl

/-- Operands that have been loaded did fit. -/
theorem loadMultiplication_fits {point : Coordinates} {k token : Bytes} {t : State}
    (h : Returns bus (d.loadMultiplication point k) s token t) : d.OperandsFit s point k := by
  simp only [loadMultiplication, writePoint, returns_bind] at h
  obtain ⟨flags, s₁, hsave, token', s₂, hfetch, _, s₃, hk, _, s₄, ⟨_, s₅, hx, hy⟩, -⟩ := h
  have h₁ : s₁.size = s.size :=
    (does_saveFlags.only s flags s₁ (.refl s) hsave).2.field State.size fun _ => rfl
  have h₂ : s₂.size = s₁.size :=
    (does_fetchToken.only s₁ token' s₂ (.refl s₁) hfetch).2.field State.size fun _ => rfl
  have h₃ := size_writeNumber hk
  have h₅ := size_writeNumber hx
  constructor
  · exact (fits_of_size (h₂.trans h₁)).mp (writeNumber_fits hk)
  · exact (fits_of_size (h₃.trans (h₂.trans h₁))).mp (writeNumber_fits hx)
  · exact (fits_of_size (h₅.trans (h₃.trans (h₂.trans h₁)))).mp (writeNumber_fits hy)

/-! ### The result -/

/-- R1 with a token taken off. -/
def collected (d : Driver) (s : State) (token : Bytes) : PointAnswer :=
  ⟨Bytes.xor (d.coordinateBytes s .xR1) token, Bytes.xor (d.coordinateBytes s .yR1) token,
    s.r1Null⟩

theorem length_coordinateBytes (n : Number) :
    (d.coordinateBytes s n).length = s.numberBytes := by
  rw [coordinateBytes, length_delivered, List.length_replicate]

theorem length_tokenBytes : (d.tokenBytes s).length = s.numberBytes := by
  rw [tokenBytes, length_delivered, List.length_replicate]

theorem does_collectResult {token : Bytes} (h : token.length = s.numberBytes) :
    Does (Ready d) (d.collectResult token) s (d.collected s token) (d.afterPoint s .r1) := by
  have hunmask (n : Number) :
      unmask token (d.coordinateBytes s n) = .ok (Bytes.xor (d.coordinateBytes s n) token) :=
    if_pos ((length_coordinateBytes n).trans h.symm)
  exact (does_readPoint .r1).bind ((Does.ofExcept (hunmask .xR1)).bind
    ((Does.ofExcept (hunmask .yR1)).bind (Does.pure _)))

theorem length_collected {token : Bytes} (h : token.length = s.numberBytes) :
    (d.collected s token).x.length = s.numberBytes ∧
      (d.collected s token).y.length = s.numberBytes := by
  simp only [collected, Bytes.length_xor, length_coordinateBytes, h, Nat.min_self]
  exact ⟨trivial, trivial⟩

/-- Between matching widths, taking the token off a coordinate uncovers what it masks. -/
theorem toNat_unmasked {t : State} (h : d.Matches s) (hparams : t.params = s.params)
    (hsize : t.size = s.size) (n : Number) {value : Nat} (hvalue : value < 256 ^ s.numberBytes)
    (hmask : t.numbers.get n = value ^^^ (s.draw s.size .axi).1) :
    (Bytes.xor (d.coordinateBytes t n) (d.tokenBytes s)).toNat = value := by
  have hbytes : t.numberBytes = s.numberBytes := by rw [State.numberBytes, hsize]; rfl
  have hmatch : d.Matches t := by rwa [Matches, hparams]
  have hlen : (d.coordinateBytes t n).length = (d.tokenBytes s).length := by
    rw [length_coordinateBytes, length_tokenBytes, hbytes]
  rw [Bytes.toNat_xor hlen, coordinateBytes, tokenBytes, toNat_delivered_blank hmatch,
    toNat_delivered_blank h, hbytes, hmask, Bytes.pow_eight_mul, Nat.xor_mod_two_pow, Nat.xor_assoc,
    Nat.xor_self, Nat.xor_zero, ← Bytes.pow_eight_mul]
  exact Nat.mod_eq_of_lt hvalue

/-- Between matching widths, a point that the token masks is collected. -/
theorem collected_of_masked {t : State} (h : d.Matches s) (hparams : t.params = s.params)
    (hsize : t.size = s.size) {x y : Nat} (hx : x < 256 ^ s.numberBytes)
    (hy : y < 256 ^ s.numberBytes) (hxR1 : t.numbers.get .xR1 = x ^^^ (s.draw s.size .axi).1)
    (hyR1 : t.numbers.get .yR1 = y ^^^ (s.draw s.size .axi).1) :
    ((d.collected t (d.tokenBytes s)).x.length = s.numberBytes ∧
        (d.collected t (d.tokenBytes s)).x.toNat = x) ∧
      (d.collected t (d.tokenBytes s)).y.length = s.numberBytes ∧
        (d.collected t (d.tokenBytes s)).y.toNat = y := by
  have hbytes : t.numberBytes = s.numberBytes := by rw [State.numberBytes, hsize]; rfl
  obtain ⟨hlx, hly⟩ := length_collected (d := d) (s := t)
    ((length_tokenBytes (d := d) (s := s)).trans hbytes.symm)
  exact ⟨⟨hlx.trans hbytes, toNat_unmasked h hparams hsize .xR1 hx hxR1⟩,
    hly.trans hbytes, toNat_unmasked h hparams hsize .yR1 hy hyR1⟩

end CurveEngine.Driver
