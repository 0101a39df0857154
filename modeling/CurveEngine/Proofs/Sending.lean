import CurveEngine.Proofs.Settling
import CurveEngine.Proofs.Words
import CurveEngine.Driver.Number

/-! Sending numbers to an engine.

A transfer clears its destination and the infinity flag of a point that is written to,
and then puts the words together that arrive. `does_writeNumber` says what is there in
the end, for words of any width on either side; where the widths match it is the number
that the byte string writes (`gathered_of_matches`). -/
namespace CurveEngine
open Register Procedure Device Operation

namespace Device

namespace State

/-- The bytes of a number of the prime size, which a driver reads off sixteen bits. -/
def numberBytes (s : State) : Nat := (s.size % 2 ^ 16 + 7) / 8

theorem numberBytes_of_le {s : State} (h : s.size ≤ 0xffff) : s.numberBytes = (s.size + 7) / 8 := by
  rw [numberBytes, Nat.mod_eq_of_lt (by omega)]

/-- A state with a destination's content replaced. -/
def put (destination : Destination) (value : Nat) (s : State) : State :=
  match destination with
  | .number n => { s with numbers := s.numbers.set n value }
  | .scalar => { s with scalar := value }

/-- A transfer under way: what has been put together, of how many words. -/
def receiving (destination : Destination) (value index : Nat) (s : State) : State :=
  { s.put destination value with transfer := some (.write destination index) }

/-- A point that is written to is no longer flagged as infinite. -/
def unflag (destination : Destination) (s : State) : State :=
  match destination with
  | .number n =>
    { s with
      r0Null := s.r0Null && !(n == .xR0 || n == .yR0)
      r1Null := s.r1Null && !(n == .xR1 || n == .yR1) }
  | .scalar => s

theorem writeData_receiving (s : State) (destination : Destination) (value index : Nat)
    (word : UInt64) :
    ((s.receiving destination value index).writeData word).Alike
      (s.receiving destination (value ||| (s.wordOf word).toNat <<< (index * s.wordBits))
        (index + 1)) := by
  cases destination with
  | number n => cases n <;> rfl
  | scalar => rfl

theorem openWrite_number (s : State) (n : Number) :
    s.openWrite n.address false = (s.unflag (.number n)).receiving (.number n) 0 0 := by
  simp only [openWrite, Bool.false_eq_true, if_false, Number.ofAddress?_address]
  rfl

theorem openWrite_scalar {s : State} (h : s.warmup = 0) (address : UInt32) :
    s.openWrite address true = s.receiving .scalar 0 0 := by
  have hready : ¬ s.warmup > 0 := by omega
  rw [openWrite, if_pos rfl, if_neg hready]
  rfl

end State

end Device

namespace Driver
variable {d : Driver} {s : State}

/-! ### The prime size -/

theorem ends_size (n : Nat) (t : State) :
    Ends bus d.size s n t ↔ n = s.size % 2 ^ 16 ∧ t = s := by
  have hsource : s.readSource .primeSize = (UInt64.ofNat s.size, s) := rfl
  have hword : ((UInt64.ofNat s.size).toUInt32 &&& 0xffff).toNat = s.size % 2 ^ 16 := by
    rw [UInt32.toNat_and, UInt64.toNat_toUInt32, UInt64.toNat_ofNat']
    rw [show (0xffff : UInt32).toNat = 2 ^ 16 - 1 from rfl, Nat.and_two_pow_sub_one_eq_mod]
    omega
  simp only [size, ends_bind, ends_read, ends_pure, hsource]
  constructor
  · rintro ⟨_, _, ⟨rfl, rfl⟩, rfl, rfl⟩
    exact ⟨hword, rfl⟩
  · rintro ⟨rfl, rfl⟩
    exact ⟨_, _, ⟨rfl, rfl⟩, hword.symm, rfl⟩

theorem ends_numberBytes (n : Nat) (t : State) :
    Ends bus d.numberBytes s n t ↔ n = s.numberBytes ∧ t = s := by
  simp only [numberBytes, ends_bind, ends_size, ends_pure]
  constructor
  · rintro ⟨_, _, ⟨rfl, rfl⟩, rfl, rfl⟩
    exact ⟨rfl, rfl⟩
  · rintro ⟨rfl, rfl⟩
    exact ⟨_, _, ⟨rfl, rfl⟩, rfl, rfl⟩

/-- The words that a transfer of a number of the prime size takes. -/
def words (d : Driver) (s : State) : Nat := Bytes.wordsFor s.numberBytes d.wordBytes

/-- A number fits if it takes no more words than the prime size does. -/
def Fits (d : Driver) (s : State) (len : Nat) : Prop := Bytes.wordsFor len d.wordBytes ≤ d.words s

theorem does_transferWords {len : Nat} (h : d.Fits s len) :
    Does (Ready d) (d.transferWords len) s (d.words s) s := by
  have hbytes : Does (Ready d) (liftM d.numberBytes) s s.numberBytes s :=
    Does.lift fun t ht =>
      ⟨t, (ends_numberBytes _ _).mpr ⟨(ht.field State.numberBytes fun _ => rfl).symm, rfl⟩, ht, id⟩
  refine hbytes.bind ?_
  have hfits : ¬ Bytes.wordsFor len d.wordBytes > Bytes.wordsFor s.numberBytes d.wordBytes :=
    Nat.not_lt.mpr h
  simp only [if_neg hfits]
  exact Does.pure _

/-- The words of a number that fits are counted on any engine. -/
theorem transferWords_returns {len : Nat} (h : d.Fits s len) :
    Returns bus (d.transferWords len) s (d.words s) s := by
  simp only [transferWords, returns_bind, returns_lift, ends_numberBytes]
  refine ⟨_, _, ⟨rfl, rfl⟩, ?_⟩
  have hsmall : ¬ Bytes.wordsFor len d.wordBytes > Bytes.wordsFor s.numberBytes d.wordBytes :=
    Nat.not_lt.mpr h
  rw [if_neg hsmall]
  exact (returns_pure _ _ _ _).mpr ⟨rfl, rfl⟩

theorem transferWords_fits {len words : Nat} {t : State}
    (h : Returns bus (d.transferWords len) s words t) : d.Fits s len ∧ t = s := by
  simp only [transferWords, returns_bind, returns_lift, ends_numberBytes] at h
  obtain ⟨_, _, ⟨rfl, rfl⟩, hrest⟩ := h
  split at hrest
  · exact absurd hrest (not_returns_throw _ _ _ _)
  · rename_i hfits
    exact ⟨Nat.not_lt.mp hfits, ((returns_pure _ _ _ _).mp hrest).2⟩

/-! ### Words -/

/-- A word written to an engine that is ready for it. -/
theorem does_writeWord (r : Sink) (value : UInt64) {s' : State}
    (heffect : ∀ u : State, u.Alike s → (u.writeSink r (d.cut value)).Alike s')
    (same : (s'.errors, s'.multiplying, s'.params) = (s.errors, s.multiplying, s.params)) :
    Does (Ready d) (liftM (d.writeWord r value)) s () s' :=
  Does.lift fun t ht => by
    refine ⟨_, (d.ends_writeWord r value ()).mpr rfl, heffect t ht, fun hready => ?_⟩
    have hsame (v w : State) (h : v.Alike w) :
        (v.errors, v.multiplying, v.params) = (w.errors, w.multiplying, w.params) :=
      h.field (fun v => (v.errors, v.multiplying, v.params)) fun _ => rfl
    refine hready.frame (hready.coherent.writeSink r _) ?_
    rw [hsame _ _ (heffect t ht), same, hsame _ _ ht]

/-- What arrives of a word that a driver sends. -/
def arriving (d : Driver) (s : State) (word : UInt64) : UInt64 := s.wordOf (d.cut word)

theorem does_sendWord (destination : Destination) (value index : Nat) (word : UInt64) :
    Does (Ready d) (d.sendWord word) (s.receiving destination value index) ()
      (s.receiving destination
        (value ||| (d.arriving s word).toNat <<< (index * s.wordBits)) (index + 1)) := by
  refine (does_waitIdle _).bind (Does.bind (does_writeWord .writeData word ?_ ?_) (does_settle _))
  · intro u hu
    have hdata := hu.apply (State.timeless_writeData (d.cut word))
    exact hdata.trans (State.writeData_receiving s destination value index (d.cut word))
  · cases destination <;> rfl

theorem does_sendWords (destination : Destination) (words : List UInt64) (value index : Nat) :
    Does (Ready d) (words.forM d.sendWord) (s.receiving destination value index) ()
      (s.receiving destination
        (value ||| Bytes.gather s.wordBits index (words.map (d.arriving s)))
        (index + words.length)) := by
  induction words generalizing value index with
  | nil =>
    simp only [List.map_nil, Bytes.gather, Nat.or_zero, List.length_nil, Nat.add_zero]
    exact Does.pure ()
  | cons word rest ih =>
    have hrest := ih (value ||| (d.arriving s word).toNat <<< (index * s.wordBits)) (index + 1)
    rw [Nat.or_assoc, Nat.add_right_comm, Nat.add_assoc] at hrest
    exact (does_sendWord destination value index word).bind hrest

/-! ### Transfers -/

theorem address_lt (n : Number) : n.address.toNat < 2 ^ 12 := by
  cases n <;> decide

theorem control_writeNumber {u : State} (hresting : u.multiplying = false) (n : Number) :
    u.control (Command.writeNumber n.address).word =
      (u.occupy.unflag (.number n)).receiving (.number n) 0 0 := by
  have hwrite : Control.writeNumber.test (Command.writeNumber n.address).word = true := by
    simp (disch := decide) only [Command.word, BitField.test_set_of_apart, BitField.test_put]
  have hscalar : Control.writeScalar.test (Command.writeNumber n.address).word = false := by
    simp (disch := decide) only [Command.word, BitField.test_set_of_apart,
      BitField.test_put_of_apart, BitField.test_zero]
  have haddress : Control.address.get (Command.writeNumber n.address).word = n.address :=
    BitField.get_set_of_lt (by decide) (by decide) (address_lt n) _
  simp only [State.control, ControlField.agrees, hresting, Bool.false_eq_true, if_false, hwrite,
    if_true, hscalar, haddress, State.openWrite_number]

theorem control_writeScalar {u : State} (hresting : u.multiplying = false) (hready : u.warmup = 0) :
    u.control (Command.writeScalar Destination.scalar.address).word =
      u.occupy.receiving .scalar 0 0 := by
  have hwrite : Control.writeNumber.test
      (Command.writeScalar Destination.scalar.address).word = true := by decide
  have hscalar : Control.writeScalar.test
      (Command.writeScalar Destination.scalar.address).word = true := by decide
  simp only [State.control, ControlField.agrees, hresting, Bool.false_eq_true, if_false, hwrite,
    if_true, hscalar]
  exact State.openWrite_scalar (s := u.occupy) hready _

theorem writeSink_writeNumber {u : State} (hu : u.Alike s) (hresting : u.multiplying = false)
    (n : Number) :
    (u.writeSink .control (Command.writeNumber n.address).word.toUInt64).Alike
      ((s.unflag (.number n)).receiving (.number n) 0 0) := by
  show (u.control (UInt64.toUInt32 _)).Alike _
  rw [UInt32.toUInt32_toUInt64, control_writeNumber hresting]
  exact hu.apply (show State.Timeless fun s =>
    (s.occupy.unflag (.number n)).receiving (.number n) 0 0 from fun _ => rfl)

theorem writeSink_writeScalar {u : State} (hu : u.Alike s) (hresting : u.multiplying = false)
    (hready : u.warmup = 0) :
    (u.writeSink .control (Command.writeScalar Destination.scalar.address).word.toUInt64).Alike
      (s.receiving .scalar 0 0) := by
  show (u.control (UInt64.toUInt32 _)).Alike _
  rw [UInt32.toUInt32_toUInt64, control_writeScalar hresting hready]
  exact hu.apply (show State.Timeless fun s => s.occupy.receiving .scalar 0 0 from fun _ => rfl)

/-- The scalar waits for randomness, so it is never refused. -/
theorem does_openWrite_scalar :
    Does (Ready d) (d.openWrite .scalar) s () (s.receiving .scalar 0 0) where
  only t _ v ht h := by
    obtain ⟨_, u, hwait, hwrite⟩ := (returns_bind _ _ _ _ _).mp h
    obtain ⟨hu, hready⟩ := waitEnoughRandom_only hwait
    obtain ⟨w, -, hw, hwarmup, hresting, -, hv, -⟩ := writeSettled_only hwrite
    exact ⟨rfl, hv.trans (writeSink_writeScalar (hw.trans (hu.trans ht)) hresting (by omega))⟩
  returns t ht hready := by
    obtain ⟨u, hwait, hu⟩ := waitEnoughRandom_returns hready
    obtain ⟨halike, hwarm⟩ := waitEnoughRandom_only hwait
    obtain ⟨v, hwrite, hv⟩ := writeSettled_returns .control
      (Command.writeScalar Destination.scalar.address).word hu fun w hw hwarmup hresting => by
        have hopen := writeSink_writeScalar hw hresting (by omega)
        exact hopen.field (fun w => (w.errors, w.multiplying, w.params)) fun _ => rfl
    exact ⟨v, (returns_bind _ _ _ _ _).mpr ⟨(), u, hwait, hwrite⟩, hv⟩

theorem does_openWrite (destination : Destination) :
    Does (Ready d) (d.openWrite destination) s ()
      ((s.unflag destination).receiving destination 0 0) := by
  cases destination with
  | number n =>
    exact does_writeSettled _ _ (fun u hu hresting => writeSink_writeNumber hu hresting n) rfl
  | scalar => exact does_openWrite_scalar

/-- What an engine puts together of a byte string, word by word. -/
def gathered (d : Driver) (s : State) (bytes : Bytes) : Nat :=
  Bytes.gather s.wordBits 0 ((Bytes.toWords d.wordBytes (d.words s) bytes).map (d.arriving s))

/-- A number that fits is put together at its destination. -/
theorem does_writeNumber {bytes : Bytes} (destination : Destination)
    (h : d.Fits s bytes.length) :
    Does (Ready d) (d.writeNumber bytes destination) s ()
      ((s.unflag destination).receiving destination (d.gathered s bytes) (d.words s)) := by
  have hsend := does_sendWords (d := d) (s := s.unflag destination) destination
    (Bytes.toWords d.wordBytes (d.words s) bytes) 0 0
  rw [Nat.zero_or, Bytes.length_toWords, Nat.zero_add] at hsend
  refine (does_transferWords h).bind ((does_openWrite destination).bind ?_)
  cases destination with
  | number n => exact hsend
  | scalar => exact hsend

theorem writeNumber_fits {bytes : Bytes} {destination : Destination} {t : State}
    (h : Returns bus (d.writeNumber bytes destination) s () t) : d.Fits s bytes.length := by
  obtain ⟨words, u, hwords, -⟩ := (returns_bind _ _ _ _ _).mp h
  exact (transferWords_fits hwords).1

/-! ### Matching widths -/

/-- The words of the driver are those of the engine. -/
def Matches (d : Driver) (s : State) : Prop :=
  d.config.width = if s.params.wideWords then .wide else .narrow

theorem wordBits_of_matches (h : d.Matches s) : s.wordBits = 8 * d.wordBytes := by
  unfold Matches at h
  unfold State.wordBits wordBytes
  rw [h]
  cases s.params.wideWords <;> rfl

/-- A word arrives as it was sent, as far as it is wide. -/
theorem arriving_of_matches (h : d.Matches s) (word : UInt64) :
    (d.arriving s word).toNat = word.toNat % 2 ^ s.wordBits := by
  unfold Matches at h
  unfold arriving cut State.wordOf State.wordBits
  rw [h]
  cases s.params.wideWords with
  | true => exact (Nat.mod_eq_of_lt word.toNat_lt).symm
  | false =>
    show (lowHalf (lowHalf word)).toNat = _
    rw [lowHalf_lowHalf, toNat_lowHalf]
    rfl

theorem wordBytes_pos (d : Driver) : 0 < d.wordBytes := by
  unfold wordBytes
  cases d.config.width <;> decide

theorem wordBytes_le (d : Driver) : d.wordBytes ≤ 8 := by
  unfold wordBytes
  cases d.config.width <;> decide

/-- A number that is not longer than the prime fits. -/
theorem fits_of_le {len : Nat} (h : len ≤ s.numberBytes) : d.Fits s len :=
  Bytes.wordsFor_mono d.wordBytes h

/-- Between matching widths, what is put together is the number that was sent. -/
theorem gathered_of_matches (h : d.Matches s) {bytes : Bytes} (hfits : d.Fits s bytes.length) :
    d.gathered s bytes = bytes.toNat := by
  have hlen : bytes.length ≤ d.wordBytes * d.words s :=
    Nat.le_trans (Bytes.le_wordsFor _ d.wordBytes_pos) (Nat.mul_le_mul_left _ hfits)
  have hkeep : ∀ word ∈ Bytes.toWords d.wordBytes (d.words s) bytes,
      (d.arriving s word).toNat = word.toNat := by
    intro word hword
    rw [arriving_of_matches h, wordBits_of_matches h]
    exact Nat.mod_eq_of_lt (Bytes.chunks_lt d.wordBytes_le _ _ word hword)
  rw [gathered, Bytes.gather_map hkeep, wordBits_of_matches h,
    Bytes.gather_toWords d.wordBytes_le hlen]

end Driver

end CurveEngine
