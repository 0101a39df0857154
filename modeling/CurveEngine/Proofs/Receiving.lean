import CurveEngine.Proofs.Sending
import CurveEngine.Driver.Point

/-! Receiving numbers from an engine.

A transfer delivers the words of the number that a command addresses, for words of any
width on either side (`delivered`). Between matching widths the bytes received write the
number, cut down to as many bytes as were asked for (`toNat_delivered`). The token is
drawn and then received in this way; so is each coordinate of a point. -/
namespace CurveEngine
open Register Procedure Device Operation

namespace Device.State

/-- A transfer of a number from the device, of which some words have been delivered. -/
def sending (value index : Nat) (s : State) : State :=
  { s with transfer := some (.read value index) }

theorem openRead_number (s : State) (n : Number) :
    s.openRead n.address false = s.sending (s.numbers.get n) 0 := by
  simp only [openRead, Bool.false_eq_true, if_false, Number.ofAddress?_address]
  rfl

end Device.State

namespace Driver
variable {d : Driver} {s : State} {α : Type}

/-- What leaves an engine of a word, as a driver receives it. -/
def leaving (d : Driver) (s : State) (word : UInt64) : UInt64 := d.cut (s.wordOf word)

theorem does_receiveWord (value index : Nat) :
    Does (Ready d) d.receiveWord (s.sending value index)
      (d.leaving s (UInt64.ofNat (value >>> (index * s.wordBits)))) (s.sending value (index + 1)) := by
  have hread : Does (Ready d) (liftM (d.readWord .readData)) (s.sending value index)
      (d.leaving s (UInt64.ofNat (value >>> (index * s.wordBits)))) (s.sending value (index + 1)) := by
    refine Does.lift fun t ht => ?_
    have htransfer : t.transfer = some (.read value index) := ht.field State.transfer fun _ => rfl
    have hbits : t.wordBits = s.wordBits := ht.field State.wordBits fun _ => rfl
    have hword (word : UInt64) : t.wordOf word = s.wordOf word :=
      ht.field (fun u => u.wordOf word) fun _ => rfl
    have hdata : t.readSource .readData = (s.wordOf (UInt64.ofNat (value >>> (index * s.wordBits))),
        t.sending value (index + 1)) := by
      show (t.readData.1, t.readData.2) = _
      simp only [State.readData, htransfer, hbits, hword]
      rfl
    refine ⟨t.sending value (index + 1), (d.ends_readWord _ _).mpr ?_, ?_, fun hready => ?_⟩
    · rw [hdata]
      exact ⟨rfl, rfl⟩
    · exact ht.apply (show State.Timeless fun u => u.sending value (index + 1) from fun _ => rfl)
    · exact hready.frame (hready.coherent.frame rfl) rfl
  exact (does_waitIdle _).bind (hread.bind ((does_settle _).bind (Does.pure _)))

/-- The words that a driver receives of a number. -/
def departing (d : Driver) (s : State) (value index count : Nat) : List UInt64 :=
  (Bytes.scatter s.wordBits value index count).map (d.leaving s)

theorem records_receiveWords (value index count : Nat) (received : List UInt64) :
    Records (Ready d) (d.receiveWords count) received (s.sending value index) ()
      ((d.departing s value index count).reverse ++ received)
      (s.sending value (index + count)) := by
  induction count generalizing index received with
  | zero => exact Records.pure ()
  | succ count ih =>
    have hrest := ih (index + 1)
      (d.leaving s (UInt64.ofNat (value >>> (index * s.wordBits))) :: received)
    have hwords : (d.departing s value (index + 1) count).reverse ++
        d.leaving s (UInt64.ofNat (value >>> (index * s.wordBits))) :: received =
        (d.departing s value index (count + 1)).reverse ++ received := by
      simp [departing, Bytes.scatter]
    rw [hwords, Nat.add_right_comm, Nat.add_assoc] at hrest
    exact (Records.lift (does_receiveWord value index)).bind ((Records.modify _).bind hrest)

/-! ### Buffers -/

/-- A command opens a transfer of a number from the device. -/
def Opens (command : Command) (s : State) (value : Nat) : Prop :=
  ∀ u : State, u.Alike s → u.multiplying = false →
    (u.writeSink .control command.word.toUInt64).Alike (s.sending value 0)

theorem opens_number (n : Number) : Opens (.readNumber n.address) s (s.numbers.get n) := by
  intro u hu hresting
  have hwrite : Control.writeNumber.test (Command.readNumber n.address).word = false := by
    simp (disch := decide) only [Command.word, BitField.test_set_of_apart,
      BitField.test_put_of_apart, BitField.test_zero]
  have hread : Control.readNumber.test (Command.readNumber n.address).word = true := by
    simp (disch := decide) only [Command.word, BitField.test_set_of_apart, BitField.test_put]
  have htoken : Control.readToken.test (Command.readNumber n.address).word = false := by
    simp (disch := decide) only [Command.word, BitField.test_set_of_apart,
      BitField.test_put_of_apart, BitField.test_zero]
  have haddress : Control.address.get (Command.readNumber n.address).word = n.address :=
    BitField.get_set_of_lt (by decide) (by decide) (address_lt n) _
  show (u.control (UInt64.toUInt32 _)).Alike _
  rw [UInt32.toUInt32_toUInt64]
  simp only [State.control, ControlField.agrees, hresting, Bool.false_eq_true, if_false, hwrite,
    hread, if_true, htoken, haddress, State.openRead_number]
  exact hu.apply (show State.Timeless fun s => s.occupy.sending (s.numbers.get n) 0 from fun _ => rfl)

theorem opens_token : Opens (.readToken Number.p.address) s (s.token.getD 0) := by
  intro u hu hresting
  have hwrite : Control.writeNumber.test (Command.readToken Number.p.address).word = false := by
    decide
  have hread : Control.readNumber.test (Command.readToken Number.p.address).word = true := by decide
  have htoken : Control.readToken.test (Command.readToken Number.p.address).word = true := by decide
  show (u.control (UInt64.toUInt32 _)).Alike _
  rw [UInt32.toUInt32_toUInt64]
  simp only [State.control, ControlField.agrees, hresting, Bool.false_eq_true, if_false, hwrite,
    hread, if_true, htoken, State.openRead]
  exact hu.apply (show State.Timeless fun s => s.occupy.sending (s.token.getD 0) 0 from fun _ => rfl)

theorem records_readWords {command : Command} {value len : Nat} (hopen : Opens command s value)
    (hfits : d.Fits s len) :
    Records (Ready d) (d.readWords command len) [] s ()
      (d.departing s value 0 (d.words s)).reverse (s.sending value (d.words s)) := by
  have hwords := records_receiveWords (d := d) (s := s) value 0 (d.words s) []
  rw [List.append_nil, Nat.zero_add] at hwords
  exact (Records.lift (does_transferWords hfits)).bind
    ((Records.lift (does_writeSettled _ _ hopen rfl)).bind hwords)

theorem returns_readInto (command : Command) (buffer b : Bytes) (t : State) :
    Recording.Returns bus (d.readInto command) buffer s () b t ↔
      ∃ received, Recording.Returns bus (d.readWords command buffer.length) [] s () received t ∧
        b = Bytes.fill d.wordBytes received.reverse buffer := by
  show Ends bus ((d.readWords command buffer.length).on [] >>= fun p =>
    pure (p.1, Bytes.fill d.wordBytes p.2.reverse buffer)) s (.ok (), b) t ↔ _
  simp only [ends_bind, ends_pure, Prod.mk.injEq]
  constructor
  · rintro ⟨⟨ending, received⟩, _, hread, ⟨rfl, rfl⟩, rfl⟩
    exact ⟨received, hread, rfl⟩
  · rintro ⟨received, hread, rfl⟩
    exact ⟨(.ok (), received), t, hread, ⟨rfl, rfl⟩, rfl⟩

/-- What a buffer holds after a number has been received into it. -/
def delivered (d : Driver) (s : State) (value : Nat) (buffer : Bytes) : Bytes :=
  Bytes.fill d.wordBytes (d.departing s value 0 (d.words s)) buffer

@[simp] theorem length_delivered (value : Nat) (buffer : Bytes) :
    (d.delivered s value buffer).length = buffer.length := Bytes.length_fill ..

theorem records_readInto {command : Command} {value : Nat} (buffer : Bytes)
    (hopen : Opens command s value) (hfits : d.Fits s buffer.length) :
    Records (Ready d) (d.readInto command) buffer s () (d.delivered s value buffer)
      (s.sending value (d.words s)) where
  only t b q u ht h := by
    obtain ⟨received, hread, rfl⟩ := (returns_readInto command buffer q u).mp h
    obtain ⟨-, rfl, hu⟩ := (records_readWords hopen hfits).only t () received u ht hread
    rw [List.reverse_reverse]
    exact ⟨rfl, rfl, hu⟩
  returns t ht hready := by
    obtain ⟨u, hread, hu⟩ := (records_readWords hopen hfits).returns t ht hready
    refine ⟨u, (returns_readInto command buffer _ u).mpr ⟨_, hread, ?_⟩, hu⟩
    rw [List.reverse_reverse]
    rfl

theorem returns_readBytes (command : Command) (len : Nat) (b : Bytes) (t : State) :
    Returns bus (d.readBytes command len) s b t ↔
      Recording.Returns bus (d.readInto command) (List.replicate len 0) s () b t := by
  show Ends bus ((d.readInto command).on (List.replicate len 0) >>= fun p =>
    pure (p.1.map fun _ => p.2)) s (.ok b) t ↔ _
  simp only [ends_bind, ends_pure]
  constructor
  · rintro ⟨⟨ending, bytes⟩, _, hread, hmap, rfl⟩
    cases ending with
    | ok _ =>
      cases hmap
      exact hread
    | error e => cases hmap
  · intro hread
    exact ⟨(.ok (), b), t, hread, rfl, rfl⟩

theorem does_readBytes {command : Command} {value len : Nat} (hopen : Opens command s value)
    (hfits : d.Fits s len) :
    Does (Ready d) (d.readBytes command len) s (d.delivered s value (List.replicate len 0))
      (s.sending value (d.words s)) := by
  have hinto := records_readInto (List.replicate len 0) hopen
    (by rwa [List.length_replicate])
  constructor
  · intro t b u ht h
    obtain ⟨-, hb, hu⟩ := hinto.only t () b u ht ((returns_readBytes command len b u).mp h)
    exact ⟨hb, hu⟩
  · intro t ht hready
    obtain ⟨u, hread, hu⟩ := hinto.returns t ht hready
    exact ⟨u, (returns_readBytes command len _ u).mpr hread, hu⟩

/-! ### Matching widths -/

/-- A word leaves an engine as it was, as far as it is wide. -/
theorem leaving_of_matches (h : d.Matches s) (word : UInt64) :
    (d.leaving s word).toNat % 256 ^ d.wordBytes = word.toNat % 256 ^ d.wordBytes := by
  unfold Matches at h
  unfold leaving cut State.wordOf wordBytes
  rw [h]
  cases s.params.wideWords with
  | true => rfl
  | false =>
    show (lowHalf (lowHalf word)).toNat % 2 ^ 32 = word.toNat % 2 ^ 32
    rw [lowHalf_lowHalf, toNat_lowHalf, Nat.mod_mod]

/-- Between matching widths, a buffer receives the low bytes of the number. -/
theorem toNat_delivered (h : d.Matches s) (value : Nat) {buffer : Bytes}
    (hfits : d.Fits s buffer.length) :
    (d.delivered s value buffer).toNat = value % 256 ^ buffer.length := by
  have hlen : buffer.length ≤ d.wordBytes * d.words s :=
    Nat.le_trans (Bytes.le_wordsFor _ d.wordBytes_pos) (Nat.mul_le_mul_left _ hfits)
  have hcount : (d.departing s value 0 (d.words s)).length = d.words s := by
    rw [departing, List.length_map, Bytes.length_scatter]
  rw [delivered, Bytes.toNat_fill (by rwa [hcount]), departing, wordBits_of_matches h,
    Bytes.lowNat_scatter d.wordBytes_le (leaving_of_matches h), Nat.zero_mul, pow_zero, Nat.div_one,
    Nat.mod_mod_of_dvd _ (pow_dvd_pow 256 hlen)]

/-- A buffer for a number of the prime size receives all the bytes of that size. -/
theorem toNat_delivered_blank (h : d.Matches s) (value : Nat) :
    (d.delivered s value (List.replicate s.numberBytes 0)).toNat = value % 256 ^ s.numberBytes := by
  have hfits : d.Fits s (List.replicate s.numberBytes (0 : UInt8)).length := by
    rw [List.length_replicate]
    exact fits_of_le (Nat.le_refl _)
  rw [toNat_delivered h value hfits, List.length_replicate]

/-! ### The token -/

theorem does_numberBytes : Does (Ready d) (liftM d.numberBytes) s s.numberBytes s :=
  Does.lift fun t ht =>
    ⟨t, (ends_numberBytes _ _).mpr ⟨(ht.field State.numberBytes fun _ => rfl).symm, rfl⟩, ht, id⟩

/-- The token that an engine draws, as a driver receives it. -/
def tokenBytes (d : Driver) (s : State) : Bytes :=
  d.delivered s (s.draw s.size .axi).1 (List.replicate s.numberBytes 0)

theorem does_fetchToken :
    Does (Ready d) d.fetchToken s (d.tokenBytes s)
      (s.drawToken.sending (s.draw s.size .axi).1 (d.words s)) := by
  have hdraw : Does (Ready d) (d.writeSettled .token 1) s () s.drawToken :=
    does_writeSettled _ _ (fun u hu _ => hu.apply State.timeless_drawToken) rfl
  have hread : Does (Ready d) (d.readBytes (.readToken Number.p.address) s.numberBytes) s.drawToken
      (d.tokenBytes s) (s.drawToken.sending (s.draw s.size .axi).1 (d.words s)) :=
    does_readBytes opens_token (fits_of_le (Nat.le_refl s.numberBytes))
  exact hdraw.bind (does_numberBytes.bind hread)

/-! ### Points -/

/-- A coordinate of a point register, as a driver receives it. -/
def coordinateBytes (d : Driver) (s : State) (n : Number) : Bytes :=
  d.delivered s (s.numbers.get n) (List.replicate s.numberBytes 0)

theorem ends_readFront (register : Number) (len : Nat) (buffer b : Bytes)
    (x : Except DriverError Unit) (t : State) :
    Ends bus ((d.readFront register len).on buffer) s (x, b) t ↔
      ∃ front, Ends bus ((d.readInto (.readNumber register.address)).on (buffer.take len)) s
        (x, front) t ∧ b = front ++ buffer.drop len := by
  show Ends bus ((d.readInto (.readNumber register.address)).on (buffer.take len) >>= fun p =>
    pure (p.1, p.2 ++ buffer.drop len)) s (x, b) t ↔ _
  simp only [ends_bind, ends_pure, Prod.mk.injEq]
  constructor
  · rintro ⟨⟨ending, front⟩, _, hread, ⟨rfl, rfl⟩, rfl⟩
    exact ⟨front, hread, rfl⟩
  · rintro ⟨front, hread, rfl⟩
    exact ⟨(x, front), t, hread, ⟨rfl, rfl⟩, rfl⟩

/-- A coordinate goes into a buffer of its own length as a whole. -/
theorem records_readFront (n : Number) :
    Records (Ready d) (d.readFront n s.numberBytes) (List.replicate s.numberBytes 0) s ()
      (d.coordinateBytes s n) (s.sending (s.numbers.get n) (d.words s)) := by
  have hinto := records_readInto (List.replicate s.numberBytes (0 : UInt8))
    (opens_number (s := s) n) (by rw [List.length_replicate]; exact fits_of_le (d := d) (Nat.le_refl _))
  have hwhole : (List.replicate s.numberBytes (0 : UInt8)).take s.numberBytes =
      List.replicate s.numberBytes 0 := List.take_of_length_le (by rw [List.length_replicate])
  have hnone : (List.replicate s.numberBytes (0 : UInt8)).drop s.numberBytes = [] :=
    List.drop_of_length_le (by rw [List.length_replicate])
  constructor
  · intro t b q u ht h
    obtain ⟨front, hread, rfl⟩ := (ends_readFront _ _ _ _ _ _).mp h
    rw [hwhole] at hread
    obtain ⟨-, rfl, hu⟩ := hinto.only t () front u ht hread
    rw [hnone, List.append_nil]
    exact ⟨rfl, rfl, hu⟩
  · intro t ht hready
    obtain ⟨u, hread, hu⟩ := hinto.returns t ht hready
    refine ⟨u, (ends_readFront _ _ _ _ _ _).mpr ⟨d.coordinateBytes s n, ?_, ?_⟩, hu⟩
    · rw [hwhole]
      exact hread
    · rw [hnone, List.append_nil]

/-- The coordinates of a point register, as a driver receives them. -/
def pointBytes (d : Driver) (s : State) (point : PointRegister) : Coordinates :=
  ⟨d.coordinateBytes s point.x, d.coordinateBytes s point.y⟩

/-- Buffers of the length that a driver takes numbers to have. -/
def blankBuffers (s : State) : Coordinates :=
  ⟨List.replicate s.numberBytes 0, List.replicate s.numberBytes 0⟩

/-- A state after both coordinates of a point have been received. -/
def afterPoint (d : Driver) (s : State) (point : PointRegister) : State :=
  s.sending (s.numbers.get point.y) (d.words s)

theorem records_readPointInto (point : PointRegister) :
    Records (Ready d) (d.readPointInto point) (blankBuffers s) s s.numberBytes
      (d.pointBytes s point) (d.afterPoint s point) := by
  have hx := records_readFront (d := d) (s := s) point.x
  have hy := records_readFront (d := d) (s := s.sending (s.numbers.get point.x) (d.words s)) point.y
  have henough : ¬ ((List.replicate s.numberBytes (0 : UInt8)).length < s.numberBytes ∨
      (List.replicate s.numberBytes (0 : UInt8)).length < s.numberBytes) := by
    rw [List.length_replicate]
    omega
  constructor
  · intro t len q v ht h
    have hsize : t.numberBytes = s.numberBytes := ht.field State.numberBytes fun _ => rfl
    simp only [readPointInto, Recording.returns_bind, Recording.returns_procedure,
      Recording.returns_get, ends_numberBytes, hsize] at h
    obtain ⟨_, _, _, ⟨rfl, rfl, rfl⟩, _, _, _, ⟨rfl, rfl, rfl⟩, hrest⟩ := h
    rw [blankBuffers, if_neg henough] at hrest
    simp only [Recording.returns_bind, Recording.returns_procedure, Recording.returns_set,
      Recording.returns_ofExcept, Recording.returns_pure] at hrest
    obtain ⟨⟨_, x⟩, _, u, ⟨rfl, hreadX⟩, _, _, _, ⟨rfl, rfl⟩, _, _, _, ⟨rfl, rfl, rfl⟩,
      ⟨_, y⟩, _, w, ⟨rfl, hreadY⟩, _, _, _, ⟨rfl, rfl⟩, _, _, _, ⟨rfl, rfl, rfl⟩, rfl, rfl, rfl⟩ :=
      hrest
    obtain ⟨-, rfl, hu⟩ := hx.only _ _ _ _ ht hreadX
    obtain ⟨-, rfl, hw⟩ := hy.only _ _ _ _ hu hreadY
    exact ⟨rfl, rfl, hw⟩
  · intro t ht hready
    have hsize : t.numberBytes = s.numberBytes := ht.field State.numberBytes fun _ => rfl
    obtain ⟨u, hreadX, hu⟩ := hx.returns t ht hready
    obtain ⟨w, hreadY, hw⟩ := hy.returns u (hx.only _ _ _ _ ht hreadX).2.2 hu
    refine ⟨w, ?_, hw⟩
    simp only [readPointInto, Recording.returns_bind, Recording.returns_procedure,
      Recording.returns_get, ends_numberBytes, hsize]
    refine ⟨_, _, _, ⟨rfl, rfl, rfl⟩, _, _, _, ⟨rfl, rfl, rfl⟩, ?_⟩
    rw [blankBuffers, if_neg henough]
    simp only [Recording.returns_bind, Recording.returns_procedure, Recording.returns_set,
      Recording.returns_ofExcept, Recording.returns_pure]
    exact ⟨(_, _), _, u, ⟨rfl, hreadX⟩, ⟨⟩, _, _, ⟨rfl, rfl⟩, (), _, _, ⟨rfl, rfl, rfl⟩,
      (_, _), _, w, ⟨rfl, hreadY⟩, ⟨⟩, _, _, ⟨rfl, rfl⟩, (), _, _, ⟨rfl, rfl, rfl⟩, trivial, rfl, rfl⟩

theorem returns_readCoordinates (point : PointRegister) (a : Coordinates) (t : State) :
    Returns bus (d.readCoordinates point) s a t ↔
      ∃ len, Recording.Returns bus (d.readPointInto point) (blankBuffers s) s len a t := by
  simp only [readCoordinates, returns_bind, returns_lift, ends_numberBytes, returns_ofExcept,
    returns_pure]
  constructor
  · rintro ⟨_, _, ⟨rfl, rfl⟩, ⟨ending, buffers⟩, u, hread, len, _, ⟨rfl, rfl⟩, rfl, rfl⟩
    exact ⟨len, hread⟩
  · rintro ⟨len, hread⟩
    exact ⟨_, _, ⟨rfl, rfl⟩, (.ok len, a), t, hread, len, t, ⟨rfl, rfl⟩, rfl, rfl⟩

theorem does_readCoordinates (point : PointRegister) :
    Does (Ready d) (d.readCoordinates point) s (d.pointBytes s point) (d.afterPoint s point) := by
  have hinto := records_readPointInto (d := d) (s := s) point
  have hblank {t : State} (ht : t.Alike s) : blankBuffers t = blankBuffers s :=
    ht.field blankBuffers fun _ => rfl
  constructor
  · intro t b u ht h
    obtain ⟨len, hread⟩ := (returns_readCoordinates point b u).mp h
    rw [hblank ht] at hread
    obtain ⟨-, hb, hu⟩ := hinto.only t len b u ht hread
    exact ⟨hb, hu⟩
  · intro t ht hready
    obtain ⟨u, hread, hu⟩ := hinto.returns t ht hready
    refine ⟨u, (returns_readCoordinates point _ u).mpr ⟨s.numberBytes, ?_⟩, hu⟩
    rw [hblank ht]
    exact hread

/-- The infinity flag of a point. -/
def nullOf (s : State) : PointRegister → Bool
  | .r0 => s.r0Null
  | .r1 => s.r1Null

theorem does_status (f : UInt32 → α) {a : α}
    (h : ∀ t : State, t.Alike s → f t.readStatus.1 = a) :
    Does (Ready d) (do let word ← d.status; pure (f word)) s a s where
  only t b u ht hop := by
    simp only [returns_bind, returns_lift, ends_status, returns_pure] at hop
    obtain ⟨_, _, ⟨rfl, rfl⟩, rfl, rfl⟩ := hop
    exact ⟨h t ht, t.settled_readStatus.trans ht⟩
  returns t ht hready := by
    refine ⟨t.readStatus.2, ?_, hready.readStatus⟩
    simp only [returns_bind, returns_lift, ends_status, returns_pure]
    exact ⟨_, _, ⟨rfl, rfl⟩, (h t ht).symm, rfl⟩

theorem does_isInfinite (point : PointRegister) :
    Does (Ready d) (d.isInfinite point) s (nullOf s point) s := by
  refine (does_waitIdle s).bind (does_status _ fun t ht => ?_)
  have hflags : nullOf t point = nullOf s point := ht.field (nullOf · point) fun _ => rfl
  rw [← hflags]
  cases point with
  | r0 => exact t.r0Null_readStatus
  | r1 => exact t.r1Null_readStatus

theorem does_saveFlags : Does (Ready d) d.saveFlags s ⟨s.r0Null, s.r1Null⟩ s := by
  refine (does_waitIdle s).bind (does_status _ fun t ht => ?_)
  have hr0 : t.r0Null = s.r0Null := ht.field State.r0Null fun _ => rfl
  have hr1 : t.r1Null = s.r1Null := ht.field State.r1Null fun _ => rfl
  rw [t.r0Null_readStatus, t.r1Null_readStatus, hr0, hr1]

/-- A point register, as a driver reads it. -/
def answerOf (d : Driver) (s : State) (point : PointRegister) : PointAnswer :=
  ⟨(d.pointBytes s point).x, (d.pointBytes s point).y, nullOf s point⟩

theorem does_readPoint (point : PointRegister) :
    Does (Ready d) (d.readPoint point) s (d.answerOf s point) (d.afterPoint s point) :=
  (does_readCoordinates point).bind ((does_isInfinite point).bind (Does.pure _))

end Driver

end CurveEngine
