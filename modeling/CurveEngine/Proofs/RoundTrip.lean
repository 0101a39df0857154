import CurveEngine.Proofs.Accesses
import CurveEngine.Proofs.Product

/-! Numbers sent to an engine, and received from it again.

A number that takes more words than the prime is refused, and nothing is stored for it. Any
other is found at its destination as a whole; the other registers stay as they are, and
so do the infinity flags, but for that of a point whose coordinate is written. What is read
from there fills a buffer of any length that fits with the low bytes. The scalar is the
exception: nothing reads it back, since a read at its address is one of R0. -/
namespace CurveEngine
open Register Procedure Device Operation

namespace Register.Destination

/-- The destination is a coordinate of a point. -/
def belongsTo (point : PointRegister) : Destination → Bool
  | .number n => n == point.x || n == point.y
  | .scalar => false

/-- The register that is read at the address of a destination. -/
def readable : Destination → Number
  | .number n => n
  | .scalar => .xR0

theorem address_readable (destination : Destination) :
    destination.readable.address = destination.address := by
  cases destination <;> rfl

end Register.Destination

namespace Device.State

/-- What has been written to a destination. -/
def content (s : State) : Destination → Nat
  | .number n => s.numbers.get n
  | .scalar => s.scalar

/-- What is read back of a value that has been sent to a destination. -/
def readBack (s : State) (value : Nat) : Destination → Nat
  | .number _ => value
  | .scalar => s.numbers.get .xR0

/-- A number that is received changes the content of its destination only. -/
theorem content_receiving (s : State) (destination other : Destination) (value index : Nat) :
    ((s.unflag destination).receiving destination value index).content other =
      if other = destination then value else s.content other := by
  cases destination with
  | number n =>
    cases other with
    | number m =>
      simp only [Destination.number.injEq]
      exact NumberFile.get_set s.numbers n m value
    | scalar => rfl
  | scalar => cases other <;> rfl

end Device.State

namespace Driver
variable {d : Driver} {s : State}

/-- It clears the flag of the point that it belongs to. -/
theorem nullOf_receiving (destination : Destination) (value index : Nat) (point : PointRegister) :
    nullOf ((s.unflag destination).receiving destination value index) point =
      (nullOf s point && !destination.belongsTo point) := by
  cases destination with
  | number n => cases point <;> rfl
  | scalar => cases point <;> exact (Bool.and_true _).symm

/-! ### Refused numbers -/

theorem transferWords_refuses {len : Nat} (h : ¬ d.Fits s len) :
    Throws bus (d.transferWords len) s .numberTooLarge s := by
  have hbytes : Returns bus (liftM d.numberBytes : Operation Nat) s s.numberBytes s :=
    (returns_lift _ _ _ _).mpr ((ends_numberBytes _ _).mpr ⟨rfl, rfl⟩)
  refine hbytes.throws ?_
  have hlarge : Bytes.wordsFor len d.wordBytes > Bytes.wordsFor s.numberBytes d.wordBytes :=
    Nat.lt_of_not_le h
  dsimp only
  rw [if_pos hlarge]
  exact (throws_throw _ _ _ _).mpr ⟨rfl, rfl⟩

theorem writeNumber_refuses {bytes : Bytes} (h : ¬ d.Fits s bytes.length)
    (destination : Destination) :
    Throws bus (d.writeNumber bytes destination) s .numberTooLarge s :=
  (transferWords_refuses h).bind

/-- Nothing is stored for a number that is refused. -/
theorem not_makes_writeNumber {bytes : Bytes} (h : ¬ d.Fits s bytes.length)
    (destination : Destination) :
    ¬ Makes bus Access.IsStore (d.writeNumber bytes destination).run s := by
  rw [writeNumber, (transferWords_refuses h).makes_bind_iff]
  exact avoids_transferWords (fun _ _ _ => id) _ s

/-! ### Numbers received back -/

/-- A read at the address of a destination delivers what is there to be read. -/
theorem records_readNumberInto (destination : Destination) {buffer : Bytes}
    (h : d.Fits s buffer.length) :
    Records (Ready d) (d.readNumberInto destination) buffer s ()
      (d.delivered s (s.numbers.get destination.readable) buffer)
      (s.sending (s.numbers.get destination.readable) (d.words s)) := by
  rw [readNumberInto, ← destination.address_readable]
  exact records_readInto buffer (opens_number destination.readable) h

theorem words_receiving (destination : Destination) (value index : Nat) :
    d.words ((s.unflag destination).receiving destination value index) = d.words s := by
  cases destination <;> rfl

theorem matches_receiving (h : d.Matches s) (destination : Destination) (value index : Nat) :
    d.Matches ((s.unflag destination).receiving destination value index) := by
  cases destination <;> exact h

/-- What has been written is read back from an engine that it leaves behind. -/
theorem readNumberInto_receiving (hmatch : d.Matches s) {destination : Destination}
    {value index : Nat} {t : State} (hready : Ready d t)
    (ht : t.Alike ((s.unflag destination).receiving destination value index)) {buffer : Bytes}
    (hfits : d.Fits s buffer.length) :
    ∃ b u, Recording.Returns bus (d.readNumberInto destination) buffer t () b u ∧
      b.length = buffer.length ∧
      b.toNat = s.readBack value destination % 256 ^ buffer.length := by
  have hwords := words_receiving (d := d) (s := s) destination value index
  have hfits' : d.Fits ((s.unflag destination).receiving destination value index)
      buffer.length := by
    rw [Fits, hwords]
    exact hfits
  obtain ⟨u, hread, -⟩ := (records_readNumberInto destination hfits').returns t ht hready
  refine ⟨_, u, hread, length_delivered _ _, ?_⟩
  rw [toNat_delivered (matches_receiving hmatch destination value index) _ hfits']
  congr 1
  cases destination with
  | number n =>
    have hcontent := s.content_receiving (.number n) (.number n) value index
    rwa [if_pos rfl] at hcontent
  | scalar => rfl

/-- **A number is found where it has been sent to.** A byte string that takes more words than
the prime is refused, with nothing stored and nothing changed. Any other is put together at
its destination; every other content stays, and every infinity flag but that of the point
it belongs to. A read into a buffer that fits then delivers its low bytes, or the low bytes of
R0's first coordinate if it was the scalar that was sent. -/
theorem writeNumber_roundTrip (d : Driver) (s : State) (bytes : Bytes) (destination : Destination)
    (hs : Reachable s) (hresting : s.multiplying = false) (hclear : s.errors = 0)
    (hmatch : d.Matches s) (hpatient : max s.params.latency 3 < d.checks) :
    ((∃ t, Throws bus (d.writeNumber bytes destination) s .numberTooLarge t) ↔
      Bytes.wordsFor bytes.length d.wordBytes > Bytes.wordsFor s.numberBytes d.wordBytes) ∧
    (Bytes.wordsFor bytes.length d.wordBytes > Bytes.wordsFor s.numberBytes d.wordBytes →
      Throws bus (d.writeNumber bytes destination) s .numberTooLarge s ∧
        ∀ access ∈ (d.writeNumber bytes destination).run.accesses bus s, ¬ access.IsStore) ∧
    (¬ Bytes.wordsFor bytes.length d.wordBytes > Bytes.wordsFor s.numberBytes d.wordBytes →
      ∃ t, Returns bus (d.writeNumber bytes destination) s () t ∧
        t.content destination = bytes.toNat ∧
        (∀ other, other ≠ destination → t.content other = s.content other) ∧
        (∀ point, nullOf t point = (nullOf s point && !destination.belongsTo point)) ∧
        ∀ buffer : Bytes,
          Bytes.wordsFor buffer.length d.wordBytes ≤ Bytes.wordsFor s.numberBytes d.wordBytes →
          ∃ b u, Recording.Returns bus (d.readNumberInto destination) buffer t () b u ∧
            b.length = buffer.length ∧
            b.toNat = s.readBack bytes.toNat destination % 256 ^ buffer.length) := by
  have hready : Ready d s := ⟨⟨hs.coherent, hresting, hpatient⟩, hclear⟩
  have hsent (hfits : d.Fits s bytes.length) :
      ∃ t, Returns bus (d.writeNumber bytes destination) s () t ∧ Ready d t ∧
        t.Alike ((s.unflag destination).receiving destination bytes.toNat (d.words s)) := by
    obtain ⟨t, hwrite, ht⟩ := (does_writeNumber destination hfits).returns s (.refl s) hready
    have halike := ((does_writeNumber destination hfits).only s () t (.refl s) hwrite).2
    rw [gathered_of_matches hmatch hfits] at halike
    exact ⟨t, hwrite, ht, halike⟩
  have hrefused (hlarge : Bytes.wordsFor bytes.length d.wordBytes >
      Bytes.wordsFor s.numberBytes d.wordBytes) :
      Throws bus (d.writeNumber bytes destination) s .numberTooLarge s :=
    writeNumber_refuses (Nat.not_le_of_lt hlarge) destination
  refine ⟨⟨fun ⟨t, hthrows⟩ => ?_, fun hlarge => ⟨s, hrefused hlarge⟩⟩,
    fun hlarge => ⟨hrefused hlarge, fun access haccess hstore => ?_⟩, fun hsmall => ?_⟩
  · by_contra hsmall
    obtain ⟨u, hreturns, -⟩ := hsent (Nat.le_of_not_lt hsmall)
    exact hreturns.not_throws hthrows
  · exact not_makes_writeNumber (Nat.not_le_of_lt hlarge) destination ⟨access, haccess, hstore⟩
  · obtain ⟨t, hwrite, ht, halike⟩ := hsent (Nat.le_of_not_lt hsmall)
    have hcontent (other : Destination) : t.content other =
        if other = destination then bytes.toNat else s.content other :=
      (halike.field (fun u => u.content other) fun _ => by cases other <;> rfl).trans
        (s.content_receiving destination other _ _)
    have hflag (point : PointRegister) :
        nullOf t point = (nullOf s point && !destination.belongsTo point) :=
      (halike.field (nullOf · point) fun _ => by cases point <;> rfl).trans
        (nullOf_receiving destination _ _ point)
    refine ⟨t, hwrite, ?_, fun other hother => ?_, hflag, fun buffer hfits => ?_⟩
    · rw [hcontent, if_pos rfl]
    · rw [hcontent, if_neg hother]
    · exact readNumberInto_receiving hmatch ht halike hfits

/-- A coordinate of the small engine, sent and received again. -/
theorem writeNumber_roundTrip_curve97 :
    ∃ t b u, Returns bus ((⟨{}, 10⟩ : Driver).writeNumber [0, 5] (.number .xR1)) curve97 () t ∧
      t.content (.number .xR1) = 5 ∧
      Recording.Returns bus ((⟨{}, 10⟩ : Driver).readNumberInto (.number .xR1)) [9, 9, 9] t () b u ∧
      b.length = 3 ∧ b.toNat = 5 := by
  obtain ⟨-, -, hsent⟩ := writeNumber_roundTrip ⟨{}, 10⟩ curve97 [0, 5] (.number .xR1)
    reachable_curve97 rfl rfl rfl (by decide)
  obtain ⟨t, hwrite, hcontent, -, -, hread⟩ := hsent (by decide)
  obtain ⟨b, u, hreturns, hlength, hvalue⟩ := hread [9, 9, 9] (by decide)
  exact ⟨t, b, u, hwrite, hcontent, hreturns, hlength, hvalue⟩

/-- **The scalar is not read back.** What is read after it has been sent is the first
coordinate of R0. -/
theorem readNumberInto_scalar_curve97 :
    Reachable curve97 ∧ curve97.multiplying = false ∧ curve97.errors = 0 ∧
      (⟨{}, 10⟩ : Driver).Matches curve97 ∧
      ∃ t b u, Returns bus ((⟨{}, 10⟩ : Driver).writeNumber [5] .scalar) curve97 () t ∧
        t.content .scalar = 5 ∧
        Recording.Returns bus ((⟨{}, 10⟩ : Driver).readNumberInto .scalar) [0] t () b u ∧
        b.toNat ≠ 5 % 256 := by
  have hready : Ready ⟨{}, 10⟩ curve97 := ⟨⟨reachable_curve97.coherent, rfl, by decide⟩, rfl⟩
  have hmatch : (⟨{}, 10⟩ : Driver).Matches curve97 := rfl
  have hfits : (⟨{}, 10⟩ : Driver).Fits curve97 ([5] : Bytes).length := fits_of_le (by decide)
  have hroom : (⟨{}, 10⟩ : Driver).Fits curve97 ([0] : Bytes).length := hfits
  have hsend := does_writeNumber .scalar hfits
  obtain ⟨t, hwrite, ht⟩ := hsend.returns curve97 (.refl _) hready
  have halike := (hsend.only curve97 () t (.refl _) hwrite).2
  rw [gathered_of_matches hmatch hfits] at halike
  obtain ⟨b, u, hread, -, hvalue⟩ := readNumberInto_receiving hmatch ht halike hroom
  refine ⟨reachable_curve97, rfl, rfl, hmatch, t, b, u, hwrite, ?_, hread, ?_⟩
  · exact halike.field State.scalar fun _ => rfl
  · rw [hvalue]
    decide

end Driver

end CurveEngine
