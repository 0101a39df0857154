import CurveEngine.Proofs.LimbRequests

/-! The limbs of a slot, seen from both sides of the bus.

The device computes where a number is kept from its prime size, the driver from the prime size that
it is shown, and the memory was laid out once for the largest one. As long as these counts fit
into words of 32 bits the slots of every prime size that an engine accepts lie within that memory,
none of them reaches into another, and what is stored in one of them leaves every other limb alone;
and if the size register shows the whole prime size, the limbs that a driver asks for are those of
the device (`slots_apart`). Beyond that the two sides part, and slots may have no limbs at all
(`slots_part`). -/
namespace CurveEngine
open Register Procedure Device Operation

namespace Driver
variable {d : Driver} {s : State}

/-- The driver takes the slots to be where the device has them, if it is shown the prime size. -/
theorem shown_eq (hsize : s.size ≤ 0xffff) : s.shown = s.limbLayout := by
  rw [State.shown, Nat.mod_eq_of_lt (by omega), State.limbLayout_eq]

/-- A slot is read limb by limb, as it stands in memory. -/
theorem returns_readSlot (hdebug : s.params.debug = true) (hchecks : 0 < d.checks)
    (hcoherent : s.Coherent) {layout : LimbLayout} (h : layout.Roomy s.fp) {slot : Nat}
    (hslot : slot < Microcode.Slot.count) :
    ∃ n t, Returns bus (d.readSlot layout slot) s n t ∧
      n.limbs = (List.range layout.limbs).map fun i => s.fp.getD (layout.base slot + i) 0 := by
  obtain ⟨t, hread, -⟩ :=
    (does_readSlot (d := d) hdebug hchecks layout slot).returns s (.refl s) hcoherent
  rw [State.slotOf_eq h hslot] at hread
  exact ⟨_, t, hread, rfl⟩

/-- **Slots lie apart, within the memory, and where both sides take them to be.** At every prime
size up to the largest one, if no count or address of the memory for that wraps around: the memory
has a place for each slot, the limbs of every slot are within it, and no limb is in two slots. A
number that the device stores goes to the limbs of its slot, digit by digit, and every other limb
stays. The layout that a driver computes from the prime size is the device's; at a prime size of
sixteen bits it is the one that a driver comes to from what the engine shows. It then asks for
exactly the limbs of a slot when it reads it, and is answered with what they hold, and along a
whole traced run it asks for nothing but limbs of slots. -/
theorem slots_apart (d : Driver) (s : State) (hs : Reachable s)
    (hsize : s.size ≤ s.params.maxSize)
    (hplaced : LimbLayout.Addressable s.params.maxSize s.params.limbWidth) :
    s.limbLayout = .ofSize s.size s.params.limbWidth ∧
    s.fp.size = Microcode.Slot.count *
      (LimbLayout.ofSize s.params.maxSize s.params.limbWidth).stride ∧
    (∀ slot < Microcode.Slot.count, ∀ a, s.limbLayout.Spans slot a → a < s.fp.size) ∧
    (∀ slot other a, s.limbLayout.Spans slot a → s.limbLayout.Spans other a → slot = other) ∧
    (∀ slot < Microcode.Slot.count, ∀ value,
      let memory := FpMemory.store s.limbLayout slot value s.fp
      memory.size = s.fp.size ∧
        (∀ a, s.limbLayout.Spans slot a →
          memory.getD a 0 = FpMemory.digit value (a - s.limbLayout.base slot)) ∧
        ∀ a, ¬ s.limbLayout.Spans slot a → memory.getD a 0 = s.fp.getD a 0) ∧
    (s.size ≤ 0xffff → s.shown = s.limbLayout ∧ (s.params.debug = true →
      (0 < d.checks → ∀ slot < Microcode.Slot.count, let read := d.readSlot s.shown slot
        (∀ address, Makes bus (AsksLimb address) read.run s ↔
          s.limbLayout.Spans slot address.toNat) ∧
        ∃ n t, Returns bus read s n t ∧ n.limbs =
          (List.range s.limbLayout.limbs).map fun i =>
            s.fp.getD (s.limbLayout.base slot + i) 0) ∧
      ∀ t address, Makes bus (AsksLimb address) (d.traceRun.on t) s →
        ∃ slot < Microcode.Slot.count, s.limbLayout.Spans slot address.toNat)) := by
  have hroomy : s.limbLayout.Roomy s.fp := hplaced.roomy hsize hs.coherent.fp_size
  have hinside (slot : Nat) (hslot : slot < Microcode.Slot.count) (a : Nat)
      (ha : s.limbLayout.Spans slot a) : a < s.fp.size :=
    Nat.lt_of_lt_of_le (ha.lt_mul_stride hroomy.apart hslot) hroomy.inside
  refine ⟨rfl, hs.coherent.fp_size.trans hplaced.toNat_capacity, hinside,
    fun slot other a ha ha' => ha.unique ha' hroomy.apart, fun slot hslot value => ?_,
    fun hshown => ⟨shown_eq hshown, fun hdebug =>
      ⟨fun hchecks slot hslot => ?_, fun t asked hasks => ?_⟩⟩⟩
  · have hbeyond := hroomy.beyond_lt hslot
    refine ⟨State.size_store _ _ _ _, fun a ha => ?_, fun a ha => ?_⟩
    · rw [FpMemory.getD_store hbeyond, if_pos ⟨ha.1, ha.2, hinside slot hslot a ha⟩]
    · rw [FpMemory.getD_store hbeyond, if_neg fun h => ha ⟨h.1, h.2.1⟩]
  · rw [shown_eq hshown]
    exact ⟨makes_readSlot hdebug hchecks (hroomy.beyond_lt hslot),
      returns_readSlot hdebug hchecks hs.coherent hroomy hslot⟩
  · have hlimbs := hplaced.limbs
    rw [← shown_eq hshown]
    exact asks_traceRun hdebug (by omega) hasks

/-- A small engine with limbs of five bits, at a prime size below its largest one. -/
def fifths : State :=
  .powerUp { limbWidth := 5, maxSize := 64, size := 12, opcodes := 0, rawSize := 0 } fun _ => 0

/-- There the four limbs of one random value follow those of another. -/
theorem slots_apart_fifths :
    fifths.limbLayout.Spans Microcode.Slot.phi0 147 ∧ 147 < fifths.fp.size ∧
      ¬ fifths.limbLayout.Spans Microcode.Slot.phi1 147 ∧
      (FpMemory.store fifths.limbLayout Microcode.Slot.phi1 0xfff fifths.fp).getD 147 0 = 0 ∧
      Makes bus (AsksLimb 147)
        ((⟨{}, 10⟩ : Driver).readSlot fifths.shown Microcode.Slot.phi0).run fifths := by
  obtain ⟨-, -, hinside, hunique, hstore, hread⟩ :=
    slots_apart ⟨{}, 10⟩ fifths (.powerUp _ _) (by decide) (by decide)
  have hspans : fifths.limbLayout.Spans Microcode.Slot.phi0 147 := by decide
  have hother : ¬ fifths.limbLayout.Spans Microcode.Slot.phi1 147 :=
    fun h => absurd (hunique _ _ _ hspans h) (by decide)
  have hasked := ((hread (by decide)).2 rfl).1 (by decide) Microcode.Slot.phi0 (by decide)
  exact ⟨hspans, hinside _ (by decide) _ hspans, hother,
    ((hstore Microcode.Slot.phi1 (by decide) 0xfff).2.2 147 hother).trans (by decide +kernel),
    (hasked.1 147).mpr hspans⟩

/-- An engine with a prime size that its size register does not show. -/
def outsized : State :=
  .powerUp { limbWidth := 32, maxSize := 65800, size := 65544, opcodes := 0, rawSize := 0 }
    fun _ => 0

/-- An engine for numbers of more limbs, one bit each, than there are words for their addresses. -/
def overfull : State :=
  .powerUp { limbWidth := 1, maxSize := 67108860, size := 8, opcodes := 0, rawSize := 0 } fun _ => 0

/-- **Slots are not where both sides take them to be at every size.** At a prime size of more than
sixteen bits the limb that the driver asks for is one of another slot of the device. Where the count
of limbs wraps around there is no memory at all, and every slot is beyond it. -/
theorem slots_part :
    (Reachable outsized ∧ outsized.size ≤ outsized.params.maxSize ∧
      Makes bus (AsksLimb 32)
        ((⟨{}, 10⟩ : Driver).readSlot outsized.shown Microcode.Slot.lambda).run outsized ∧
      ¬ outsized.limbLayout.Spans Microcode.Slot.lambda 32 ∧ outsized.limbLayout.Spans 0 32) ∧
    Reachable overfull ∧ overfull.size ≤ overfull.params.maxSize ∧
      overfull.limbLayout.Spans Microcode.Slot.lambda 512 ∧ overfull.fp.size = 0 := by
  have hshown : outsized.shown = ⟨32, 1, 1⟩ := by decide
  refine ⟨⟨.powerUp _ _, by decide, ?_, by decide, by decide⟩, .powerUp _ _, by decide,
    by decide, ?_⟩
  · rw [hshown]
    exact (makes_readSlot rfl (by decide) (by decide) 32).mpr (by decide)
  · exact ((Reachable.powerUp _ _).coherent.fp_size (s := overfull)).trans (by decide)

end Driver

end CurveEngine
