import CurveEngine.Device.WordField
import CurveEngine.Proofs.Fields
import CurveEngine.Register.Control
import CurveEngine.Register.Layout

/-! What the device takes out of a word, and where a driver has put it.

The two declare the fields of a register apart from each other. A field of the device decodes
one of a layout if it lies over the same bits (`WordField.Decodes`), and then it reads from
every word what the layout has there (`read_eq`, `isSet_eq`). This is so for each field of
the words that the device is given; the lemmas that say it are for the simplifier, which
brings what the device does with a word back to the layouts. `configuration` lists the
registers that configure an engine: a field that is put into one of their words arrives,
and no other does (`configuration_arrives`). -/
namespace CurveEngine
open Register BitField

namespace Device

namespace WordField
variable {f : WordField} {g : BitField}

/-- The device reads the field where a layout has it. -/
abbrev Decodes (f : WordField) (g : BitField) : Prop :=
  f.offset = g.low ∧ f.bits = g.width ∧ 0 < g.width ∧ g.Fits

theorem bitOf_mask (h : f.Decodes g) (i : Nat) :
    bitOf f.mask i = decide (g.low ≤ i ∧ i < g.low + g.width) := by
  obtain ⟨hoffset, hbits, hwidth, hfits⟩ := h
  have hshift : f.offset < 32 := by omega
  rw [mask, bitOf_shiftLeft _ hshift, bitOf_ofNat, Nat.one_shiftLeft, Nat.testBit_two_pow_sub_one,
    hoffset, hbits]
  grind

/-- What the device reads is what the layout has there. -/
theorem read_eq (h : f.Decodes g) (word : UInt32) : f.read word = g.get word := by
  obtain ⟨hoffset, -, hwidth, hfits⟩ := id h
  apply eq_of_bitOf
  intro i _
  rw [read, bitOf_shiftRight _ (by omega), bitOf_and, bitOf_mask h, bitOf_get hfits hwidth, hoffset]
  grind

/-- A bit is set for the device if it is for the layout. -/
theorem isSet_eq (h : f.Decodes g) (word : UInt32) : f.isSet word = g.test word := by
  have hread := read_eq h word
  obtain ⟨hoffset, -, hwidth, hfits⟩ := id h
  have hzero : word &&& f.mask = 0 ↔ f.read word = 0 := by
    constructor
    · intro hnone
      rw [read, hnone]
      exact UInt32.zero_shiftRight
    · intro hnone
      apply eq_of_bitOf
      intro i hi
      have hbit := congrArg (bitOf · (i - f.offset)) hnone
      simp only [read, bitOf_shiftRight _ (show f.offset < 32 by omega)] at hbit
      rw [bitOf_and, bitOf_mask h, bitOf_zero] at hbit ⊢
      by_cases hin : g.low ≤ i ∧ i < g.low + g.width
      · rwa [hoffset, Nat.add_sub_cancel' hin.1] at hbit
      · rw [decide_eq_false hin, Bool.and_false]
  rw [isSet, test, ← hread, bne, bne, Bool.eq_iff_iff]
  simp [hzero]

end WordField

open WordField (isSet_eq read_eq)

@[simp] theorem ControlField.agrees (word : UInt32) :
    multiply.isSet word = Control.multiply.test word ∧ add.isSet word = Control.add.test word ∧
      double.isSet word = Control.double.test word ∧ check.isSet word = Control.check.test word ∧
      negate.isSet word = Control.negate.test word ∧ equal.isSet word = Control.equal.test word ∧
      opposite.isSet word = Control.opposite.test word ∧
      readToken.isSet word = Control.readToken.test word ∧
      writeNumber.isSet word = Control.writeNumber.test word ∧
      readNumber.isSet word = Control.readNumber.test word ∧
      writeScalar.isSet word = Control.writeScalar.test word ∧
      address.read word = Control.address.get word := by
  refine ⟨?_, ?_, ?_, ?_, ?_, ?_, ?_, ?_, ?_, ?_, ?_, read_eq (by decide) word⟩ <;>
    exact isSet_eq (by decide) word

@[simp] theorem BlindingField.agrees (word : UInt32) :
    enable.isSet word = Blinding.enable.test word ∧ bits.read word = Blinding.bits.get word :=
  ⟨isSet_eq (by decide) word, read_eq (by decide) word⟩

@[simp] theorem ZremaskField.agrees (word : UInt32) :
    enable.isSet word = Zremask.enable.test word ∧
      period.read word = Zremask.periodMinusOne.get word :=
  ⟨isSet_eq (by decide) word, read_eq (by decide) word⟩

@[simp] theorem BreakpointField.agrees (word : UInt32) :
    enable.isSet word = Register.Breakpoint.enable.test word ∧
      id.read word = Register.Breakpoint.id.get word ∧
      address.read word = Register.Breakpoint.address.get word ∧
      scalarBit.read word = Register.Breakpoint.scalarBit.get word ∧
      state.read word = Register.Breakpoint.state.get word :=
  ⟨isSet_eq (by decide) word, read_eq (by decide) word, read_eq (by decide) word,
    read_eq (by decide) word, read_eq (by decide) word⟩

@[simp] theorem StepsField.agrees (word : UInt32) :
    run.isSet word = Steps.run.test word ∧ count.read word = Steps.count.get word ∧
      resume.isSet word = Steps.resume.test word :=
  ⟨isSet_eq (by decide) word, read_eq (by decide) word, isSet_eq (by decide) word⟩

@[simp] theorem TrngField.agrees (word : UInt32) :
    postprocOff.isSet word = TrngControl.postprocOff.test word ∧
      resetRawFifo.isSet word = TrngControl.resetRawFifo.test word ∧
      resetNumberFifos.isSet word = TrngControl.resetNumberFifos.test word ∧
      readRaw.isSet word = TrngControl.readRaw.test word ∧
      rawAddress.read word = TrngControl.rawAddress.get word ∧
      rawReadOff.isSet word = TrngControl.rawReadOff.test word ∧
      bypass.isSet word = TrngControl.bypass.test word ∧
      bypassValue.isSet word = TrngControl.bypassValue.test word :=
  ⟨isSet_eq (by decide) word, isSet_eq (by decide) word, isSet_eq (by decide) word,
    isSet_eq (by decide) word, read_eq (by decide) word, isSet_eq (by decide) word,
    isSet_eq (by decide) word, isSet_eq (by decide) word⟩

/-! ### The words that configure an engine -/

/-- The fields of each register that configures an engine, as the device has them and as the
driver does. -/
def configuration : List (List (WordField × BitField)) := [
  [(BlindingField.enable, Blinding.enable), (BlindingField.bits, Blinding.bits)],
  [(ZremaskField.enable, Zremask.enable), (ZremaskField.period, Zremask.periodMinusOne)],
  [(BreakpointField.enable, Register.Breakpoint.enable),
    (BreakpointField.id, Register.Breakpoint.id),
    (BreakpointField.address, Register.Breakpoint.address),
    (BreakpointField.scalarBit, Register.Breakpoint.scalarBit),
    (BreakpointField.state, Register.Breakpoint.state)],
  [(StepsField.run, Steps.run), (StepsField.count, Steps.count),
    (StepsField.resume, Steps.resume)],
  [(TrngField.postprocOff, TrngControl.postprocOff),
    (TrngField.resetRawFifo, TrngControl.resetRawFifo),
    (TrngField.resetNumberFifos, TrngControl.resetNumberFifos),
    (TrngField.readRaw, TrngControl.readRaw), (TrngField.rawAddress, TrngControl.rawAddress),
    (TrngField.rawReadOff, TrngControl.rawReadOff), (TrngField.bypass, TrngControl.bypass),
    (TrngField.bypassValue, TrngControl.bypassValue)]]

/-- The two agree on each field, and no two fields of a register overlap. -/
theorem configuration_decodes : ∀ register ∈ configuration, ∀ f ∈ register,
    f.1.Decodes f.2 ∧ ∀ g ∈ register, g = f ∨ g.2.Apart f.2 := by decide

/-- A field is the same to the device and to a driver: the device reads what a driver puts there,
cut to the width of the field, and every other field of the register as it was before. -/
structure Arrives (register : List (WordField × BitField)) (f : WordField × BitField) : Prop where
  read (word : UInt32) : f.1.read word = f.2.get word
  isSet (word : UInt32) : f.1.isSet word = f.2.test word
  value (value word : UInt32) : f.1.read (f.2.set value word) = value &&& f.2.mask
  others (value word : UInt32) : ∀ g ∈ register, g ≠ f →
    g.1.read (f.2.set value word) = g.1.read word

theorem configuration_arrives {register : List (WordField × BitField)}
    (hregister : register ∈ configuration) {f : WordField × BitField} (hf : f ∈ register) :
    Arrives register f := by
  obtain ⟨hdecodes, hapart⟩ := configuration_decodes register hregister f hf
  refine ⟨read_eq hdecodes, isSet_eq hdecodes, fun value word => ?_, fun value word g hg hne => ?_⟩
  · rw [read_eq hdecodes, get_set hdecodes.2.2.2 hdecodes.2.2.1]
  · obtain ⟨hdecodes', -⟩ := configuration_decodes register hregister g hg
    rw [read_eq hdecodes', read_eq hdecodes', get_set_of_apart hdecodes'.2.2.2 hdecodes.2.2.2
      hdecodes'.2.2.1 hdecodes.2.2.1 ((hapart g hg).resolve_left hne)]

end Device

end CurveEngine
