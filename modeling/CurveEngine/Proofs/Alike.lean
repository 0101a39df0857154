import CurveEngine.Proofs.Reachable
import CurveEngine.Proofs.Veils

/-! States that differ in their waiting times only.

How long a driver polls decides how far the counters of an engine have run down, how
full its random FIFOs are, and which limb was fetched last. `settled` takes all of that
out of a state, and two states are `Alike` if nothing else tells them apart. Except for
a scalar that is opened too early, no write depends on what `settled` takes out
(`Alike.writeSink`), so alike states stay alike. -/
namespace CurveEngine.Device
open Register

namespace Trng

theorem bytes_refill (t : Trng) (count : Nat) :
    t.refill.bytes count = ((t.bytes count).1, (t.bytes count).2.refill) := by
  have hbypass : t.refill.bypass = t.bypass := rfl
  unfold bytes
  rw [hbypass]
  cases t.bypass with
  | none => rfl
  | some bit => rfl

/-- How full the FIFOs are does not change what is drawn. -/
theorem draw_refill (t : Trng) (bits : Nat) (channel : Channel) :
    (t.refill.draw bits channel).1 = (t.draw bits channel).1 ∧
      (t.refill.draw bits channel).2.refill = (t.draw bits channel).2.refill := by
  simp only [draw, bytes_refill]
  exact ⟨trivial, rfl⟩

end Trng

namespace State

/-- A state with the passage of time taken out. -/
def settled (s : State) : State :=
  { s with
    busy := 0
    init := 0
    warmup := 0
    limb := 0
    limbReady := false
    trng := s.trng.refill }

/-- The states differ in their waiting times only. -/
def Alike (s t : State) : Prop := s.settled = t.settled

theorem Alike.refl (s : State) : s.Alike s := rfl

theorem Alike.symm {s t : State} (h : s.Alike t) : t.Alike s := Eq.symm h

theorem Alike.trans {s t u : State} (h : s.Alike t) (h' : t.Alike u) : s.Alike u := Eq.trans h h'

/-- Alike states agree in everything but waiting times. -/
theorem Alike.field {s t : State} (h : s.Alike t) {α : Type} (f : State → α)
    (hf : ∀ u, f u.settled = f u) : f s = f t := by
  rw [← hf s, ← hf t, h]

/-- A function of states that looks past the passage of time. -/
def Timeless (f : State → State) : Prop := ∀ s, (f s).settled = (f s.settled).settled

theorem Alike.apply {f : State → State} {s t : State} (h : s.Alike t) (hf : Timeless f) :
    (f s).Alike (f t) := by
  show (f s).settled = (f t).settled
  rw [hf s, hf t, h]

theorem Timeless.comp {f g : State → State} (hf : Timeless f) (hg : Timeless g) :
    Timeless fun s => f (g s) := by
  intro s
  rw [hf (g s), hg s, ← hf]

/-! ### Commands -/

theorem settled_readStatus (s : State) : s.readStatus.2.Alike s := by
  simp only [Alike, settled, readStatus]
  split
  · rfl
  · rfl

theorem settled_draw (s : State) (bits : Nat) (channel : Channel) :
    (s.settled.draw bits channel).1 = (s.draw bits channel).1 ∧
      (s.settled.draw bits channel).2.Alike (s.draw bits channel).2 := by
  obtain ⟨hvalue, hrest⟩ := s.trng.draw_refill bits channel
  refine ⟨hvalue, ?_⟩
  simp only [Alike, settled, draw, hrest]

/-! ### Multiplication -/

theorem veil_settled : Veil settled where
  idem _ := rfl
  outlook _ := rfl
  drawn s bits channel := (s.settled_draw bits channel).1
  draw bits channel s := (s.settled_draw bits channel).2.symm
  refuse _ _ := rfl
  resize _ _ := rfl
  blind _ _ _ := rfl
  mix _ _ := rfl
  mask _ _ := rfl
  answer _ _ _ _ := rfl
  spend _ := rfl
  launch _ _ := rfl
  move _ _ := rfl
  arrive _ _ _ := rfl
  deliver _ _ _ _ _ := rfl

theorem timeless_startMultiplication : Timeless startMultiplication :=
  veil_settled.startMultiplication

/-! ### Registers -/

theorem timeless_step (word : UInt32) : Timeless (step word) := veil_settled.step word

/-- The control word opens a transfer of the scalar. -/
def OpensScalar (word : UInt32) : Prop :=
  Control.writeNumber.test word = true ∧ Control.writeScalar.test word = true

theorem settled_openWrite (s : State) (address : UInt32) (scalar : Bool)
    (h : scalar = true → s.warmup = 0) :
    (s.openWrite address scalar).Alike (s.settled.openWrite address scalar) := by
  unfold State.openWrite
  cases scalar with
  | true =>
    have hready : s.settled.warmup = s.warmup := (h rfl).symm
    simp only [if_true, hready]
    split
    · rfl
    · rfl
  | false =>
    simp only [Bool.false_eq_true, if_false]
    split
    · rfl
    · rfl

theorem timeless_openRead (address : UInt32) (token : Bool) : Timeless (openRead address token) := by
  intro s
  unfold State.openRead
  split
  · rfl
  · split
    · rfl
    · rfl

theorem timeless_operate (word : UInt32) : Timeless (operate word) := veil_settled.operate word

theorem settled_control (s : State) (word : UInt32) (h : OpensScalar word → s.warmup = 0) :
    (s.control word).Alike (s.settled.control word) := by
  have hmultiplying : s.settled.multiplying = s.multiplying := rfl
  unfold State.control
  simp only [ControlField.agrees]
  rw [hmultiplying]
  split
  · rfl
  have hoccupy : s.occupy.Alike s.settled.occupy := rfl
  split
  · rename_i hwrite
    have hs := settled_openWrite s.occupy (Control.address.get word) (Control.writeScalar.test word)
      fun hscalar => h ⟨hwrite, hscalar⟩
    have ht := settled_openWrite s.settled.occupy (Control.address.get word)
      (Control.writeScalar.test word) fun _ => rfl
    exact hs.trans ht.symm
  split
  · exact hoccupy.apply (timeless_openRead _ _)
  have hclosed : ({ s.occupy with transfer := none } : State).Alike
      { s.settled.occupy with transfer := none } := rfl
  split
  · exact hclosed.apply timeless_startMultiplication
  · exact hclosed.apply (timeless_operate word)

theorem timeless_writeData (value : UInt64) : Timeless (writeData value) := by
  intro s
  have htransfer : s.settled.transfer = s.transfer := rfl
  unfold State.writeData
  rw [htransfer]
  cases s.transfer with
  | none => rfl
  | some transfer =>
    cases transfer with
    | write destination index =>
      cases destination with
      | number n => rfl
      | scalar => rfl
    | read value index => rfl

theorem timeless_setSize (size : Nat) : Timeless (setSize size) := veil_settled.setSize size

theorem timeless_setBlinding (word : UInt32) : Timeless (setBlinding word) :=
  veil_settled.setBlinding word

theorem timeless_setShuffle (enable : Bool) : Timeless (setShuffle enable) :=
  veil_settled.setShuffle enable

theorem timeless_drawToken : Timeless drawToken := veil_settled.drawToken

theorem timeless_writeDebug (r : Sink) (word : UInt32) : Timeless (writeDebug r word) := by
  intro s
  cases r with
  | halt =>
    simp only [writeDebug]
    split
    · rfl
    · rfl
  | steps => exact timeless_step word s
  | _ => rfl

/-- No write depends on the passage of time, except that a scalar is not accepted before
there is enough randomness to mask it. -/
theorem settled_writeSink (s : State) (r : Sink) (value : UInt64)
    (h : r = .control → OpensScalar value.toUInt32 → s.warmup = 0) :
    (s.writeSink r value).Alike (s.settled.writeSink r value) := by
  have hdebug : (if s.params.debug then s.writeDebug r value.toUInt32 else s).Alike
      (if s.params.debug then s.settled.writeDebug r value.toUInt32 else s.settled) := by
    split
    · exact timeless_writeDebug r _ s
    · rfl
  have hoccupy : Timeless occupy := fun _ => rfl
  cases r with
  | control => exact settled_control s _ (h rfl)
  | writeData => exact timeless_writeData value s
  | primeSize => exact hoccupy.comp (timeless_setSize _) s
  | blinding => exact hoccupy.comp (timeless_setBlinding _) s
  | shuffle => exact hoccupy.comp (timeless_setShuffle _) s
  | token => exact hoccupy.comp timeless_drawToken s
  | r0Null | r1Null | zremask | irq | errorAck | smallScalar | softReset => rfl
  | _ => exact hdebug

theorem Alike.writeSink {s t : State} (h : s.Alike t) (r : Sink) (value : UInt64)
    (hs : r = .control → OpensScalar value.toUInt32 → s.warmup = 0 ∧ t.warmup = 0) :
    (s.writeSink r value).Alike (t.writeSink r value) := by
  have hleft := settled_writeSink s r value fun hr ho => (hs hr ho).1
  have hright := settled_writeSink t r value fun hr ho => (hs hr ho).2
  rw [show s.settled = t.settled from h] at hleft
  exact hleft.trans hright.symm

end State

end CurveEngine.Device
