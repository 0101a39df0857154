import CurveEngine.Proofs.Sequencing
import CurveEngine.Proofs.Veils

/-! States that differ in the layout of their words only.

The width of a big-number word decides how much of a number a data word carries, and how far
a transfer has come; nothing else of an engine depends on it. `bare` takes the width and the
open transfer out of a state. Every access but those of data words and of the capabilities
commutes with it (`bare_readSource`, `bare_writeSink`), the commands and runs of the engine
included. -/
namespace CurveEngine.Device.State
open Register

/-- A state with the layout of its words taken out. -/
def bare (s : State) : State :=
  { s with params := { s.params with wideWords := false }, transfer := none }

/-- States that are the same when they are bare agree in all that a layout does not reach. -/
theorem field_of_bare {s t : State} (h : s.bare = t.bare) {α : Type} (f : State → α)
    (hf : ∀ u, f u.bare = f u) : f s = f t := by
  rw [← hf s, ← hf t, h]

/-- A function of states that does not look at the layout. -/
def Layoutless (f : State → State) : Prop := ∀ s, (f s).bare = (f s.bare).bare

theorem Layoutless.apply {f : State → State} (hf : Layoutless f) {s t : State}
    (h : s.bare = t.bare) : (f s).bare = (f t).bare := by
  rw [hf s, hf t, h]

/-! ### Multiplication -/

theorem veil_bare : Veil bare where
  idem _ := rfl
  outlook _ := rfl
  drawn _ _ _ := rfl
  draw _ _ _ := rfl
  refuse _ _ := rfl
  resize _ _ := rfl
  blind _ _ _ := rfl
  mix _ _ := rfl
  mask _ _ := rfl
  answer _ _ _ _ := rfl
  spend _ := rfl
  launch _ _ := rfl
  move _ _ := rfl
  arrive _ _ _ := rfl
  deliver _ _ _ _ _ := rfl

theorem layoutless_startMultiplication : Layoutless startMultiplication :=
  veil_bare.startMultiplication

theorem layoutless_step (word : UInt32) : Layoutless (step word) := veil_bare.step word

/-! ### Commands -/

theorem bare_openWrite (s : State) (address : UInt32) (scalar : Bool) :
    (s.openWrite address scalar).bare = (s.bare.openWrite address scalar).bare := by
  have hwarmup : s.bare.warmup = s.warmup := rfl
  unfold State.openWrite
  rw [hwarmup]
  split
  · split
    · rfl
    · rfl
  · split
    · rfl
    · rfl

theorem bare_openRead (s : State) (address : UInt32) (token : Bool) :
    (s.openRead address token).bare = (s.bare.openRead address token).bare := by
  unfold State.openRead
  split
  · rfl
  · split
    · rfl
    · rfl

theorem layoutless_operate (word : UInt32) : Layoutless (operate word) := veil_bare.operate word

theorem bare_control (s : State) (word : UInt32) :
    (s.control word).bare = (s.bare.control word).bare := by
  have hmultiplying : s.bare.multiplying = s.multiplying := rfl
  have hoccupy : s.bare.occupy = s.occupy.bare := rfl
  have hclosed : ({ s.occupy.bare with transfer := none } : State) =
      ({ s.occupy with transfer := none } : State).bare := rfl
  unfold State.control
  rw [hmultiplying]
  split
  · rfl
  dsimp only
  rw [hoccupy, hclosed]
  split
  · exact s.occupy.bare_openWrite _ _
  split
  · exact s.occupy.bare_openRead _ _
  split
  · exact layoutless_startMultiplication _
  · exact layoutless_operate word _

/-! ### Registers -/

theorem layoutless_occupied {f : State → State} (hf : Layoutless f) :
    Layoutless fun s => (f s).occupy := fun s => congrArg occupy (hf s)

theorem layoutless_writeDebug (r : Sink) (word : UInt32) : Layoutless (writeDebug r word) := by
  intro s
  cases r with
  | halt =>
    simp only [writeDebug]
    split
    · rfl
    · rfl
  | steps => exact layoutless_step word s
  | _ => rfl

/-- What is written does the same whatever the layout, unless it is a data word. -/
theorem bare_writeSink {r : Sink} (hr : r ≠ .writeData) (value : UInt64) :
    Layoutless (writeSink r value) := by
  intro s
  have hdebug : (if s.params.debug then s.writeDebug r value.toUInt32 else s).bare =
      (if s.bare.params.debug then s.bare.writeDebug r value.toUInt32 else s.bare).bare := by
    show _ = (if s.params.debug then s.bare.writeDebug r value.toUInt32 else s.bare).bare
    split
    · exact layoutless_writeDebug r _ s
    · rfl
  cases r with
  | writeData => exact absurd rfl hr
  | control => exact s.bare_control _
  | primeSize => exact layoutless_occupied (veil_bare.setSize _) s
  | blinding => exact layoutless_occupied (veil_bare.setBlinding _) s
  | shuffle => exact layoutless_occupied (veil_bare.setShuffle _) s
  | r0Null | r1Null | zremask | token | irq | errorAck | smallScalar | softReset => rfl
  | _ => exact hdebug

/-- What is read is the same whatever the layout, unless it tells the layout. -/
theorem bare_readSource {r : Source} (hdata : r ≠ .readData) (hcapabilities : r ≠ .capabilities)
    (s : State) :
    s.bare.readSource r = ((s.readSource r).1, (s.readSource r).2.bare) := by
  cases r with
  | readData => exact absurd rfl hdata
  | capabilities => exact absurd rfl hcapabilities
  | status =>
    have hword : s.bare.readStatus = (s.readStatus.1, s.readStatus.2.bare) := rfl
    simp only [readSource, sourceWord, hword]
    rfl
  | _ => rfl

end CurveEngine.Device.State
