import CurveEngine.Proofs.Latching
import CurveEngine.Proofs.Quiet

/-! States that differ in their latency only.

The latency of an engine says for how many looks at its status a command keeps it busy, and
nothing else of it does. `untimed` takes the latency and all waiting times out of a state, and
every access but a look at the status commutes with it (`untimed_readSource`,
`untimed_writeSink`), the commands and runs of the engine included, except that a scalar is
refused by an engine that has not warmed up. A look at the status may also fill the random FIFOs;
`refilled` is a state in which they are full. -/
namespace CurveEngine.Device

/-- The raw FIFO does not depend on those of the clients. -/
theorem Trng.rawStatus_refill (t : Trng) (size : Nat) :
    t.refill.rawStatus size = ((t.rawStatus size).1, (t.rawStatus size).2.refill) := by
  have hfifo : t.refill.rawFifo = t.rawFifo := rfl
  simp only [rawStatus, hfifo]
  split
  · rfl
  · rfl

namespace State
open Register

/-- A state with its latency and its waiting times taken out. -/
def untimed (s : State) : State :=
  { s with busy := 0, init := 0, warmup := 0, params := { s.params with latency := 0 } }

/-- States that are the same when they are untimed agree in all that time does not reach. -/
theorem field_of_untimed {s t : State} (h : s.untimed = t.untimed) {α : Type} (f : State → α)
    (hf : ∀ u, f u.untimed = f u) : f s = f t := by
  rw [← hf s, ← hf t, h]

/-- A function of states that does not look at the latency. -/
def Unhurried (f : State → State) : Prop := ∀ s, (f s).untimed = (f s.untimed).untimed

theorem Unhurried.apply {f : State → State} (hf : Unhurried f) {s t : State}
    (h : s.untimed = t.untimed) : (f s).untimed = (f t).untimed := by
  rw [hf s, hf t, h]

theorem unhurried_occupy : Unhurried occupy := fun _ => rfl

theorem Unhurried.occupied {f : State → State} (hf : Unhurried f) :
    Unhurried fun s => (f s).occupy := fun s => unhurried_occupy.apply (hf s)

/-! ### Multiplication -/

theorem veil_untimed : Veil untimed where
  idem _ := rfl
  outlook _ := rfl
  drawn _ _ _ := rfl
  draw _ _ _ := rfl
  refuse _ _ := rfl
  resize _ _ := rfl
  blind _ _ _ := rfl
  mix _ _ := rfl
  mask _ _ := rfl
  answer _ _ _ _ := rfl
  spend _ := rfl
  launch _ _ := rfl
  move _ _ := rfl
  arrive _ _ _ := rfl
  deliver _ _ _ _ _ := rfl

theorem unhurried_startMultiplication : Unhurried startMultiplication :=
  veil_untimed.startMultiplication

theorem unhurried_step (word : UInt32) : Unhurried (step word) := veil_untimed.step word

/-! ### Commands -/

theorem untimed_openWrite (s : State) (address : UInt32) (scalar : Bool)
    (h : scalar = true → s.warmup = 0) :
    (s.openWrite address scalar).untimed = (s.untimed.openWrite address scalar).untimed := by
  unfold State.openWrite
  cases scalar with
  | true =>
    have hready : s.untimed.warmup = s.warmup := (h rfl).symm
    simp only [if_true, hready]
    split
    · rfl
    · rfl
  | false =>
    simp only [Bool.false_eq_true, if_false]
    split
    · rfl
    · rfl

theorem unhurried_openRead (address : UInt32) (token : Bool) :
    Unhurried (openRead address token) := by
  intro s
  unfold State.openRead
  split
  · rfl
  · split
    · rfl
    · rfl

theorem unhurried_operate (word : UInt32) : Unhurried (operate word) := veil_untimed.operate word

theorem untimed_control (s : State) (word : UInt32) (h : OpensScalar word → s.warmup = 0) :
    (s.control word).untimed = (s.untimed.control word).untimed := by
  have hmultiplying : s.untimed.multiplying = s.multiplying := rfl
  have hoccupy : s.untimed.occupy = s.occupy.untimed := rfl
  have hclosed : ({ s.occupy.untimed with transfer := none } : State) =
      ({ s.occupy with transfer := none } : State).untimed := rfl
  simp only [State.control, ControlField.agrees]
  rw [hmultiplying]
  split
  · rfl
  rw [hoccupy, hclosed]
  split
  · rename_i hwrite
    exact s.occupy.untimed_openWrite _ _ fun hscalar => h ⟨hwrite, hscalar⟩
  split
  · exact unhurried_openRead _ _ s.occupy
  split
  · exact unhurried_startMultiplication _
  · exact unhurried_operate word _

theorem unhurried_writeData (value : UInt64) : Unhurried (writeData value) := by
  intro s
  have htransfer : s.untimed.transfer = s.transfer := rfl
  unfold State.writeData
  rw [htransfer]
  cases s.transfer with
  | none => rfl
  | some transfer =>
    cases transfer with
    | write destination index => cases destination <;> rfl
    | read value index => rfl

/-! ### Registers -/

theorem unhurried_setSize (size : Nat) : Unhurried (setSize size) := veil_untimed.setSize size

theorem unhurried_setBlinding (word : UInt32) : Unhurried (setBlinding word) :=
  veil_untimed.setBlinding word

theorem unhurried_setShuffle (enable : Bool) : Unhurried (setShuffle enable) :=
  veil_untimed.setShuffle enable

theorem unhurried_drawToken : Unhurried drawToken := fun _ => rfl

theorem unhurried_writeDebug (r : Sink) (word : UInt32) : Unhurried (writeDebug r word) := by
  intro s
  cases r with
  | halt =>
    simp only [writeDebug]
    split
    · rfl
    · rfl
  | steps => exact unhurried_step word s
  | _ => rfl

/-- No write depends on the latency, except that a scalar is not accepted before there is enough
randomness to mask it. -/
theorem untimed_writeSink {s t : State} (h : s.untimed = t.untimed) (r : Sink) (value : UInt64)
    (hwarm : r = .control → OpensScalar value.toUInt32 → s.warmup = 0 ∧ t.warmup = 0) :
    (s.writeSink r value).untimed = (t.writeSink r value).untimed := by
  have hdebug : Unhurried fun u => if u.params.debug then u.writeDebug r value.toUInt32 else u := by
    intro u
    have hbank : u.untimed.params.debug = u.params.debug := rfl
    dsimp only
    rw [hbank]
    split
    · exact unhurried_writeDebug r _ u
    · rfl
  cases r with
  | control =>
    have hs := s.untimed_control value.toUInt32 fun ho => (hwarm rfl ho).1
    have ht := t.untimed_control value.toUInt32 fun ho => (hwarm rfl ho).2
    exact hs.trans (h ▸ ht.symm)
  | writeData => exact (unhurried_writeData value).apply h
  | primeSize => exact (unhurried_setSize _).occupied.apply h
  | blinding => exact (unhurried_setBlinding _).occupied.apply h
  | shuffle => exact (unhurried_setShuffle _).occupied.apply h
  | token => exact unhurried_drawToken.occupied.apply h
  | r0Null | r1Null | zremask | irq | errorAck | smallScalar | softReset =>
    exact Unhurried.apply (fun _ => rfl) h
  | _ => exact hdebug.apply h

/-- What is read does not depend on the latency, unless it is the status. -/
theorem untimed_readSource {r : Source} (hr : r ≠ .status) (s : State) :
    s.untimed.readSource r = ((s.readSource r).1, (s.readSource r).2.untimed) := by
  cases r with
  | status => exact absurd rfl hr
  | readData =>
    have htransfer : s.untimed.transfer = s.transfer := rfl
    simp only [readSource, sourceWord, State.readData]
    rw [htransfer]
    cases s.transfer with
    | none => rfl
    | some transfer => cases transfer <;> rfl
  | _ => rfl

/-! ### Random FIFOs -/

/-- A state whose random FIFOs have been filled. -/
def refilled (s : State) : State := { s with trng := s.trng.refill }

theorem refilled_of_full {s : State} (h : s.trng.waiting = Trng.depths) : s.refilled = s := by
  rw [State.refilled, Trng.refill, ← h]

/-- What is read does not depend on the random FIFOs, unless it is the status or one of them. -/
theorem refilled_readSource {r : Source} (hr : r.isPlain = true) (s : State) :
    s.refilled.readSource r = ((s.readSource r).1, (s.readSource r).2.refilled) := by
  cases r with
  | status | readData | waiting => cases hr
  | rawFifoStatus =>
    have hraw : s.refilled.trng.rawStatus s.refilled.params.rawSize =
        ((s.trng.rawStatus s.params.rawSize).1, (s.trng.rawStatus s.params.rawSize).2.refill) :=
      s.trng.rawStatus_refill s.params.rawSize
    simp only [readSource, sourceWord, hraw]
    rfl
  | _ => rfl

/-- What may be written at any time leaves the random FIFOs of an engine at rest alone, and does
not keep it busy. -/
theorem refilled_writeSink {r : Sink} (hr : r.isFree = true) {s : State} (hs : s.Coherent)
    (hresting : s.multiplying = false) (value : UInt64) :
    s.refilled.writeSink r value = (s.writeSink r value).refilled ∧
      (s.writeSink r value).busy = s.busy := by
  have hdebug (f : State → State) (hf : f s.refilled = (f s).refilled) (hbusy : (f s).busy = s.busy) :
      (if s.params.debug then f s.refilled else s.refilled) =
          (if s.params.debug then f s else s).refilled ∧
        (if s.params.debug then f s else s).busy = s.busy := by
    split
    · exact ⟨hf, hbusy⟩
    · exact ⟨rfl, rfl⟩
  have hhalted := hs.not_halted hresting
  have hhalted' : s.refilled.isHalted = false := hhalted
  cases r with
  | control | writeData | r0Null | r1Null | primeSize | blinding | shuffle | zremask | token | irq
  | smallScalar | errorAck | trngControl | trngConfig | xyShuffle | axiMask | tokenMask => cases hr
  | softReset => exact ⟨rfl, rfl⟩
  | steps =>
    refine hdebug (step value.toUInt32) ?_ ?_
    · simp only [State.step, hhalted, hhalted', Bool.not_false, if_true]
    · simp only [State.step, hhalted, Bool.not_false, if_true]
  | halt =>
    refine hdebug (writeDebug .halt value.toUInt32) ?_ ?_
    · simp only [State.writeDebug]
      split <;> rfl
    · simp only [State.writeDebug]
      split <;> rfl
  | _ => exact hdebug (writeDebug _ value.toUInt32) rfl rfl

/-! ### Level states, and near ones -/

/-- Nothing but time tells the states apart. -/
def Level (s t : State) : Prop := s.untimed = t.untimed

/-- Nothing but time and the random FIFOs tells the states apart, and during a multiplication time
alone. -/
structure Near (s t : State) : Prop where
  same : s.refilled.untimed = t.refilled.untimed
  running : s.multiplying = true → s.Level t

variable {s t u : State}

/-- Near states agree in all that neither time nor the random FIFOs reach. -/
theorem Near.field (h : s.Near t) {α : Type} (f : State → α)
    (hf : ∀ u, f u.refilled.untimed = f u) : f s = f t := by
  rw [← hf s, ← hf t, h.same]

theorem Near.multiplying_eq (h : s.Near t) : s.multiplying = t.multiplying :=
  h.field State.multiplying fun _ => rfl

theorem Near.refl (s : State) : s.Near s := ⟨rfl, fun _ => rfl⟩

theorem Near.symm (h : s.Near t) : t.Near s where
  same := h.same.symm
  running hrunning := (h.running (h.multiplying_eq.trans hrunning)).symm

theorem Near.trans (h : s.Near t) (h' : t.Near u) : s.Near u where
  same := h.same.trans h'.same
  running hrunning := (h.running hrunning).trans
    (h'.running (h.multiplying_eq.symm.trans hrunning))

theorem Level.near (h : s.Level t) : s.Near t := ⟨congrArg refilled h, fun _ => h⟩

/-- Near states are level where the random FIFOs are full. -/
theorem Near.level (h : s.Near t) (hs : s.trng.waiting = Trng.depths)
    (ht : t.trng.waiting = Trng.depths) : s.Level t := by
  rw [Level, ← refilled_of_full hs, ← refilled_of_full ht, h.same]

/-- A look at the status fills the random FIFOs of an engine at rest that is no longer busy. -/
theorem near_readStatus (s : State) : s.readStatus.2.Near s := by
  cases hmultiplying : s.multiplying with
  | true =>
    refine Level.near ?_
    simp only [Level, readStatus, hmultiplying, Bool.not_true, Bool.and_false, Bool.false_eq_true,
      if_false]
    rfl
  | false =>
    refine ⟨?_, fun hrunning => ?_⟩
    · simp only [readStatus]
      split
      · rfl
      · rfl
    · cases hmultiplying.symm.trans hrunning

theorem Near.readSource {r : Source} (hr : r.isPlain = true) (h : s.Near t) :
    (s.readSource r).1 = (t.readSource r).1 ∧ (s.readSource r).2.Near (t.readSource r).2 := by
  have hstatus := Source.ne_status_of_isPlain hr
  have hread (u : State) : u.refilled.untimed.readSource r =
      ((u.readSource r).1, (u.readSource r).2.refilled.untimed) := by
    rw [untimed_readSource hstatus, refilled_readSource hr]
  have hsame := hread s
  rw [h.same, hread t, Prod.mk.injEq] at hsame
  refine ⟨hsame.1.symm, hsame.2.symm, fun hrunning => ?_⟩
  have hmultiplying : (s.readSource r).2.multiplying = s.multiplying :=
    congrArg (fun core => core.1.run.isSome) (core_readSource r s)
  have hlevel := untimed_readSource hstatus s
  rw [show s.untimed = t.untimed from h.running (hmultiplying.symm.trans hrunning),
    untimed_readSource hstatus t] at hlevel
  exact (congrArg Prod.snd hlevel).symm

/-- Near states stay near, whatever is written that may be written at any time. -/
theorem Near.writeSink {r : Sink} (hr : r.isFree = true) (hs : s.Coherent) (ht : t.Coherent)
    (h : s.Near t) (value : UInt64) : (s.writeSink r value).Near (t.writeSink r value) := by
  have hcontrol := Sink.ne_control_of_isFree hr
  -- A step of a multiplication draws from the random FIFOs, which have to be the same for it.
  cases hrunning : s.multiplying with
  | true => exact Level.near (untimed_writeSink (h.running hrunning) r value fun h => absurd h hcontrol)
  | false =>
    have hresting : t.multiplying = false := h.multiplying_eq.symm.trans hrunning
    refine ⟨?_, fun hrunning' => ?_⟩
    · rw [← (refilled_writeSink hr hs hrunning value).1, ← (refilled_writeSink hr ht hresting value).1]
      exact untimed_writeSink h.same r value fun h => absurd h hcontrol
    · cases (resting_writeSink hcontrol value hs hrunning).symm.trans hrunning'

end State

end CurveEngine.Device
