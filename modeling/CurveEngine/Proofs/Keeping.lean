import CurveEngine.Device.Registers

/-! What the operations of a device touch.

Each operation changes a few registers of the state and leaves the rest alone. There is one
lemma for each, and it names those registers: a property that holds whatever they contain
holds when the operation is over. So whoever needs that an operation keeps something does not
look into it, and a change to one operation is a change to its lemma. -/
namespace CurveEngine.Device.State
open Register

variable {P : State → Prop} {s t : State}

/-! ### Reads -/

theorem readData_keeps (h : ∀ errors transfer, P { s with errors, transfer }) : P s.readData.2 := by
  unfold State.readData
  split
  · exact h _ _
  · exact h _ _

/-- A read moves an open transfer on, or lets time pass. -/
theorem readSource_keeps
    (h : ∀ errors transfer busy init warmup trng,
      P { s with errors, transfer, busy, init, warmup, trng }) (r : Source) :
    P (s.readSource r).2 := by
  cases r with
  | readData => exact readData_keeps fun _ _ => h _ _ _ _ _ _
  | _ => exact h _ _ _ _ _ _

/-! ### Commands -/

theorem openWrite_keeps
    (h : ∀ errors numbers scalar r0Null r1Null transfer,
      P { s with errors, numbers, scalar, r0Null, r1Null, transfer })
    (address : UInt32) (scalar : Bool) : P (s.openWrite address scalar) := by
  unfold State.openWrite
  split
  · split
    · exact h _ _ _ _ _ _
    · exact h _ _ _ _ _ _
  · split
    · exact h _ _ _ _ _ _
    · exact h _ _ _ _ _ _

theorem openRead_keeps (h : ∀ errors transfer, P { s with errors, transfer })
    (address : UInt32) (token : Bool) : P (s.openRead address token) := by
  unfold State.openRead
  split
  · exact h _ _
  · split
    · exact h _ _
    · exact h _ _

theorem operate_keeps
    (h : ∀ numbers r1Null yes operationTime, P { s with numbers, r1Null, yes, operationTime })
    (word : UInt32) : P (s.operate word) := by
  unfold State.operate
  repeat' split
  all_goals exact h _ _ _ _

theorem writeData_keeps
    (h : ∀ errors numbers scalar transfer busy,
      P { s with errors, numbers, scalar, transfer, busy })
    (value : UInt64) : P (s.writeData value) := by
  unfold State.writeData
  dsimp only
  split
  · split
    · exact h _ _ _ _ _
    · exact h _ _ _ _ _
  · exact h _ _ _ _ _

/-! ### Multiplications -/

theorem finish_keeps
    (h : ∀ numbers r1Null token warmup busy sequencer,
      P { s with numbers, r1Null, token, warmup, busy, sequencer }) : P s.finish := by
  unfold State.finish
  split
  · exact h _ _ _ _ _ s.sequencer
  · exact h _ _ _ _ _ _

/-- However far a run goes, and whether it ends or not. -/
theorem walk_keeps (passed pending : List Position) (result : Point) (budget : Option Nat)
    (h : ∀ numbers r1Null token warmup busy sequencer operationTime fp,
      P { s with numbers, r1Null, token, warmup, busy, sequencer, operationTime, fp }) :
    P (s.walk passed result budget pending) := by
  induction pending generalizing s passed budget with
  | nil => exact finish_keeps fun _ _ _ _ _ _ => h _ _ _ _ _ _ _ _
  | cons p rest ih =>
    simp only [State.walk]
    split
    · exact h _ _ _ _ _ _ _ _
    · exact ih _ _ fun _ _ _ _ _ _ _ _ => h _ _ _ _ _ _ _ _

theorem proceed_keeps (budget : Option Nat)
    (h : ∀ numbers r1Null token warmup busy sequencer operationTime fp,
      P { s with numbers, r1Null, token, warmup, busy, sequencer, operationTime, fp }) :
    P (s.proceed budget) := by
  unfold State.proceed
  split
  · exact finish_keeps fun _ _ _ _ _ _ => h _ _ _ _ _ _ _ _
  · exact walk_keeps _ _ _ _ h

theorem step_keeps (word : UInt32)
    (h : ∀ numbers r1Null token warmup busy sequencer operationTime fp,
      P { s with numbers, r1Null, token, warmup, busy, sequencer, operationTime, fp }) :
    P (s.step word) := by
  unfold State.step
  split
  · exact h _ _ _ _ _ _ _ _
  split
  · exact proceed_keeps _ fun _ _ _ _ _ _ _ _ => h _ _ _ _ _ _ _ _
  split
  · exact proceed_keeps _ fun _ _ _ _ _ _ _ _ => h _ _ _ _ _ _ _ _
  · exact h _ _ _ _ _ _ _ _

/-! ### Settings -/

theorem setSize_keeps (h : ∀ errors size, P { s with errors, size }) (size : Nat) :
    P (s.setSize size) := by
  unfold State.setSize
  split
  · exact h _ _
  · exact h _ _

theorem setBlinding_keeps (h : ∀ errors blinding, P { s with errors, blinding }) (word : UInt32) :
    P (s.setBlinding word) := by
  unfold State.setBlinding
  dsimp only
  split
  · exact h _ _
  · split
    · exact h _ _
    · exact h _ _

theorem setShuffle_keeps (h : ∀ errors shuffle, P { s with errors, shuffle }) (enable : Bool) :
    P (s.setShuffle enable) := by
  unfold State.setShuffle
  split
  · exact h _ _
  · exact h _ _

/-! ### The debug bank -/

/-- A write of the debug bank is carried out on a debug engine, and ignored on any other. -/
theorem debug_keeps (hs : P s) (ht : P t) : P (if s.params.debug then t else s) := by
  split
  · exact ht
  · exact hs

/-- A write of the halt register arms a halt, or does nothing. -/
theorem writeDebug_halt_keeps
    (h : ∀ haltPending, P { s with sequencer := { s.sequencer with haltPending } })
    (word : UInt32) : P (s.writeDebug .halt word) := by
  unfold State.writeDebug
  dsimp only
  split
  · exact h true
  · exact h s.sequencer.haltPending

end CurveEngine.Device.State
