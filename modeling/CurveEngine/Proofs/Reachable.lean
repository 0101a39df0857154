import CurveEngine.Bench
import CurveEngine.Proofs.Decoding
import CurveEngine.Proofs.Keeping
import CurveEngine.Proofs.Running
import Mathlib.Algebra.Group.Nat.Defs
import Mathlib.Tactic.Common

/-! The states that an engine can be brought into, and what holds in all of them.

`Reachable` closes the power-up states under accesses of the bus, refused ones
included: any width, any offset, any value, in any order. Every reachable state is
`Coherent`: the waiting times stay within what they are set to, only errors that have a
name are latched, Fp memory keeps its size, and a multiplication in progress is
halted. A procedure makes accesses only, so it leads from reachable states to
reachable states (`Ends.coherent`). -/
namespace CurveEngine.Device
open Register

/-- The bus of an engine. Nothing that a driver says is heard there. -/
def bus : Bus State where
  read := State.read
  write := State.write
  hear _ s := s

/-- A state that an engine can be brought into over its bus. -/
inductive Reachable : State → Prop
  | powerUp (params : Parameters) (entropy : Nat → UInt8) : Reachable (.powerUp params entropy)
  | read (size : AccessSize) (offset : UInt32) {s : State} (h : Reachable s) :
    Reachable (s.read size offset).2
  | write (size : AccessSize) (offset : UInt32) (value : UInt64) {s : State} (h : Reachable s) :
    Reachable (s.write size offset value).2

/-- An access that an engine is asked for. -/
inductive Request where
  | read (size : AccessSize) (offset : UInt32)
  | write (size : AccessSize) (offset : UInt32) (value : UInt64)
  deriving Repr, DecidableEq

/-- An engine after an access, whatever the answer was. -/
def State.serve (s : State) : Request → State
  | .read size offset => (s.read size offset).2
  | .write size offset value => (s.write size offset value).2

/-- An engine after one access after the other. -/
def State.serveAll (s : State) (requests : List Request) : State := requests.foldl State.serve s

theorem Reachable.serve {s : State} (h : Reachable s) (request : Request) :
    Reachable (s.serve request) := by
  cases request with
  | read size offset => exact h.read size offset
  | write size offset value => exact h.write size offset value

theorem Reachable.serveAll {s : State} (h : Reachable s) (requests : List Request) :
    Reachable (s.serveAll requests) :=
  List.foldlRecOn requests _ h fun _ hs request _ => hs.serve request

/-- The debug machine is halted during a multiplication and idle otherwise. -/
def Sequencer.Steady (q : Sequencer) : Prop :=
  q.state = if q.run.isSome then .halted else .idle

namespace State

/-- Waiting times, errors and memory are within their bounds. -/
structure Bounded (s : State) : Prop where
  busy_le : s.busy ≤ s.params.latency
  init_le : s.init ≤ initReads
  warmup_le : s.warmup ≤ warmupReads
  errors_lt : s.errors.toNat < 2 ^ 15
  fp_size : s.fp.size = (FpMemory.capacity s.params.maxSize s.params.limbWidth).toNat

/-- What holds between any two accesses. -/
structure Coherent (s : State) : Prop extends Bounded s where
  steady : s.sequencer.Steady

/-- What is bounded of a state. -/
def extent (s : State) : Parameters × Nat × Nat × Nat × UInt32 × FpMemory :=
  (s.params, s.busy, s.init, s.warmup, s.errors, s.fp)

theorem Bounded.frame {s t : State} (h : s.Bounded) (same : t.extent = s.extent) : t.Bounded := by
  simp only [extent, Prod.mk.injEq] at same
  obtain ⟨hparams, hbusy, hinit, hwarmup, herrors, hfp⟩ := same
  constructor
  · rw [hbusy, hparams]
    exact h.busy_le
  · rw [hinit]
    exact h.init_le
  · rw [hwarmup]
    exact h.warmup_le
  · rw [herrors]
    exact h.errors_lt
  · rw [hfp, hparams]
    exact h.fp_size

theorem Coherent.frame {s t : State} (h : s.Coherent)
    (same : (t.extent, t.sequencer) = (s.extent, s.sequencer)) : t.Coherent := by
  rw [Prod.mk.injEq] at same
  refine ⟨h.toBounded.frame same.1, ?_⟩
  rw [same.2]
  exact h.steady

/-- The debug machine of an engine at rest is idle. -/
theorem Coherent.idle {s : State} (h : s.Coherent) (hresting : s.multiplying = false) :
    s.sequencer.state = .idle := by
  have hsteady := h.steady
  rwa [Sequencer.Steady, show s.sequencer.run.isSome = false from hresting] at hsteady

theorem Coherent.not_halted {s : State} (h : s.Coherent) (hresting : s.multiplying = false) :
    s.isHalted = false := by
  rw [State.isHalted, Sequencer.isHalted, h.idle hresting]
  rfl

theorem coherent_powerUp (params : Parameters) (entropy : Nat → UInt8) :
    (powerUp params entropy).Coherent where
  busy_le := Nat.zero_le _
  init_le := Nat.zero_le _
  warmup_le := Nat.le_refl _
  errors_lt := Nat.two_pow_pos 15
  fp_size := Array.size_replicate
  steady := rfl

/-! ### Small steps -/

theorem mask_lt (error : HardwareError) : error.mask.toNat < 2 ^ 15 := by
  cases error <;> decide

theorem Bounded.latch {s : State} (h : s.Bounded) (error : HardwareError) :
    (s.latch error).Bounded :=
  { h with
    errors_lt := by
      show (s.errors ||| error.mask).toNat < 2 ^ 15
      rw [UInt32.toNat_or]
      exact Nat.or_lt_two_pow h.errors_lt (mask_lt error) }

theorem Coherent.latch {s : State} (h : s.Coherent) (error : HardwareError) :
    (s.latch error).Coherent := ⟨h.toBounded.latch error, h.steady⟩

theorem Coherent.occupy {s : State} (h : s.Coherent) : s.occupy.Coherent :=
  { h with busy_le := Nat.le_refl _ }

theorem Bounded.effectiveScalar {s : State} (h : s.Bounded) : s.effectiveScalar.2.Bounded := by
  unfold State.effectiveScalar
  split
  · exact h.frame rfl
  · split
    · exact h.frame rfl
    · exact h

/-- Drawing the random values of a run touches the generator alone. -/
theorem drawRandoms_snd (s : State) (alpha : Option Nat) :
    ∃ trng, (s.drawRandoms alpha).2 = { s with trng } := by
  have hdraw (s : State) (bits : Nat) (channel : Channel) :
      (s.draw bits channel).2 = { s with trng := (s.trng.draw bits channel).2 } := rfl
  have hbelow (s : State) (channel : Channel) :
      (s.drawBelowP channel).2 =
        { s with trng := (s.trng.drawBelow s.numbers.p s.size channel).2 } := rfl
  unfold State.drawRandoms
  simp only [hbelow, hdraw]
  split
  · split
    · exact ⟨_, rfl⟩
    · exact ⟨_, rfl⟩
  · split
    · exact ⟨_, rfl⟩
    · exact ⟨_, rfl⟩

theorem Bounded.drawRandoms {s : State} (h : s.Bounded) (alpha : Option Nat) :
    (s.drawRandoms alpha).2.Bounded := by
  obtain ⟨trng, hdraws⟩ := s.drawRandoms_snd alpha
  rw [hdraws]
  exact h.frame rfl

/-! ### Running a multiplication -/

theorem size_store (layout : LimbLayout) (slot value : Nat) (memory : FpMemory) :
    (FpMemory.store layout slot value memory).size = memory.size := by
  unfold FpMemory.store
  generalize List.range layout.limbs = places
  induction places generalizing memory with
  | nil => rfl
  | cons i places ih =>
    rw [List.foldl_cons, ih, Array.size_setIfInBounds]

theorem size_writes (layout : LimbLayout) (writes : List SlotWrite) (memory : FpMemory) :
    (writes.foldl (fun fp w => FpMemory.store layout w.slot w.value fp) memory).size =
      memory.size := by
  induction writes generalizing memory with
  | nil => rfl
  | cons w writes ih => rw [List.foldl_cons, ih, size_store]

theorem Bounded.arrive {s : State} (h : s.Bounded) (run : LadderRun) (p : Position) :
    (s.arrive run p).Bounded :=
  { h with fp_size := (size_writes _ _ _).trans h.fp_size }

theorem Bounded.finish {s : State} (h : s.Bounded) : s.finish.Bounded := by
  unfold State.finish
  split
  · exact h
  · exact { h with busy_le := Nat.le_refl _, warmup_le := Nat.le_refl _ }

theorem Bounded.walk {s : State} (h : s.Bounded) (passed : List Position) (result : Point)
    (budget : Option Nat) (pending : List Position) :
    (s.walk passed result budget pending).Bounded := by
  induction pending generalizing s passed budget with
  | nil => exact h.finish
  | cons p rest ih =>
    simp only [State.walk]
    split
    · exact (h.arrive ⟨p :: passed, rest, result⟩ p).frame rfl
    · exact ih (h.arrive _ p) _ _

/-- A run that has been let go comes to a halt or to its end. -/
theorem steady_walk {s : State} (hrun : s.sequencer.run.isSome)
    (hstate : s.sequencer.state = .running) (passed : List Position) (result : Point)
    (budget : Option Nat) (pending : List Position) :
    (s.walk passed result budget pending).sequencer.Steady := by
  induction pending generalizing s passed budget with
  | nil =>
    obtain ⟨run, hsome⟩ := Option.isSome_iff_exists.mp hrun
    simp only [State.walk, State.finish, hsome, Sequencer.raise, hstate, RunState.next?]
    rfl
  | cons p rest ih =>
    simp only [State.walk]
    split
    · simp only [State.halt, State.arrive, Sequencer.raise, hstate, RunState.next?]
      rfl
    · refine ih ?_ ?_ _ _
      · rfl
      · exact hstate

theorem Bounded.proceed {s : State} (h : s.Bounded) (budget : Option Nat) :
    (s.proceed budget).Bounded := by
  unfold State.proceed
  split
  · exact h.finish
  · exact h.walk _ _ _ _

theorem steady_proceed {s : State} (hrun : s.sequencer.run.isSome)
    (hstate : s.sequencer.state = .running) (budget : Option Nat) :
    (s.proceed budget).sequencer.Steady := by
  obtain ⟨run, hsome⟩ := Option.isSome_iff_exists.mp hrun
  simp only [State.proceed, hsome]
  exact steady_walk hrun hstate _ _ _ _

theorem sequencer_effectiveScalar (s : State) :
    s.effectiveScalar.2.sequencer = s.sequencer := by
  unfold State.effectiveScalar
  split
  · rfl
  · split <;> rfl

theorem sequencer_drawRandoms (s : State) (alpha : Option Nat) :
    (s.drawRandoms alpha).2.sequencer = s.sequencer := by
  obtain ⟨trng, hdraws⟩ := s.drawRandoms_snd alpha
  rw [hdraws]

theorem Coherent.startMultiplication {s : State} (h : s.Coherent) (hidle : s.multiplying = false) :
    s.startMultiplication.Coherent := by
  have hstate := h.idle hidle
  unfold State.startMultiplication
  dsimp only
  split
  · exact h.latch _
  · have hseq : ((s.effectiveScalar.2.drawRandoms s.effectiveScalar.1.alpha).2).sequencer.state =
        .idle := by
      rw [sequencer_drawRandoms, sequencer_effectiveScalar, hstate]
    have hrest := h.toBounded.effectiveScalar.drawRandoms s.effectiveScalar.1.alpha
    refine ⟨Bounded.proceed ?_ _, steady_proceed ?_ ?_ _⟩
    · exact hrest.frame rfl
    · simp only [Sequencer.raise, hseq, RunState.next?]
      rfl
    · simp only [Sequencer.raise, hseq, RunState.next?]

theorem Coherent.step {s : State} (h : s.Coherent) (word : UInt32) : (s.step word).Coherent := by
  unfold State.step
  split
  · exact h
  · rename_i hhalted
    have hstate : s.sequencer.state = .halted := by
      simpa [State.isHalted, Sequencer.isHalted] using hhalted
    have hrun : s.sequencer.run.isSome = true := by
      have := h.steady
      rw [Sequencer.Steady, hstate] at this
      by_contra hnone
      rw [if_neg hnone] at this
      cases this
    split
    · refine ⟨Bounded.proceed ?_ _, steady_proceed ?_ ?_ _⟩
      · exact h.toBounded.frame rfl
      · simp only [Sequencer.raise, hstate, RunState.next?, hrun]
      · simp only [Sequencer.raise, hstate, RunState.next?]
    · split
      · refine ⟨Bounded.proceed ?_ _, steady_proceed ?_ ?_ _⟩
        · exact h.toBounded.frame rfl
        · simp only [Sequencer.raise, hstate, RunState.next?, hrun]
        · simp only [Sequencer.raise, hstate, RunState.next?]
      · exact h

/-! ### Registers -/

theorem Coherent.openWrite {s : State} (h : s.Coherent) (address : UInt32) (scalar : Bool) :
    (s.openWrite address scalar).Coherent := by
  unfold State.openWrite
  split
  · split
    · exact (h.latch .notEnoughRandom).frame rfl
    · exact h.frame rfl
  · split
    · exact (h.latch .unknownNumber).frame rfl
    · exact h.frame rfl

theorem Coherent.openRead {s : State} (h : s.Coherent) (address : UInt32) (token : Bool) :
    (s.openRead address token).Coherent := by
  unfold State.openRead
  split
  · exact h.frame rfl
  · split
    · exact (h.latch .unknownNumber).frame rfl
    · exact h.frame rfl

theorem Coherent.operate {s : State} (h : s.Coherent) (word : UInt32) :
    (s.operate word).Coherent := operate_keeps (fun _ _ _ _ => h.frame rfl) word

theorem Coherent.control {s : State} (h : s.Coherent) (word : UInt32) :
    (s.control word).Coherent := by
  unfold State.control
  split
  · exact h.latch _
  · rename_i hidle
    have hbusy := h.occupy
    dsimp only
    split
    · exact hbusy.openWrite _ _
    split
    · exact hbusy.openRead _ _
    split
    · exact Coherent.startMultiplication (hbusy.frame rfl) (Bool.eq_false_iff.mpr hidle)
    · refine Coherent.operate ?_ word
      exact hbusy.frame rfl

theorem Coherent.writeData {s : State} (h : s.Coherent) (value : UInt64) :
    (s.writeData value).Coherent := by
  unfold State.writeData
  dsimp only
  apply Coherent.occupy
  split
  · split
    · exact h.frame rfl
    · exact h.frame rfl
  · exact h.latch _

theorem Coherent.setSize {s : State} (h : s.Coherent) (size : Nat) : (s.setSize size).Coherent := by
  unfold State.setSize
  split
  · exact h.latch _
  · exact h.frame rfl

theorem Coherent.setBlinding {s : State} (h : s.Coherent) (word : UInt32) :
    (s.setBlinding word).Coherent := by
  unfold State.setBlinding
  dsimp only
  split
  · exact h.frame rfl
  · split
    · exact h.latch _
    · exact h.frame rfl

theorem Coherent.setShuffle {s : State} (h : s.Coherent) (enable : Bool) :
    (s.setShuffle enable).Coherent := by
  unfold State.setShuffle
  split
  · exact h.latch _
  · exact h.frame rfl

theorem Coherent.acknowledge {s : State} (h : s.Coherent) (clear : UInt32) :
    ({ s with errors := s.errors &&& ~~~clear } : State).Coherent :=
  { h with
    errors_lt := by
      show (s.errors &&& ~~~clear).toNat < 2 ^ 15
      rw [UInt32.toNat_and]
      exact Nat.lt_of_le_of_lt Nat.and_le_left h.errors_lt }

theorem Coherent.softReset {s : State} (h : s.Coherent) : s.softReset.Coherent where
  busy_le := h.busy_le
  init_le := Nat.le_refl _
  warmup_le := Nat.le_refl _
  errors_lt := Nat.two_pow_pos 15
  fp_size := h.fp_size
  steady := rfl

theorem Coherent.writeDebug {s : State} (h : s.Coherent) (r : Sink) (word : UInt32) :
    (s.writeDebug r word).Coherent := by
  unfold State.writeDebug
  cases r with
  | halt => exact writeDebug_halt_keeps (fun _ => ⟨h.toBounded.frame rfl, h.steady⟩) word
  | steps => exact h.step word
  | breakpoint => exact ⟨h.toBounded.frame rfl, h.steady⟩
  | limb => exact { h with fp_size := (Array.size_setIfInBounds ..).trans h.fp_size }
  | triggerArm | triggerUp | triggerDown | opcodeAddress | opcode | trngControl | trngConfig
  | limbWriteAddress | limbReadAddress | xyShuffle | axiMask | tokenMask | resetCounters =>
    exact h.frame rfl
  | _ => exact h

theorem Coherent.writeSink {s : State} (h : s.Coherent) (r : Sink) (value : UInt64) :
    (s.writeSink r value).Coherent := by
  have hdebug := debug_keeps h (h.writeDebug r value.toUInt32)
  unfold State.writeSink
  cases r with
  | control => exact h.control _
  | writeData => exact h.writeData value
  | r0Null => exact Coherent.occupy (h.frame rfl)
  | r1Null => exact Coherent.occupy (h.frame rfl)
  | primeSize => exact (h.setSize _).occupy
  | blinding => exact (h.setBlinding _).occupy
  | shuffle => exact (h.setShuffle _).occupy
  | zremask => exact Coherent.occupy (h.frame rfl)
  | token =>
    apply Coherent.occupy
    exact h.frame rfl
  | irq => exact h.frame rfl
  | errorAck => exact h.acknowledge _
  | smallScalar => exact Coherent.occupy (h.frame rfl)
  | softReset => exact h.softReset
  | _ => exact hdebug

theorem Coherent.readStatus {s : State} (h : s.Coherent) : s.readStatus.2.Coherent :=
  { h with
    busy_le := Nat.le_trans (Nat.sub_le _ _) h.busy_le
    init_le := Nat.le_trans (Nat.sub_le _ _) h.init_le
    warmup_le := Nat.le_trans (Nat.sub_le _ _) h.warmup_le }

theorem Coherent.readData {s : State} (h : s.Coherent) : s.readData.2.Coherent := by
  unfold State.readData
  split
  · exact h.frame rfl
  · exact h.latch _

theorem Coherent.readSource {s : State} (h : s.Coherent) (r : Source) :
    (s.readSource r).2.Coherent := by
  cases r with
  | status => exact h.readStatus
  | readData => exact h.readData
  | rawFifoStatus => exact h.frame rfl
  | _ => exact h

theorem Coherent.read {s : State} (h : s.Coherent) (size : AccessSize) (offset : UInt32) :
    (s.read size offset).2.Coherent := by
  unfold State.read
  split
  · exact h
  · exact h.readSource _

theorem Coherent.write {s : State} (h : s.Coherent) (size : AccessSize) (offset : UInt32)
    (value : UInt64) : (s.write size offset value).2.Coherent := by
  unfold State.write
  split
  · exact h.writeSink _ _
  · split
    · exact h
    · exact h

end State

/-- What every engine has at power-up, and every access to a register keeps, holds throughout. -/
theorem Reachable.invariant {I : State → Prop}
    (powerUp : ∀ params entropy, I (.powerUp params entropy))
    (readSource : ∀ r s, Reachable s → I s → I (s.readSource r).2)
    (writeSink : ∀ r value s, Reachable s → I s → I (s.writeSink r value)) {s : State}
    (h : Reachable s) : I s := by
  induction h with
  | powerUp params entropy => exact powerUp params entropy
  | @read size offset s hs ih =>
    rw [State.read]
    split
    · exact ih
    · exact readSource _ s hs ih
  | @write size offset value s hs ih =>
    rw [State.write]
    split
    · exact writeSink _ _ s hs ih
    · split
      · exact ih
      · exact ih

/-- Every reachable state is coherent. -/
theorem Reachable.coherent {s : State} (h : Reachable s) : s.Coherent :=
  h.invariant State.coherent_powerUp (fun r _ _ hs => hs.readSource r)
    fun r value _ _ hs => hs.writeSink r value

end CurveEngine.Device

namespace CurveEngine.Procedure
open Device

/-- Whatever a procedure does, it leaves a coherent state. -/
theorem Ends.coherent {α : Type} {p : Procedure α} {s t : State} {a : α} (h : Ends bus p s a t)
    (hs : s.Coherent) : t.Coherent := by
  have hrun : (p.run bus s).2.Coherent :=
    run_preserves (I := State.Coherent) (fun size offset _ h => h.read size offset)
      (fun size offset value _ h => h.write size offset value) (fun _ _ h => h) p hs
  rwa [show p.run bus s = _ from h] at hrun

end CurveEngine.Procedure
