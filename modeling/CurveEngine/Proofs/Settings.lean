import CurveEngine.Proofs.SmallScalars
import CurveEngine.Proofs.Stopping

/-! What a driver sets, and what the engine makes of it.

A setting is packed into the fields of a word and taken out of them on the other side. A field that
is wide enough keeps what is put into it, one that is not keeps the low bits, and none disturbs
another. So each call changes the one thing it names, whatever its arguments
(`settings_decoded`): the blinding, the re-masking period and the restriction of scalars, a slot of
the breakpoints, the modes of the random number generator. In the other direction, the debug
status has room for every breakpoint and for every address of the microcode (`Reachable.addressed`),
so that a snapshot shows where the engine is. -/
namespace CurveEngine
open Register Procedure Device Operation

namespace BitField
variable {f : BitField}

theorem and_mask_eq_mod {size : UInt32} (hf : f.width ≤ 32) (hsize : size.toNat = 2 ^ f.width)
    (value : UInt32) : value &&& f.mask = value % size := by
  apply UInt32.toNat_inj.mp
  rw [toNat_and_mask hf, UInt32.toNat_mod, hsize]

end BitField

/-! ### Where a run is -/

namespace LadderRun

/-- Every opcode of a run has an address of twelve bits. -/
theorem pc_start (inputs : LadderInputs) : ∀ p ∈ (start inputs).positions, p.pc < 2 ^ 12 := by
  have hfinish : Microcode.Address.finish < 2 ^ 12 := by decide
  intro p hp
  rw [positions_start, pending_start, closing_eq] at hp
  simp only [List.mem_append, List.mem_singleton] at hp
  rcases hp with hp | hp | hp | rfl
  · exact Nat.lt_trans (pc_opening hp) hfinish
  · exact Nat.lt_trans (pc_ladderOpcodes hp) hfinish
  · exact Nat.lt_trans (pc_closingBody hp) hfinish
  · exact hfinish

end LadderRun

namespace Device

namespace State
variable {s t : State}

/-- The run in progress, if there is one, is at addresses of twelve bits. -/
def Addressed (s : State) : Prop :=
  ∀ run, s.sequencer.run = some run → ∀ p ∈ run.positions, p.pc < 2 ^ 12

theorem Addressed.frame (h : s.Addressed) (same : t.sequencer.run = s.sequencer.run) :
    t.Addressed := by
  intro run hrun
  exact h run (same ▸ hrun)

theorem addressed_of_resting (hresting : s.multiplying = false) : s.Addressed := by
  intro run hrun
  rw [multiplying, hrun] at hresting
  cases hresting

/-- Arriving somewhere moves an opcode from what is to come to what has been executed. -/
theorem Addressed.walk {passed pending : List Position} {result : Point}
    (h : ∀ p ∈ passed.reverse ++ pending, p.pc < 2 ^ 12) (hs : s.Addressed) (budget : Option Nat) :
    (s.walk passed result budget pending).Addressed := by
  induction pending generalizing s passed budget with
  | nil => exact addressed_of_resting s.multiplying_finish
  | cons p rest ih =>
    have hnext : ∀ q ∈ (p :: passed).reverse ++ rest, q.pc < 2 ^ 12 := by simpa using h
    have harrived : (s.arrive ⟨p :: passed, rest, result⟩ p).Addressed := by
      intro run hrun
      obtain rfl := Option.some.inj hrun
      exact hnext
    simp only [State.walk]
    split
    · exact harrived.frame (run_raise _ _)
    · exact ih hnext harrived _

theorem Addressed.proceed (h : s.Addressed) (budget : Option Nat) :
    (s.proceed budget).Addressed := by
  cases hrun : s.sequencer.run with
  | none =>
    rw [State.proceed, hrun]
    exact addressed_of_resting s.multiplying_finish
  | some run =>
    rw [proceed_run hrun]
    exact h.walk (h run hrun) budget

theorem Addressed.step (h : s.Addressed) (word : UInt32) : (s.step word).Addressed := by
  rcases s.step_cases word with hstep | ⟨-, event, budget, -, hstep⟩
  · rwa [hstep]
  · rw [hstep]
    exact (h.frame (run_raise s.sequencer event)).proceed budget

theorem Addressed.startMultiplication (h : s.Addressed) (hidle : s.sequencer.state = .idle) :
    s.startMultiplication.Addressed := by
  by_cases hpoint : s.curve.contains s.pointR1 = true
  · have hstart := LadderRun.pc_start s.inputs
    have hrun : s.launched.sequencer.run = some (.start s.inputs) := rfl
    rw [startMultiplication_walk hpoint hidle]
    apply Addressed.walk
    · rw [List.reverse_nil, List.nil_append, ← LadderRun.positions_start]
      exact hstart
    · intro run hsome
      obtain rfl := Option.some.inj (hrun.symm.trans hsome)
      exact hstart
  · rw [startMultiplication_refused (Bool.eq_false_iff.mpr hpoint)]
    exact h

theorem Addressed.control (h : s.Addressed) (hs : s.Coherent) (word : UInt32) :
    (s.control word).Addressed := by
  by_cases hopens : OpensTransfer word
  · exact h.frame (congrArg (fun core => core.1.run) (s.core_control hopens))
  by_cases hresting : s.multiplying = true
  · rw [State.control, if_pos hresting]
    exact h
  rw [Bool.not_eq_true] at hresting
  obtain ⟨hwrite, hread⟩ := not_or.mp hopens
  have hbegun : s.begun.Addressed := h
  rw [control_begun hresting hwrite hread]
  split
  · exact hbegun.startMultiplication (hs.idle hresting)
  · exact h.frame (congrArg Sequencer.run (sequencer_operate s.begun word))

theorem Addressed.writeSink (h : s.Addressed) (hs : s.Coherent) (r : Sink) (value : UInt64) :
    (s.writeSink r value).Addressed := by
  by_cases hperipheral : Peripheral r
  · exact h.frame (congrArg (fun core => core.1.run) (core_writeSink hperipheral value s))
  cases r with
  | control => exact h.control hs _
  | softReset => exact addressed_of_resting rfl
  | primeSize => exact setSize_keeps (P := State.Addressed) (fun _ _ => h) _
  | steps => exact debug_keeps h (h.step _)
  | halt => exact debug_keeps h (writeDebug_halt_keeps (P := State.Addressed) (fun _ => h) _)
  | breakpoint | limbReadAddress => exact debug_keeps (P := State.Addressed) h h
  | _ => exact absurd (by simp [Peripheral]) hperipheral

end State

/-- A run never leaves the microcode. -/
theorem Reachable.addressed {s : State} (h : Reachable s) : s.Addressed :=
  h.invariant (fun _ _ => State.addressed_of_resting rfl)
    (fun r s _ hs => hs.frame (congrArg (fun core => core.1.run) (s.core_readSource r)))
    fun r value _ hreachable hs => hs.writeSink hreachable.coherent r value

/-! ### Breakpoints and snapshots -/

namespace Sequencer

theorem setIfInBounds_of_lt (slots : Vector (Option Breakpoint) breakpointCount) {id : Nat}
    (hid : id < breakpointCount) (b : Option Breakpoint) :
    slots.setIfInBounds id b = slots.set id b := by
  apply Vector.ext
  intro i hi
  rw [Vector.getElem_setIfInBounds, Vector.getElem_set]

/-- Arming a breakpoint fills its slot, and no other. -/
theorem setBreakpoint_arm (q : Sequencer) {id : UInt32} (hid : id.toNat < breakpointCount)
    (address scalarBit : UInt32) (state : MachineState) :
    q.setBreakpoint (Driver.breakpointWord id address scalarBit state) =
      { q with
        breakpoints := q.breakpoints.set id.toNat
          (some ⟨address % 0x1000, scalarBit % 0x1000, state.code⟩) } := by
  have hcode : state.code.toNat < 2 ^ Register.Breakpoint.state.width := by
    cases state <;> decide
  have hslot : id.toNat < 2 ^ Register.Breakpoint.id.width := hid
  have haddress : address &&& Register.Breakpoint.address.mask = address % 0x1000 :=
    BitField.and_mask_eq_mod (by decide) (by decide) address
  have hbit : scalarBit &&& Register.Breakpoint.scalarBit.mask = scalarBit % 0x1000 :=
    BitField.and_mask_eq_mod (by decide) (by decide) scalarBit
  simp (disch := first | decide | assumption) only [setBreakpoint, BreakpointField.agrees,
    Driver.breakpointWord, BitField.test_set_of_apart, BitField.test_put, BitField.get_set_of_lt,
    BitField.get_set_of_apart, BitField.get_set, haddress, hbit, if_true]
  rw [setIfInBounds_of_lt q.breakpoints hid]

/-- Removing one empties its slot. -/
theorem setBreakpoint_remove (q : Sequencer) {id : UInt32} (hid : id.toNat < breakpointCount) :
    q.setBreakpoint (Register.Breakpoint.id.set id 0) =
      { q with breakpoints := q.breakpoints.set id.toNat none } := by
  have hslot : id.toNat < 2 ^ Register.Breakpoint.id.width := hid
  have henable : Register.Breakpoint.enable.test (Register.Breakpoint.id.set id 0) = false := by
    simp (disch := decide) only [BitField.test_set_of_apart, BitField.test_zero]
  simp (disch := first | decide | assumption) only [setBreakpoint, BreakpointField.agrees, henable,
    BitField.get_set_of_lt, Bool.false_eq_true, if_false]
  rw [setIfInBounds_of_lt q.breakpoints hid]

end Sequencer

namespace State
variable {s : State}

/-- A snapshot shows where an engine is: whether it is halted, at which breakpoint, and the last
opcode executed by the multiplication in progress, if there is one. -/
structure ShownBy (s : State) (shown : DebugSnapshot) : Prop where
  halted : shown.halted = s.isHalted
  breakpoint : shown.breakpoint.map UInt32.toNat = s.sequencer.hit
  pc : shown.pc.toNat = s.sequencer.last.elim 0 Position.pc
  state : shown.state = s.sequencer.last.elim .idle Position.state

theorem shown_breakpoint (hhit : ∀ id ∈ s.sequencer.hit, id < breakpointCount) :
    (DebugSnapshot.ofWord s.sequencer.statusWord).breakpoint.map UInt32.toNat =
      s.sequencer.hit := by
  cases hsome : s.sequencer.hit with
  | none =>
    cases hlast : s.sequencer.last with
    | none =>
      simp (disch := decide) only [DebugSnapshot.ofWord, Sequencer.statusWord, hsome, hlast,
        BitField.test_put_of_apart, BitField.test_zero, Bool.false_eq_true, if_false,
        Option.map_none]
    | some p =>
      simp (disch := decide) only [DebugSnapshot.ofWord, Sequencer.statusWord, hsome, hlast,
        BitField.test_set_of_apart, BitField.test_put_of_apart, BitField.test_zero,
        Bool.false_eq_true, if_false, Option.map_none]
  | some id =>
    have hid : id < 2 ^ Register.DebugStatus.breakpoint.width := hhit id hsome
    have hnat : (UInt32.ofNat id).toNat = id :=
      UInt32.toNat_ofNat_of_lt' (Nat.lt_trans hid (by decide))
    have hslot : (UInt32.ofNat id).toNat < 2 ^ Register.DebugStatus.breakpoint.width := by
      rwa [hnat]
    cases hlast : s.sequencer.last with
    | none =>
      simp (disch := first | decide | assumption) only [DebugSnapshot.ofWord, Sequencer.statusWord,
        hsome, hlast, BitField.test_set_of_apart, BitField.test_put, BitField.get_set_of_lt,
        if_true, Option.map_some, hnat]
    | some p =>
      simp (disch := first | decide | assumption) only [DebugSnapshot.ofWord, Sequencer.statusWord,
        hsome, hlast, BitField.test_set_of_apart, BitField.test_put, BitField.get_set_of_apart,
        BitField.get_set_of_lt, if_true, Option.map_some, hnat]

/-- Without an opcode to show, the debug status shows address zero of an engine at rest. -/
theorem spot_unset (hlast : s.sequencer.last = none) :
    Register.DebugStatus.pc.get s.sequencer.statusWord = 0 ∧
      Register.DebugStatus.state.get s.sequencer.statusWord = 0 := by
  cases hhit : s.sequencer.hit with
  | none =>
    simp (disch := decide) only [Sequencer.statusWord, hhit, hlast, BitField.put,
      BitField.get_set_of_apart, BitField.get_zero, and_self]
  | some id =>
    simp (disch := decide) only [Sequencer.statusWord, hhit, hlast, BitField.put,
      BitField.get_set_of_apart, BitField.get_zero, and_self]

end State

/-- The last opcode executed has an address of twelve bits. -/
theorem Reachable.pc_last {s : State} (h : Reachable s) {p : Position}
    (hlast : s.sequencer.last = some p) : p.pc < 2 ^ 12 := by
  rw [h.orderly.sequencer.last, Option.bind_eq_some_iff] at hlast
  obtain ⟨run, hrun, hcurrent⟩ := hlast
  refine h.addressed run hrun p ?_
  rw [LadderRun.positions]
  exact List.mem_append_left _ (List.mem_reverse.mpr (List.mem_of_head? hcurrent))

/-- The debug status has room for everything that it shows. -/
theorem Reachable.shownBy {s : State} (h : Reachable s) :
    s.ShownBy (.ofWord s.sequencer.statusWord) := by
  have horder := h.orderly.sequencer
  have hhit : ∀ id ∈ s.sequencer.hit, id < breakpointCount := fun id hid => (horder.hit id hid).2
  cases hlast : s.sequencer.last with
  | none =>
    obtain ⟨hpc, hstate⟩ := State.spot_unset hlast
    refine ⟨s.sequencer.halted_statusWord, State.shown_breakpoint hhit, ?_, ?_⟩
    · rw [hlast, DebugSnapshot.ofWord, hpc]
      rfl
    · rw [hlast, DebugSnapshot.ofWord, hstate]
      rfl
  | some p =>
    obtain ⟨hpc, hstate⟩ := (Spot.mk.injEq ..).mp (Sequencer.spot_statusWord hlast)
    have hbelow := h.pc_last hlast
    refine ⟨s.sequencer.halted_statusWord, State.shown_breakpoint hhit, ?_, ?_⟩
    · rw [hlast, hpc, BitField.toNat_and_mask (by decide), UInt32.toNat_ofNat']
      show p.pc % 2 ^ 32 % 2 ^ 12 = p.pc
      omega
    · rw [hlast, hstate]
      rfl

/-! ### The generator -/

/-- A generator with every mode at its default. -/
def Trng.restored (t : Trng) : Trng :=
  { t with postproc := true, rawReadable := true, bypass := none }

/-- A generator that has been told to show a raw bit. -/
def Trng.showing (address : UInt32) (t : Trng) : Trng :=
  { t.restored with rawBit := t.rawFifo.getD (address.toNat % 2 ^ 20) false }

theorem Trng.control_showing (address : UInt32) (t : Trng) :
    t.control (TrngControl.rawAddress.set address (TrngControl.readRaw.put true 0)) =
      t.showing address := by
  have haddress : (address &&& TrngControl.rawAddress.mask).toNat = address.toNat % 2 ^ 20 :=
    BitField.toNat_and_mask (by decide) address
  simp (disch := decide) only [Trng.control, TrngField.agrees, BitField.test_set_of_apart,
    BitField.test_put, BitField.test_put_of_apart, BitField.test_zero, BitField.get_set, haddress,
    Bool.not_false, Bool.and_self, Bool.false_eq_true, if_false, if_true]
  rfl

end Device

namespace Driver
variable {d : Driver} {s : State}

/-! ### Calls of the debug bank -/

theorem returns_writeDebug (hdebug : s.params.debug = true) (r : Sink) (word : UInt32) :
    Returns bus (d.writeDebug r word) s () (s.writeSink r word.toUInt64) := by
  simp only [writeDebug, returns_bind, returns_lift, ends_write]
  exact ⟨(), s, (returns_ensureDebug hdebug s).mpr rfl, rfl⟩

/-- A breakpoint word is written for the breakpoints that there are. -/
theorem returns_writeBreakpoint (hdebug : s.params.debug = true) {id : UInt32}
    (hid : id.toNat < Device.breakpointCount) (word : UInt32) :
    Returns bus (d.writeBreakpoint id word) s ()
      { s with sequencer := s.sequencer.setBreakpoint word } := by
  have hwrite : s.writeSink .breakpoint word.toUInt64 =
      { s with sequencer := s.sequencer.setBreakpoint word } := by
    simp only [State.writeSink, hdebug, if_true, State.writeDebug, UInt32.toUInt32_toUInt64]
  have haccepted : ¬ id ≥ breakpointCount := Nat.not_le.mpr hid
  rw [← hwrite]
  simp only [writeBreakpoint, returns_bind]
  refine ⟨(), s, (returns_ensureDebug hdebug s).mpr rfl, ?_⟩
  rw [if_neg haccepted]
  exact (returns_lift _ _ _ _).mpr ((ends_write _ _ _ _).mpr rfl)

theorem writeBreakpoint_throws (hdebug : s.params.debug = true) {id : UInt32}
    (hid : Device.breakpointCount ≤ id.toNat) (word : UInt32) :
    Throws bus (d.writeBreakpoint id word) s .breakpointInvalid s := by
  have hrefused : id ≥ breakpointCount := hid
  have hensure := (returns_ensureDebug (d := d) hdebug s).mpr rfl
  refine hensure.throws ?_
  rw [if_pos hrefused]
  exact (throws_throw _ _ _ _).mpr ⟨rfl, rfl⟩

theorem returns_runOpcodes (hdebug : s.params.debug = true) (count : UInt32) :
    Returns bus (d.runOpcodes count) s ()
      (s.step (Steps.count.set count (Steps.run.put true 0))) := by
  rw [← writeSink_steps hdebug]
  exact returns_writeDebug hdebug .steps _

theorem returns_debugSnapshot (hdebug : s.params.debug = true) :
    Returns bus d.debugSnapshot s (.ofWord s.sequencer.statusWord) s := by
  have hread : s.readSource .debugStatus = (s.sequencer.statusWord.toUInt64, s) :=
    State.readSource_of_debug hdebug .debugStatus rfl
  have hword : Ends bus (d.read .debugStatus) s s.sequencer.statusWord s := by
    rw [ends_read, hread]
    exact ⟨(UInt32.toUInt32_toUInt64 _).symm, rfl⟩
  simp only [debugSnapshot, readDebug, returns_bind, returns_lift, returns_pure]
  exact ⟨_, s, ⟨(), s, (returns_ensureDebug hdebug s).mpr rfl, hword⟩, rfl, rfl⟩

/-- What the debug bank makes of its calls, whether a multiplication is halted or none is in
progress. -/
structure DebuggerDecoded (d : Driver) (s : State) : Prop where
  sets : ∀ id address scalarBit state, (hid : id.toNat < Device.breakpointCount) →
    Returns bus (d.setBreakpoint id address scalarBit state) s ()
      (s.withBreakpoints (s.sequencer.breakpoints.set id.toNat
        (some ⟨address % 0x1000, scalarBit % 0x1000, state.code⟩)))
  removes : ∀ id, (hid : id.toNat < Device.breakpointCount) →
    Returns bus (d.removeBreakpoint id) s ()
      (s.withBreakpoints (s.sequencer.breakpoints.set id.toNat none))
  refuses : ∀ id address scalarBit state, Device.breakpointCount ≤ id.toNat →
    Throws bus (d.setBreakpoint id address scalarBit state) s .breakpointInvalid s ∧
      Throws bus (d.removeBreakpoint id) s .breakpointInvalid s
  /-- A halted multiplication goes on for as many opcodes, unless a breakpoint matches before. -/
  steps : s.multiplying = true → ∃ run i, s.Arrived run i ∧ ∀ count,
    ∃ t, Returns bus (d.runOpcodes count) s () t ∧
      s.GoesOn run {j | i < j ∧
        (j = i + max 1 (count.toNat % 2 ^ 16) ∨ s.sequencer.Matched run j)} t
  /-- Without one there is nothing to go on. -/
  rests : s.multiplying = false → ∀ count, Returns bus (d.runOpcodes count) s () s
  shows : ∃ shown, Returns bus d.debugSnapshot s shown s ∧ s.ShownBy shown

theorem debugger_decoded (d : Driver) (hs : Reachable s) (hdebug : s.params.debug = true) :
    DebuggerDecoded d s where
  sets id address scalarBit state hid := by
    have hreturns := returns_writeBreakpoint (d := d) hdebug hid
      (breakpointWord id address scalarBit state)
    rwa [Sequencer.setBreakpoint_arm _ hid] at hreturns
  removes id hid := by
    have hreturns := returns_writeBreakpoint (d := d) hdebug hid (Breakpoint.id.set id 0)
    rwa [Sequencer.setBreakpoint_remove _ hid] at hreturns
  refuses id address scalarBit state hid :=
    ⟨writeBreakpoint_throws hdebug hid _, writeBreakpoint_throws hdebug hid _⟩
  steps hmultiplying := by
    obtain ⟨run, i, harrived, -⟩ := hs.arrived hmultiplying
    refine ⟨run, i, harrived, fun count => ⟨_, returns_runOpcodes hdebug count, ?_⟩⟩
    have hresume : Steps.resume.test (Steps.count.set count (Steps.run.put true 0)) = false := by
      simp (disch := decide) only [BitField.test_set_of_apart, BitField.test_put_of_apart,
        BitField.test_zero]
    have hrun : Steps.run.test (Steps.count.set count (Steps.run.put true 0)) = true := by
      simp (disch := decide) only [BitField.test_set_of_apart, BitField.test_put]
    have hcount : (Steps.count.get (Steps.count.set count (Steps.run.put true 0))).toNat =
        count.toNat % 2 ^ 16 := by
      rw [BitField.get_set (by decide) (by decide)]
      exact BitField.toNat_and_mask (by decide) count
    have hgoes := harrived.step hresume hrun
    rwa [hcount, Nat.max_comm] at hgoes
  rests hresting count := by
    have hhalted : s.isHalted = false := by
      rw [Bool.eq_false_iff]
      intro hhalted
      have hstate : s.sequencer.state = .halted := by
        simpa [State.isHalted, Sequencer.isHalted] using hhalted
      exact Bool.false_ne_true
        (hresting.symm.trans (hs.orderly.sequencer.halted_iff.mp hstate))
    have hstep : s.step (Steps.count.set count (Steps.run.put true 0)) = s := by
      rw [State.step, hhalted]
      rfl
    have hreturns := returns_runOpcodes (d := d) hdebug count
    rwa [hstep] at hreturns
  shows := ⟨_, returns_debugSnapshot hdebug, hs.shownBy⟩

/-! ### Calls between two waits -/

/-- A call that controls the generator: it waits, does to the generator what it is for and nothing
else, and waits again. -/
structure Controls (d : Driver) (op : Operation Unit) (effect : Trng → Trng) (s u t : State) :
    Prop where
  returns : Returns bus op s () t
  before : Returns bus d.waitIdle s () u
  after : Returns bus d.waitIdle { u with trng := effect u.trng } () t
  waited : u.Alike s
  left : t.Alike { s with trng := effect s.trng }

/-- Writing a register of the generator between two waits. -/
theorem writeEntropy_controls (hs : Awaitable d s) (hdebug : s.params.debug = true) {r : Sink}
    {word : UInt32} {effect : Trng → Trng}
    (hwrite : ∀ v : State, v.params.debug = true →
      v.writeSink r word.toUInt64 = { v with trng := effect v.trng })
    (hrefill : ∀ t : Trng, (effect t).refill = (effect t.refill).refill) :
    ∃ u t, Controls d (d.writeEntropy r word) effect s u t := by
  obtain ⟨u, hbefore, hu⟩ := waitIdle_ends hs
  have halike := (waitIdle_only hbefore).1
  have hwritten := hwrite u
    ((congrArg Parameters.debug (halike.field State.params fun _ => rfl)).trans hdebug)
  have hawaitable : Awaitable d { u with trng := effect u.trng } :=
    ⟨hwritten ▸ hu.coherent.writeSink _ _, hu.resting, hu.patient⟩
  obtain ⟨t, hafter, -⟩ := waitIdle_ends hawaitable
  refine ⟨u, t, ?_, hbefore, hafter, halike, (waitIdle_only hafter).1.trans ?_⟩
  · simp only [writeEntropy, returns_bind, returns_lift, ends_write]
    exact ⟨(), s, (returns_ensureDebug hdebug s).mpr rfl, (), u, hbefore, (), _, hwritten.symm,
      hafter⟩
  · exact halike.apply
      (show State.Timeless fun v => { v with trng := effect v.trng } from fun v => by
        simp only [State.settled, hrefill v.trng])

theorem controlTrng_controls (hs : Awaitable d s) (hdebug : s.params.debug = true) {word : UInt32}
    {effect : Trng → Trng} (heffect : ∀ t : Trng, t.control word = effect t) :
    ∃ u t, Controls d (d.controlTrng word) effect s u t := by
  refine writeEntropy_controls hs hdebug (fun v hv => ?_) fun t => ?_
  · simp only [State.writeSink, hv, if_true, State.writeDebug, UInt32.toUInt32_toUInt64, heffect]
  · rw [← heffect, ← heffect]
    rfl

theorem configTrng_controls (hs : Awaitable d s) (hdebug : s.params.debug = true) (word : UInt32) :
    ∃ u t, Controls d (d.writeEntropy .trngConfig word)
      (fun trng => { trng with config := word }) s u t := by
  refine writeEntropy_controls hs hdebug (fun v hv => ?_) fun _ => rfl
  simp only [State.writeSink, hv, if_true, State.writeDebug, UInt32.toUInt32_toUInt64]

/-- The configuration of the entropy source is kept as it is packed. -/
theorem configureTrng_controls (hs : Awaitable d s) (hdebug : s.params.debug = true)
    (debias : Bool) (accessTime idle : UInt32) :
    ∃ word u t, Controls d (d.configureTrng debias accessTime idle)
        (fun trng => { trng with config := word }) s u t ∧
      TrngConfig.debias.test word = debias ∧
      (TrngConfig.accessTime.get word).toNat = accessTime.toNat % 2 ^ 16 ∧
      (TrngConfig.idle.get word).toNat = idle.toNat % 2 ^ 4 := by
  obtain ⟨u, t, hcontrols⟩ := configTrng_controls (d := d) hs hdebug
    (TrngConfig.idle.set idle (TrngConfig.accessTime.set accessTime (TrngConfig.debias.put debias 0)))
  refine ⟨_, u, t, hcontrols, ?_, ?_, ?_⟩
  · simp (disch := decide) only [BitField.test_set_of_apart, BitField.test_put]
  · simp (disch := decide) only [BitField.get_set_of_apart, BitField.get_set]
    exact BitField.toNat_and_mask (by decide) accessTime
  · simp (disch := decide) only [BitField.get_set]
    exact BitField.toNat_and_mask (by decide) idle

/-- A call that returns, and leaves an engine like another. -/
def Leaves (op : Operation Unit) (s s' : State) : Prop := ∃ t, Returns bus op s () t ∧ t.Alike s'

theorem Does.leaves {op : Operation Unit} {s' : State} (h : Does (Ready d) op s () s')
    (hs : Ready d s) : Leaves op s s' := by
  obtain ⟨t, ht, -⟩ := h.returns s (.refl s) hs
  exact ⟨t, ht, (h.only s () t (.refl s) ht).2⟩

theorem does_enableZremask {period : UInt32} (hpos : 1 ≤ period.toNat)
    (hle : period.toNat ≤ 0x10000) :
    Does (Ready d) (d.enableZremask period) s () { s with zremask := some period.toNat } := by
  have hsub : (period - 1).toNat = period.toNat - 1 := UInt32.toNat_sub_of_le period 1 hpos
  have hnonzero : period ≠ 0 := fun hzero => by
    rw [hzero] at hpos
    exact absurd hpos (by decide)
  have hbound : ¬ period > longestRemask := Nat.not_lt.mpr hle
  have henable : Zremask.enable.test
      (Zremask.periodMinusOne.set (period - 1) (Zremask.enable.put true 0)) = true := by
    simp (disch := decide) only [BitField.test_set_of_apart, BitField.test_put]
  have hperiod : Zremask.periodMinusOne.get
      (Zremask.periodMinusOne.set (period - 1) (Zremask.enable.put true 0)) = period - 1 :=
    BitField.get_set_of_lt (by decide) (by decide) (show (period - 1).toNat < 2 ^ 16 by omega) _
  have hwrite (u : State) : u.writeSink .zremask
      (Zremask.periodMinusOne.set (period - 1) (Zremask.enable.put true 0)).toUInt64 =
      State.occupy { u with zremask := some period.toNat } := by
    show (u.setZremask (UInt64.toUInt32 _)).occupy = _
    simp only [UInt32.toUInt32_toUInt64, State.setZremask, ZremaskField.agrees, henable, hperiod,
      if_true, hsub, Nat.sub_add_cancel hpos]
  rw [enableZremask, if_neg (not_or.mpr ⟨hnonzero, hbound⟩)]
  refine does_writeSettled _ _ (fun u hu _ => ?_) rfl
  rw [hwrite]
  exact hu.apply (show State.Timeless fun s =>
    State.occupy { s with zremask := some period.toNat } from fun _ => rfl)

theorem enableBlinding_throws {bits : UInt32} (hnonzero : bits ≠ 0)
    (hge : s.size % 2 ^ 16 ≤ bits.toNat) :
    Throws bus (d.enableBlinding bits) s .blindingSizeInvalid s := by
  have hsize : Returns bus (liftM d.size : Operation Nat) s (s.size % 2 ^ 16) s :=
    (returns_lift _ _ _ _).mpr ((ends_size _ _).mpr ⟨rfl, rfl⟩)
  rw [enableBlinding, if_neg hnonzero]
  refine hsize.throws ?_
  rw [if_pos hge]
  exact (throws_throw _ _ _ _).mpr ⟨rfl, rfl⟩

/-- A raw bit is read after the generator has been told to show it. -/
theorem returns_readRawBit (hs : Awaitable d s) (hdebug : s.params.debug = true)
    (address : UInt32) :
    ∃ t, Returns bus (d.readRawBit address) s (s.trng.showing address).rawBit t ∧
      t.Alike { s with trng := s.trng.showing address } := by
  obtain ⟨u, t, hcontrols⟩ := controlTrng_controls hs hdebug (Trng.control_showing address)
  have hbit : t.trng.rawBit = (s.trng.showing address).rawBit :=
    hcontrols.left.field (fun v => v.trng.rawBit) fun _ => rfl
  have hdebug' : t.params.debug = true :=
    (congrArg Parameters.debug (hcontrols.left.field State.params fun _ => rfl)).trans hdebug
  have hread : t.readSource .rawBit = ((State.bitWord t.trng.rawBit).toUInt64, t) :=
    State.readSource_of_debug hdebug' .rawBit rfl
  have hword : Ends bus (d.read .rawBit) t (State.bitWord t.trng.rawBit) t := by
    rw [ends_read, hread]
    exact ⟨(UInt32.toUInt32_toUInt64 _).symm, rfl⟩
  have hshown (b : Bool) : (State.bitWord b &&& 1 != 0) = b := by
    cases b <;> decide
  refine ⟨t, ?_, hcontrols.left⟩
  simp only [readRawBit, returns_bind, returns_lift, returns_pure]
  exact ⟨(), t, hcontrols.returns, _, t, hword, ((hshown t.trng.rawBit).trans hbit).symm, rfl⟩

/-- What a debug engine at rest makes of its settings. -/
structure SettingsDecoded (d : Driver) (s : State) : Prop where
  blinding : ∀ bits : UInt32, bits = 0 ∨ bits.toNat < s.size % 2 ^ 16 →
    Leaves (d.enableBlinding bits) s { s with blinding := bits.toNat }
  blinding_refused : ∀ bits : UInt32, bits ≠ 0 → s.size % 2 ^ 16 ≤ bits.toNat →
    Throws bus (d.enableBlinding bits) s .blindingSizeInvalid s
  remasking : ∀ period : UInt32, 1 ≤ period.toNat → period.toNat ≤ 0x10000 →
    Leaves (d.enableZremask period) s { s with zremask := some period.toNat }
  remasking_refused : ∀ period : UInt32, period.toNat = 0 ∨ 0x10000 < period.toNat →
    Throws bus (d.enableZremask period) s .zremaskPeriodInvalid s
  scalars : ∀ bits : UInt32, 1 ≤ bits.toNat → bits.toNat ≤ 0xffff →
    Leaves (d.limitScalar bits) s { s with smallScalar := some bits.toNat }
  scalars_refused : ∀ bits : UInt32, bits.toNat = 0 ∨ 0xffff < bits.toNat →
    Throws bus (d.limitScalar bits) s .smallScalarSizeInvalid s
  restoring : ∃ u t, Controls d d.resetTrngModes Trng.restored s u t
  postproc : ∃ u t, Controls d d.disablePostproc
    (fun trng => { trng.restored with postproc := false }) s u t
  bypass : ∀ bit, ∃ u t, Controls d (d.bypassTrng bit)
    (fun trng => { trng.restored with bypass := some bit }) s u t
  readPort : ∃ u t, Controls d d.disableRawRead
    (fun trng => { trng.restored with rawReadable := false }) s u t
  rawFifo : ∃ u t, Controls d d.resetRawFifo
    (fun trng => { trng.restored with rawFifo := #[] }) s u t
  numberFifos : ∃ u t, Controls d d.resetNumberFifos
    (fun trng => { trng.restored with waiting := .all 0 }) s u t
  configuration : ∀ debias accessTime idle, ∃ word u t,
    Controls d (d.configureTrng debias accessTime idle)
        (fun trng => { trng with config := word }) s u t ∧
      TrngConfig.debias.test word = debias ∧
      (TrngConfig.accessTime.get word).toNat = accessTime.toNat % 2 ^ 16 ∧
      (TrngConfig.idle.get word).toNat = idle.toNat % 2 ^ 4
  rawBit : ∀ address, ∃ t, Returns bus (d.readRawBit address) s
      (s.trng.rawFifo.getD (address.toNat % 2 ^ 20) false) t ∧
    t.Alike { s with trng := s.trng.showing address }

theorem settings_atRest (hs : Ready d s) (hdebug : s.params.debug = true) :
    SettingsDecoded d s where
  blinding bits haccepted := by
    by_cases hzero : bits = 0
    · have hdoes := (does_disableBlinding (d := d) (s := s)).leaves hs
      rw [enableBlinding, if_pos hzero, hzero]
      exact hdoes
    · have hpos : 0 < bits.toNat :=
        Nat.pos_of_ne_zero fun h => hzero (UInt32.toNat_inj.mp h)
      exact (does_enableBlinding_shown hpos (haccepted.resolve_left hzero)).leaves hs
  blinding_refused _ := enableBlinding_throws
  remasking _ hpos hle := (does_enableZremask hpos hle).leaves hs
  remasking_refused period hrefused := by
    have hinvalid : period = 0 ∨ period > longestRemask :=
      hrefused.imp_left fun h => UInt32.toNat_inj.mp h
    rw [enableZremask, if_pos hinvalid]
    exact (throws_throw _ _ _ _).mpr ⟨rfl, rfl⟩
  scalars _ hpos hle := (does_limitScalar hpos hle).leaves hs
  scalars_refused bits hrefused := by
    have hinvalid : bits = 0 ∨ bits > smallScalarMax :=
      hrefused.imp_left fun h => UInt32.toNat_inj.mp h
    rw [limitScalar, if_pos hinvalid]
    exact (throws_throw _ _ _ _).mpr ⟨rfl, rfl⟩
  restoring := controlTrng_controls hs.toAwaitable hdebug fun _ => rfl
  postproc := controlTrng_controls hs.toAwaitable hdebug fun _ => rfl
  bypass bit := by
    cases bit with
    | false => exact controlTrng_controls hs.toAwaitable hdebug fun _ => rfl
    | true => exact controlTrng_controls hs.toAwaitable hdebug fun _ => rfl
  readPort := controlTrng_controls hs.toAwaitable hdebug fun _ => rfl
  rawFifo := controlTrng_controls hs.toAwaitable hdebug fun _ => rfl
  numberFifos := controlTrng_controls hs.toAwaitable hdebug fun _ => rfl
  configuration := configureTrng_controls hs.toAwaitable hdebug
  rawBit := returns_readRawBit hs.toAwaitable hdebug

/-- **What a driver sets is what the engine has.** On a debug engine the slot of a breakpoint that
is set holds its address and scalar bit, cut to twelve bits, and the code of its state, and one
that is removed is empty; a halted multiplication goes on for the low sixteen bits of the number of
opcodes that it is told, but for one at least; a snapshot shows where the engine is. At rest and
without errors, the blinding, the re-masking period and the restriction of scalars are what they
have been set to, and the generator does what it has been told, with its other modes at their
defaults. Nothing else changes but what depends on time, and what is refused changes nothing. All of
this rests on the two sides having each field of the words in between over the same bits, apart
from every other one. -/
theorem settings_decoded (d : Driver) (s : State) (hs : Reachable s)
    (hdebug : s.params.debug = true) :
    DebuggerDecoded d s ∧
      (s.multiplying = false → s.errors = 0 → max s.params.latency 3 < d.checks →
        SettingsDecoded d s) ∧
      ∀ register ∈ configuration, ∀ f ∈ register, Arrives register f :=
  ⟨debugger_decoded d hs hdebug, fun hresting hclear hpatient =>
    settings_atRest ⟨⟨hs.coherent, hresting, hpatient⟩, hclear⟩ hdebug,
    fun _ hregister _ hf => configuration_arrives hregister hf⟩

/-- The widest settings of an engine at rest. On the engine that its last breakpoint has halted,
another one is set, its numbers cut to twelve bits, and a snapshot shows the halt. -/
theorem settings_decoded_97 :
    let d : Driver := ⟨{}, 10⟩
    (∃ t, Returns bus (d.enableBlinding 7) curve97 () t ∧ t.blinding = 7) ∧
    (∃ t, Returns bus (d.enableZremask 0x10000) curve97 () t ∧ t.zremask = some 0x10000) ∧
    Throws bus (d.enableBlinding 8) curve97 .blindingSizeInvalid curve97 ∧
    (∃ u t, Controls d (d.bypassTrng true)
      (fun trng => { trng.restored with bypass := some true }) curve97 u t) ∧
    Returns bus (d.setBreakpoint 2 0x1fff 0x1002 .zaddu) caught97 ()
      (caught97.withBreakpoints (caught97.sequencer.breakpoints.set 2 (some ⟨0xfff, 2, 11⟩))) ∧
    (∃ shown, Returns bus d.debugSnapshot caught97 shown caught97 ∧ shown.halted = true ∧
      shown.breakpoint.map UInt32.toNat = some 3) ∧
    StepsField.count.read (Steps.count.set 0x12345 (Steps.run.put true 0)) = 0x2345 := by
  intro d
  obtain ⟨-, hready, harrives⟩ := settings_decoded d curve97 reachable_curve97 (by decide)
  have hatRest := hready rfl rfl (by decide)
  have hhalted := (settings_decoded d caught97 reachable_caught97 (by decide +kernel)).1
  obtain ⟨t, ht, hblinding⟩ := hatRest.blinding 7 (.inr (by decide))
  obtain ⟨t', ht', hremasking⟩ := hatRest.remasking 0x10000 (by decide) (by decide)
  obtain ⟨shown, hshown, hshows⟩ := hhalted.shows
  refine ⟨⟨t, ht, hblinding.field State.blinding fun _ => rfl⟩,
    ⟨t', ht', hremasking.field State.zremask fun _ => rfl⟩,
    hatRest.blinding_refused 8 (by decide) (by decide), hatRest.bypass true,
    hhalted.sets 2 0x1fff 0x1002 .zaddu (by decide), ⟨shown, hshown, ?_, ?_⟩, ?_⟩
  · rw [hshows.halted]
    decide +kernel
  · rw [hshows.breakpoint]
    decide +kernel
  · have hcount := harrives [(StepsField.run, Steps.run), (StepsField.count, Steps.count),
      (StepsField.resume, Steps.resume)] (by decide) (StepsField.count, Steps.count) (by decide)
    exact hcount.value 0x12345 _

end Driver

end CurveEngine
