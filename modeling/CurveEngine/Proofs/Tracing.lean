import CurveEngine.Proofs.Halting
import CurveEngine.Proofs.Sequencing

/-! What stepping through a multiplication records.

A driver that steps through a run looks at the engine after each opcode. `observe` is
what one look adds to a trace and `follow` what a stretch of the run adds; both are
functions of the opcodes and of Fp memory alone, so that what is recorded does not depend
on how long the driver polled. Stepping ends at the first opcode at the last spot
(`stepOpcodes_only`), and gets there if there is one (`records_stepOpcodes`). -/
namespace CurveEngine
open Register Procedure Device Operation

namespace Trace
open Driver (stepLines spotText)

/-- The ladder's registers, read from Fp memory. -/
def stepOf (layout : LimbLayout) (memory : FpMemory) (p : Position) (phase : TracePhase) :
    TraceStep where
  phase
  spot := p.spot
  flags := p.flags
  xR0 := State.slotOf layout Microcode.Slot.xR0 memory
  yR0 := State.slotOf layout Microcode.Slot.yR0 memory
  xR1 := State.slotOf layout Microcode.Slot.xR1 memory
  yR1 := State.slotOf layout Microcode.Slot.yR1 memory
  zR01 := State.slotOf layout Microcode.Slot.zR01 memory

/-- The log line of a random value. -/
def randomLine (p : Position) (phase : TracePhase) (value : LimbNumber) : String :=
  spotText p.spot ++ ": " ++ phase.name ++ " = " ++ value.text

/-- A trace to which the values that a phase has produced are added. -/
def record (layout : LimbLayout) (memory : FpMemory) (p : Position) (phase : TracePhase)
    (t : Trace) : Trace :=
  match phase with
  | .alpha =>
    let value := State.slotOf layout Microcode.Slot.alpha memory
    { t.addLine (randomLine p .alpha value) with alpha := some value }
  | .phi0 =>
    let value := State.slotOf layout Microcode.Slot.phi0 memory
    { t.addLine (randomLine p .phi0 value) with phi0 := some value }
  | .phi1 =>
    let value := State.slotOf layout Microcode.Slot.phi1 memory
    { t.addLine (randomLine p .phi1 value) with phi1 := some value }
  | .lambda =>
    let value := State.slotOf layout Microcode.Slot.lambda memory
    { t.addLine (randomLine p .lambda value) with lambda := some value }
  | phase =>
    let step := stepOf layout memory p phase
    let logged := (stepLines step).foldl (fun t line => t.addLine line) t
    { logged with steps := logged.steps.push step }

/-- A trace after a look at an opcode that has just been executed. -/
def observe (layout : LimbLayout) (memory : FpMemory) (p : Position) (t : Trace) : Trace :=
  let counted := { t with stepCount := t.stepCount + 1 }
  match t.options.points.phaseAt? p.spot with
  | some phase => counted.record layout memory p phase
  | none => counted

/-- Fp memory after an opcode. -/
def memoryNext (layout : LimbLayout) (memory : FpMemory) (p : Position) : FpMemory :=
  p.writes.foldl (fun fp w => FpMemory.store layout w.slot w.value fp) memory

/-- A trace after a stretch of opcodes: the device stores by one layout and the driver
reads by another. -/
def follow (stored shown : LimbLayout) : List Position → FpMemory → Trace → Trace
  | [], _, t => t
  | p :: rest, memory, t =>
    let memory := memoryNext stored memory p
    follow stored shown rest memory (t.observe shown memory p)

theorem options_record (layout : LimbLayout) (memory : FpMemory) (p : Position)
    (phase : TracePhase) (t : Trace) : (t.record layout memory p phase).options = t.options := by
  cases phase <;> rfl

theorem options_observe (layout : LimbLayout) (memory : FpMemory) (p : Position) (t : Trace) :
    (t.observe layout memory p).options = t.options := by
  simp only [observe]
  split
  · exact options_record ..
  · rfl

end Trace

/-! ### One look -/

namespace Device

/-- The debug bank shows the last opcode executed. -/
theorem Sequencer.spot_statusWord {q : Sequencer} {p : Position} (h : q.last = some p) :
    (⟨(DebugSnapshot.ofWord q.statusWord).pc, (DebugSnapshot.ofWord q.statusWord).state⟩ : Spot) =
      p.spot := by
  have hcode : p.state.code.toNat < 2 ^ DebugStatus.state.width := by
    cases p.state <;> decide
  simp (disch := first | decide | exact hcode) only [DebugSnapshot.ofWord, statusWord, h,
    BitField.get_set_of_lt, BitField.get_set_of_apart, BitField.get_set, MachineState.ofCode_code,
    Position.spot]

end Device

namespace Driver
variable {d : Driver} {s : State}

theorem does_readStep (hdebug : s.params.debug = true) (hchecks : 0 < d.checks)
    (layout : LimbLayout) (phase : TracePhase) {p : Position} (hlast : s.sequencer.last = some p) :
    Does State.Coherent (d.readStep layout phase p.spot) s (Trace.stepOf layout s.fp p phase) s := by
  have hflags : Does State.Coherent d.ladderFlags s p.flags s := by
    have hword : s.sequencer.flagsWord = p.flags := by rw [Sequencer.flagsWord, hlast]
    rw [← hword]
    exact does_ladderFlags hdebug
  have hslot (slot : Nat) := does_readSlot (d := d) hdebug hchecks layout slot
  exact hflags.bind ((hslot _).bind ((hslot _).bind ((hslot _).bind ((hslot _).bind
    ((hslot _).bind (Does.pure _))))))

theorem records_recordRandom (hdebug : s.params.debug = true) (hchecks : 0 < d.checks)
    (layout : LimbLayout) (phase : TracePhase) (slot : Nat) (keep : LimbNumber → Trace → Trace)
    (p : Position) (t : Trace) :
    Records State.Coherent (d.recordRandom layout phase slot keep p.spot) t s ()
      (keep (State.slotOf layout slot s.fp)
        (t.addLine (Trace.randomLine p phase (State.slotOf layout slot s.fp)))) s :=
  (Records.lift (does_readSlot hdebug hchecks layout slot)).bind (Records.modify _)

theorem records_recordStep (hdebug : s.params.debug = true) (hchecks : 0 < d.checks)
    (layout : LimbLayout) (phase : TracePhase) {p : Position} (hlast : s.sequencer.last = some p)
    (t : Trace) :
    Records State.Coherent (d.recordStep layout phase p.spot) t s ()
      (let step := Trace.stepOf layout s.fp p phase
       let logged := (stepLines step).foldl (fun t line => t.addLine line) t
       { logged with steps := logged.steps.push step }) s :=
  (Records.lift (does_readStep hdebug hchecks layout phase hlast)).bind (Records.modify _)

theorem records_recordPhase (hdebug : s.params.debug = true) (hchecks : 0 < d.checks)
    (layout : LimbLayout) (phase : TracePhase) {p : Position} (hlast : s.sequencer.last = some p)
    (t : Trace) :
    Records State.Coherent (d.recordPhase layout phase p.spot) t s ()
      (t.record layout s.fp p phase) s := by
  cases phase with
  | alpha =>
    exact records_recordRandom hdebug hchecks layout .alpha Microcode.Slot.alpha
      (fun v t => { t with alpha := some v }) p t
  | phi0 =>
    exact records_recordRandom hdebug hchecks layout .phi0 Microcode.Slot.phi0
      (fun v t => { t with phi0 := some v }) p t
  | phi1 =>
    exact records_recordRandom hdebug hchecks layout .phi1 Microcode.Slot.phi1
      (fun v t => { t with phi1 := some v }) p t
  | lambda =>
    exact records_recordRandom hdebug hchecks layout .lambda Microcode.Slot.lambda
      (fun v t => { t with lambda := some v }) p t
  | setup | zaddu | zaddc | subtractP | exit =>
    exact records_recordStep hdebug hchecks layout _ hlast t

/-! ### Opcode by opcode -/

/-- A multiplication that is in progress on a debug engine, and a driver that polls it. -/
structure Stepping (d : Driver) (s : State) : Prop where
  running : s.sequencer.state = .running
  unhit : s.sequencer.hit = none
  debug : s.params.debug = true
  attentive : 0 < d.checks

variable {passed rest : List Position} {p : Position} {result : Point} {hit : Option Nat}

theorem writeSink_steps (hdebug : s.params.debug = true) (word : UInt32) :
    s.writeSink .steps word.toUInt64 = s.step word := by
  simp only [State.writeSink, hdebug, if_true, State.writeDebug, UInt32.toUInt32_toUInt64]

/-- A halted run goes on for one opcode. -/
theorem does_step (h : Stepping d s) (run : LadderRun) (hit : Option Nat) :
    Does State.Coherent (d.runOpcodes 1) (s.haltedAt run hit) ()
      (State.walk run.passed run.result (some 1) run.pending (s.after run)) := by
  have hwrite := does_writeDebug (d := d) (s := s.haltedAt run hit) h.debug (r := .steps)
    (by decide) (Steps.count.set 1 (Steps.run.put true 0))
  rwa [writeSink_steps (s := s.haltedAt run hit) h.debug,
    State.step_walk h.running h.unhit _ _ (by decide) (by decide) (by decide)] at hwrite

theorem does_runOpcode (h : Stepping d s) :
    Does State.Coherent (d.runOpcodes 1) (s.haltedAt ⟨passed, p :: rest, result⟩ hit) ()
      (s.haltedAt ⟨p :: passed, rest, result⟩ (s.sequencer.breakpointAt? p)) := by
  rw [← State.walk_one]
  exact does_step h ⟨passed, p :: rest, result⟩ hit

theorem does_look (h : Stepping d s) :
    Does State.Coherent d.waitHaltedOrOver (s.haltedAt ⟨p :: passed, rest, result⟩ hit)
      (some (.ofWord (s.haltedAt ⟨p :: passed, rest, result⟩ hit).sequencer.statusWord))
      (s.haltedAt ⟨p :: passed, rest, result⟩ hit) := by
  have hhalted := State.isHalted_haltedAt h.running ⟨p :: passed, rest, result⟩ hit
  have hwait := does_waitHaltedOrOver (d := d)
    (s := s.haltedAt ⟨p :: passed, rest, result⟩ hit) h.debug h.attentive (.inl hhalted)
  rwa [if_pos hhalted] at hwait

/-- Going on behind the last opcode finishes the run. -/
theorem does_runEnd (h : Stepping d s) :
    Does State.Coherent (d.runOpcodes 1) (s.haltedAt ⟨passed, [], result⟩ hit) ()
      (s.after ⟨passed, [], result⟩).finish := does_step h ⟨passed, [], result⟩ hit

theorem does_lookOver (h : Stepping d s) {run : LadderRun} :
    Does State.Coherent d.waitHaltedOrOver (s.after run).finish none (s.after run).finish := by
  obtain ⟨hhalted, hresting⟩ := State.still_finish h.running run
  have hwait := does_waitHaltedOrOver (d := d) (s := (s.after run).finish) h.debug h.attentive
    (.inr hresting)
  rwa [hhalted, if_neg (by decide)] at hwait

theorem last_haltedAt (h : Stepping d s) (passed rest : List Position) (p : Position)
    (result : Point) (hit : Option Nat) :
    (s.haltedAt ⟨p :: passed, rest, result⟩ hit).sequencer.last = some p := by
  rw [State.haltedAt_eq h.running]
  rfl

/-- Executing an opcode and looking at it. -/
theorem leads_opcode (h : Stepping d s) (layout : LimbLayout) (passed rest : List Position)
    (p : Position) (result : Point) (hit : Option Nat) {t : Trace} (hlimit : t.atLimit = false)
    (fuel : Nat) :
    Leads State.Coherent (d.stepOpcodes layout (fuel + 1)) t
      (s.haltedAt ⟨passed, p :: rest, result⟩ hit)
      (if p.spot = t.options.points.last then pure () else d.stepOpcodes layout fuel)
      (t.observe layout (State.memoryAfter s.limbLayout (p :: passed) s.fp) p)
      (s.haltedAt ⟨p :: passed, rest, result⟩ (s.sequencer.breakpointAt? p)) := by
  have hlast := last_haltedAt h passed rest p result (s.sequencer.breakpointAt? p)
  have hspot := Sequencer.spot_statusWord hlast
  rw [stepOpcodes]
  refine (Records.get.leads _).trans ((Records.get.leads _).trans ?_)
  simp only [hlimit, Bool.false_eq_true, if_false]
  refine ((Records.lift (does_runOpcode h)).leads _).trans
    (((Records.lift (does_look h)).leads _).trans (((Records.modify _).leads _).trans ?_))
  simp only [hspot, Trace.observe]
  cases t.options.points.phaseAt? p.spot with
  | some phase =>
    exact (records_recordPhase (s := s.haltedAt _ _) h.debug h.attentive layout phase hlast _).leads
      _
  | none => exact .refl

/-- Stepping to the last spot of the trace points. -/
theorem leads_stepOpcodes (h : Stepping d s) (layout : LimbLayout) {before : List Position}
    (passed rest : List Position) (result : Point) (hit : Option Nat) (t : Trace)
    (hunlimited : t.options.maxSteps = none)
    (hbefore : ∀ q ∈ before, q.spot ≠ t.options.points.last)
    (hlast : p.spot = t.options.points.last) {fuel : Nat} (hfuel : before.length < fuel) :
    Leads State.Coherent (d.stepOpcodes layout fuel) t
      (s.haltedAt ⟨passed, before ++ p :: rest, result⟩ hit) (pure ())
      (t.follow s.limbLayout layout (before ++ [p]) (State.memoryAfter s.limbLayout passed s.fp))
      (s.haltedAt ⟨p :: (before.reverse ++ passed), rest, result⟩
        (s.sequencer.breakpointAt? p)) := by
  obtain ⟨fuel, rfl⟩ := Nat.exists_eq_succ_of_ne_zero (Nat.ne_zero_of_lt hfuel)
  have hlimit (t : Trace) (ht : t.options.maxSteps = none) : t.atLimit = false := by
    rw [Trace.atLimit, ht]
    rfl
  induction before generalizing passed hit t fuel with
  | nil =>
    have hstep := leads_opcode h layout passed rest p result hit (hlimit t hunlimited) fuel
    rwa [if_pos hlast] at hstep
  | cons q before ih =>
    have hstep := leads_opcode h layout passed (before ++ p :: rest) q result hit (hlimit t hunlimited)
      fuel
    rw [if_neg (hbefore q List.mem_cons_self)] at hstep
    obtain ⟨fuel, rfl⟩ := Nat.exists_eq_succ_of_ne_zero
      (show fuel ≠ 0 from Nat.ne_zero_of_lt (Nat.lt_of_succ_lt_succ hfuel))
    have hrest := ih (q :: passed) (s.sequencer.breakpointAt? q)
      (t.observe layout (State.memoryAfter s.limbLayout (q :: passed) s.fp) q)
      (by rwa [Trace.options_observe])
      (by rw [Trace.options_observe]; exact fun a ha => hbefore a (List.mem_cons_of_mem _ ha))
      (by rwa [Trace.options_observe]) fuel (Nat.lt_of_succ_lt_succ hfuel)
    rw [List.reverse_cons, List.append_assoc, List.singleton_append]
    exact hstep.trans hrest

theorem not_returns_of_atLimit (layout : LimbLayout) {t t' : Trace} (hlimit : t.atLimit = true)
    (fuel : Nat) (u v : State) :
    ¬ Recording.Returns bus (d.stepOpcodes layout (fuel + 1)) t u () t' v := by
  intro h
  simp only [stepOpcodes, Recording.returns_bind, Recording.returns_get] at h
  obtain ⟨_, _, _, ⟨rfl, rfl, rfl⟩, _, _, _, ⟨rfl, rfl, rfl⟩, hrest⟩ := h
  rw [if_pos hlimit] at hrest
  exact Recording.not_returns_bind_throw _ _ _ _ _ _ _ hrest

/-- Stepping past the end of a run is no good. -/
theorem not_returns_of_end (h : Stepping d s) (layout : LimbLayout) {t t' : Trace} (fuel : Nat)
    {u v : State} (hu : u.Alike (s.haltedAt ⟨passed, [], result⟩ hit)) :
    ¬ Recording.Returns bus (d.stepOpcodes layout (fuel + 1)) t u () t' v := by
  intro hreturns
  simp only [stepOpcodes, Recording.returns_bind, Recording.returns_get] at hreturns
  obtain ⟨_, _, _, ⟨rfl, rfl, rfl⟩, _, _, _, ⟨rfl, rfl, rfl⟩, hrest⟩ := hreturns
  split at hrest
  · exact Recording.not_returns_bind_throw _ _ _ _ _ _ _ hrest
  · simp only [Recording.returns_bind, Recording.returns_lift] at hrest
    obtain ⟨_, _, w, ⟨rfl, hrun⟩, halted, _, x, ⟨rfl, hwait⟩, hrest⟩ := hrest
    have hw := ((does_runEnd h).only _ _ _ hu hrun).2
    obtain ⟨rfl, -⟩ := (does_lookOver h).only _ _ _ hw hwait
    exact Recording.not_returns_throw _ _ _ _ _ _ hrest

/-- What stepping has done when it returns: it has stopped at the first opcode at the
last spot. -/
theorem stepOpcodes_only (h : Stepping d s) (layout : LimbLayout) {fuel : Nat}
    {pending : List Position} {t t' : Trace} {u v : State} (hcoherent : u.Coherent)
    (hu : u.Alike (s.haltedAt ⟨passed, pending, result⟩ hit))
    (hreturns : Recording.Returns bus (d.stepOpcodes layout fuel) t u () t' v) :
    ∃ before p rest hit', pending = before ++ p :: rest ∧
      (∀ q ∈ before, q.spot ≠ t.options.points.last) ∧ p.spot = t.options.points.last ∧
      t' = t.follow s.limbLayout layout (before ++ [p])
        (State.memoryAfter s.limbLayout passed s.fp) ∧
      v.Alike (s.haltedAt ⟨p :: (before.reverse ++ passed), rest, result⟩ hit') := by
  induction fuel generalizing passed pending hit t u with
  | zero => exact nomatch hreturns
  | succ fuel ih =>
    cases hlimit : t.atLimit with
    | true => exact absurd hreturns (not_returns_of_atLimit layout hlimit fuel u v)
    | false =>
    cases pending with
    | nil => exact absurd hreturns (not_returns_of_end h layout fuel hu)
    | cons p pending =>
      obtain ⟨w, hw, hwc, hsame⟩ :=
        leads_opcode h layout passed pending p result hit hlimit fuel u hu hcoherent
      have hrest := (hsame _ _ _).mp hreturns
      by_cases hlast : p.spot = t.options.points.last
      · rw [if_pos hlast] at hrest
        obtain ⟨-, rfl, rfl⟩ := (Recording.returns_pure _ _ _ _ _ _).mp hrest
        exact ⟨[], p, pending, _, rfl, fun _ hq => absurd hq List.not_mem_nil, hlast, rfl, hw⟩
      · rw [if_neg hlast] at hrest
        obtain ⟨before, q, rest, hit', rfl, hbefore, hq, rfl, hv⟩ := ih hwc hw hrest
        rw [Trace.options_observe] at hbefore hq
        refine ⟨p :: before, q, rest, hit', rfl, ?_, hq, rfl, ?_⟩
        · intro a ha
          rcases List.mem_cons.mp ha with rfl | ha
          · exact hlast
          · exact hbefore a ha
        · rwa [List.reverse_cons, List.append_assoc, List.singleton_append]

end Driver

end CurveEngine
