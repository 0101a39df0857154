import CurveEngine.Proofs.Paired
import CurveEngine.Proofs.Sequencing

/-! What a driver upholds, whether its operations succeed or fail.

A property of states is upheld if every read keeps it, and every write that `may` allows.
A driver is then paired with itself on the states that have the property (`Upholds.paired`),
so that whatever it does keeps it, by any result or error. Four properties are upheld in
this way: an engine at rest stays at rest while nothing is started (`upholds_resting`),
breakpoints stay as they are armed while only the first is written (`upholds_breakpoints`), the
prime size stays until it is set (`upholds_size`), and the limb that was fetched last stays
while no other is fetched (`upholds_limb`). -/
namespace CurveEngine
open Register Procedure Device

namespace Driver

/-- The same state on both sides, with a property. -/
def Both (I : State → Prop) (s t : State) : Prop := s = t ∧ I s

/-- A property that reads keep, and the writes that are allowed. -/
structure Upholds (I : State → Prop) (may : Sink → UInt32 → Prop) : Prop where
  read : ∀ r s, I s → I (s.readSource r).2
  write : ∀ r value s, may r value.toUInt32 → I s → I (s.writeSink r value)
  acknowledge : ∀ word, may .errorAck word

namespace Upholds
variable {I : State → Prop} {may : Sink → UInt32 → Prop} (h : Upholds I may) (d : Driver)
include h

theorem paired : Paired (Both I) may d d where
  limit := rfl
  fuel := rfl
  read r _ _ := by
    rintro s t ⟨rfl, hs⟩
    have hread := (d.ends_read (s := s) r _).mpr ⟨rfl, rfl⟩
    exact .of_ends hread hread ⟨rfl, h.read r s hs⟩
  capabilities := by
    rintro s t ⟨rfl, -⟩
    have hread : Ends bus d.capabilities s _ _ := (d.ends_read .capabilities _).mpr ⟨rfl, rfl⟩
    exact ⟨_, _, ⟨rfl, rfl, rfl, rfl⟩, hread, hread⟩
  write r word hr := by
    rintro s t ⟨rfl, hs⟩
    have hwrite := (d.ends_write (s := s) r word ()).mpr rfl
    refine .of_ends hwrite hwrite ⟨rfl, h.write r _ s ?_ hs⟩
    rwa [UInt32.toUInt32_toUInt64]
  acknowledge := h.acknowledge

theorem transferWords (len : Nat) :
    Operation.Lockstep (Both I) (d.transferWords len) (d.transferWords len) := by
  refine (Operation.Lockstep.lift (h.paired d).numberBytes).bind fun bytes => ?_
  dsimp only
  split
  · exact .throw _
  · exact .pure _

theorem sendWord (hdata : ∀ word, may .writeData word) (word : UInt64) :
    Operation.Lockstep (Both I) (d.sendWord word) (d.sendWord word) := by
  refine (h.paired d).waitIdle.bind fun _ => (Operation.Lockstep.lift ?_).bind fun _ =>
    (h.paired d).settle
  rintro s t ⟨rfl, hs⟩
  have hwrite := (d.ends_writeWord (s := s) .writeData word ()).mpr rfl
  exact .of_ends hwrite hwrite ⟨rfl, h.write .writeData _ s (hdata _) hs⟩

theorem receiveWords (count : Nat) :
    Recording.Lockstep (Both I) (d.receiveWords count) (d.receiveWords count) := by
  induction count with
  | zero => exact .pure ()
  | succ count ih =>
    have hread : Lockstep (Both I) (d.readWord .readData) (d.readWord .readData) := by
      rintro s t ⟨rfl, hs⟩
      have hread := (d.ends_readWord (s := s) .readData _).mpr ⟨rfl, rfl⟩
      exact .of_ends hread hread ⟨rfl, h.read .readData s hs⟩
    have hword : Operation.Lockstep (Both I) d.receiveWord d.receiveWord :=
      (h.paired d).waitIdle.bind fun _ => (Operation.Lockstep.lift hread).bind fun _ =>
        (h.paired d).settle.bind fun _ => .pure _
    exact (Recording.Lockstep.lift hword).bind fun _ => (Recording.Lockstep.modify _).bind fun _ =>
      ih

/-- Transfers are made of reads and writes as well. -/
theorem transfers (hdata : ∀ word, may .writeData word)
    (hopen : ∀ command, Transfers command → may .control command.word) :
    PairedTransfers (Both I) may (fun _ => True) d d where
  toPaired := h.paired d
  bytes _ _ _ := trivial
  send bytes destination _ :=
    (h.transferWords d bytes.length).bind fun words =>
      ((h.paired d).openWrite hopen destination).bind fun _ =>
        .forM _ fun word _ => h.sendWord d hdata word
  receive command hcommand buffer _ := by
    have hwords : Recording.Lockstep (Both I) (d.readWords command buffer.length)
        (d.readWords command buffer.length) :=
      (Recording.Lockstep.lift (h.transferWords d _)).bind fun _ =>
        (Recording.Lockstep.lift
          ((h.paired d).writeSettled (hopen command hcommand.transfers))).bind fun _ =>
            h.receiveWords d _
    exact (hwords []).bind fun _ => .pure _

/-- Two properties are upheld by what both allow. -/
theorem and {J : State → Prop} {may' : Sink → UInt32 → Prop} (h' : Upholds J may') :
    Upholds (fun s => I s ∧ J s) (fun r word => may r word ∧ may' r word) where
  read r s hs := ⟨h.read r s hs.1, h'.read r s hs.2⟩
  write r value s hr hs := ⟨h.write r value s hr.1 hs.1, h'.write r value s hr.2 hs.2⟩
  acknowledge word := ⟨h.acknowledge word, h'.acknowledge word⟩

end Upholds

/-- What either of two procedures keeps on its own holds when they are done. -/
theorem abreast_and {α : Type} {R : State → State → Prop} {I J : State → Prop} {p q : Procedure α}
    {s t : State} (h : Abreast R p s q t) (hp : Lockstep (Both I) p p)
    (hq : Lockstep (Both J) q q) (hs : I s) (ht : J t) :
    Abreast (fun u v => R u v ∧ I u ∧ J v) p s q t := by
  obtain ⟨x, u, v, hu, hv, hr⟩ := h
  obtain ⟨x', u', w, hu', hw, -, hI⟩ := hp s s ⟨rfl, hs⟩
  obtain ⟨y', v', w', hv', hw', -, hJ⟩ := hq t t ⟨rfl, ht⟩
  obtain ⟨rfl, rfl⟩ := Prod.mk.inj (hu.symm.trans hu')
  obtain ⟨rfl, rfl⟩ := Prod.mk.inj (hv.symm.trans hv')
  exact ⟨x, u, v, hu, hv, hr, hI, hJ⟩

/-- Paired drivers stay paired where either upholds a property of its own. -/
theorem Paired.and {R : State → State → Prop} {I J : State → Prop}
    {may may' : Sink → UInt32 → Prop} {d d' : Driver} (h : Paired R may d d')
    (hI : Upholds I may') (hJ : Upholds J may') :
    Paired (fun s t => R s t ∧ I s ∧ J t) (fun r word => may r word ∧ may' r word) d d' where
  limit := h.limit
  fuel := h.fuel
  read r hdata hcapabilities s t := fun ⟨hr, hs, ht⟩ =>
    abreast_and (h.read r hdata hcapabilities s t hr) ((hI.paired d).read r hdata hcapabilities)
      ((hJ.paired d').read r hdata hcapabilities) hs ht
  capabilities s t hr := h.capabilities s t hr.1
  write r word hmay s t := fun ⟨hr, hs, ht⟩ =>
    abreast_and (h.write r word hmay.1 s t hr) ((hI.paired d).write r word hmay.2)
      ((hJ.paired d').write r word hmay.2) hs ht
  acknowledge word := ⟨h.acknowledge word, hI.acknowledge word⟩

/-- A recording that keeps a property either fails with it, or goes on with it. -/
theorem ends_on_bind_of_keeps {ρ α β : Type} {I : State → Prop} {op : Recording ρ α}
    {f : α → Recording ρ β} {r r' : ρ} {s u : State} {x : Except DriverError β} (hs : I s)
    (hop : Recording.Lockstep (Both I) op op) (h : Ends bus ((op >>= f).on r) s (x, r') u) :
    I u ∨ ∃ a q t, I t ∧ Ends bus ((f a).on q) t (x, r') u := by
  rcases (Recording.ends_on_bind op f r r' s u x).mp h with ⟨a, q, t, ha, hrest⟩ | ⟨e, he, -⟩
  · exact .inr ⟨a, q, t, (hop r).keeps hs ha, hrest⟩
  · exact .inl ((hop r).keeps hs he)

end Driver

/-! ### What single accesses keep -/

namespace Device.State

/-- The sequencer, the limb that was fetched last, the parameters and the prime size. -/
def core (s : State) : Sequencer × UInt32 × Bool × Parameters × Nat :=
  (s.sequencer, s.limb, s.limbReady, s.params, s.size)

theorem core_readSource (r : Source) (s : State) : (s.readSource r).2.core = s.core :=
  readSource_keeps (P := fun t => t.core = s.core) (fun _ _ _ _ _ _ => rfl) r

theorem core_openWrite (s : State) (address : UInt32) (scalar : Bool) :
    (s.openWrite address scalar).core = s.core :=
  openWrite_keeps (P := fun t => t.core = s.core) (fun _ _ _ _ _ _ => rfl) address scalar

theorem core_openRead (s : State) (address : UInt32) (token : Bool) :
    (s.openRead address token).core = s.core :=
  openRead_keeps (P := fun t => t.core = s.core) (fun _ _ => rfl) address token

/-- A control word that opens a transfer. -/
def OpensTransfer (word : UInt32) : Prop :=
  Control.writeNumber.test word = true ∨ Control.readNumber.test word = true

theorem core_control (s : State) {word : UInt32} (h : OpensTransfer word) :
    (s.control word).core = s.core := by
  simp only [State.control, ControlField.agrees]
  split
  · rfl
  split
  · exact core_openWrite s.occupy _ _
  rename_i hwrite
  rw [if_pos (h.resolve_left hwrite)]
  exact core_openRead s.occupy _ _

theorem core_writeData (s : State) (value : UInt64) : (s.writeData value).core = s.core :=
  writeData_keeps (P := fun t => t.core = s.core) (fun _ _ _ _ _ => rfl) value

theorem core_setBlinding (s : State) (word : UInt32) : (s.setBlinding word).core = s.core :=
  setBlinding_keeps (P := fun t => t.core = s.core) (fun _ _ => rfl) word

theorem core_setShuffle (s : State) (enable : Bool) : (s.setShuffle enable).core = s.core :=
  setShuffle_keeps (P := fun t => t.core = s.core) (fun _ _ => rfl) enable

/-- Registers whose writes reach neither the sequencer nor the limb that was fetched, nor the
prime size. -/
def Peripheral (r : Sink) : Prop :=
  r ≠ .control ∧ r ≠ .softReset ∧ r ≠ .primeSize ∧ r ≠ .halt ∧ r ≠ .breakpoint ∧ r ≠ .steps ∧
    r ≠ .limbReadAddress

theorem core_writeSink {r : Sink} (h : Peripheral r) (value : UInt64) (s : State) :
    (s.writeSink r value).core = s.core := by
  have hdebug (t : State) (ht : t.core = s.core) :=
    debug_keeps (P := fun u => u.core = s.core) rfl ht
  obtain ⟨hcontrol, hreset, hsize, hhalt, hbreakpoint, hsteps, hlimb⟩ := h
  cases r with
  | control => exact absurd rfl hcontrol
  | softReset => exact absurd rfl hreset
  | primeSize => exact absurd rfl hsize
  | halt => exact absurd rfl hhalt
  | breakpoint => exact absurd rfl hbreakpoint
  | steps => exact absurd rfl hsteps
  | limbReadAddress => exact absurd rfl hlimb
  | writeData => exact s.core_writeData value
  | blinding => exact s.core_setBlinding _
  | shuffle => exact s.core_setShuffle _
  | r0Null | r1Null | zremask | token | irq | errorAck | smallScalar => rfl
  | _ => exact hdebug _ rfl

/-! ### What a run keeps -/

/-- The parameters, the prime size, and the breakpoints as they are armed. -/
def armament (s : State) : Parameters × Nat × Vector (Option Breakpoint) breakpointCount :=
  (s.params, s.size, s.sequencer.breakpoints)

theorem breakpoints_raise (q : Sequencer) (event : RunEvent) :
    (q.raise event).breakpoints = q.breakpoints := by
  unfold Sequencer.raise
  split
  · rfl
  · rfl

theorem run_raise (q : Sequencer) (event : RunEvent) : (q.raise event).run = q.run := by
  unfold Sequencer.raise
  split
  · rfl
  · rfl

/-- A halted engine that has been told to go on. -/
def released (event : RunEvent) (s : State) : State :=
  { s with sequencer := { s.sequencer.raise event with hit := none } }

theorem step_resume {s : State} (hhalted : s.isHalted = true) {word : UInt32}
    (hresume : Steps.resume.test word = true) :
    s.step word = (s.released .resume).proceed none := by
  simp only [State.step, StepsField.agrees, hhalted, hresume, Bool.not_true, Bool.false_eq_true,
    if_false, if_true]
  rfl

theorem step_run {s : State} (hhalted : s.isHalted = true) {word : UInt32}
    (hresume : Steps.resume.test word = false) (hrun : Steps.run.test word = true) :
    s.step word = (s.released .step).proceed (some (max (Steps.count.get word).toNat 1)) := by
  simp only [State.step, StepsField.agrees, hhalted, hresume, hrun, Bool.not_true,
    Bool.false_eq_true, if_false, if_true]
  rfl

/-- A word that tells a halted run neither way. -/
theorem step_idle {s : State} {word : UInt32}
    (hresume : Steps.resume.test word = false) (hrun : Steps.run.test word = false) :
    s.step word = s := by
  simp only [State.step, StepsField.agrees, hresume, hrun, Bool.false_eq_true, if_false, ite_self]

/-- Stepping and resuming make a halted engine go on, and do nothing to any other. -/
theorem step_cases (s : State) (word : UInt32) :
    s.step word = s ∨ s.sequencer.state = .halted ∧ ∃ event budget,
      RunState.next? .halted event = some .running ∧
        s.step word = (s.released event).proceed budget := by
  unfold State.step
  split
  · exact .inl rfl
  rename_i hhalted
  have hstate : s.sequencer.state = .halted := by
    simpa [State.isHalted, Sequencer.isHalted] using hhalted
  split
  · exact .inr ⟨hstate, .resume, none, rfl, rfl⟩
  split
  · exact .inr ⟨hstate, .step, _, rfl, rfl⟩
  · exact .inl rfl

theorem armament_finish (s : State) : s.finish.armament = s.armament := by
  unfold State.finish
  split
  · rfl
  · exact congrArg (s.params, s.size, ·) (breakpoints_raise _ _)

theorem armament_walk (s : State) (passed pending : List Position) (result : Point)
    (budget : Option Nat) : (s.walk passed result budget pending).armament = s.armament := by
  induction pending generalizing s passed budget with
  | nil => exact s.armament_finish
  | cons p rest ih =>
    simp only [State.walk]
    split
    · exact congrArg (s.params, s.size, ·) (breakpoints_raise _ _)
    · exact ih (s.arrive ⟨p :: passed, rest, result⟩ p) _ _

theorem armament_proceed (s : State) (budget : Option Nat) :
    (s.proceed budget).armament = s.armament := by
  unfold State.proceed
  split
  · exact s.armament_finish
  · exact s.armament_walk _ _ _ _

theorem armament_step (s : State) (word : UInt32) : (s.step word).armament = s.armament := by
  rcases s.step_cases word with hstep | ⟨-, event, budget, -, hstep⟩
  · rw [hstep]
  · rw [hstep, armament_proceed]
    exact congrArg (s.params, s.size, ·) (breakpoints_raise s.sequencer event)

theorem armament_startMultiplication (s : State) :
    s.startMultiplication.armament = s.armament := by
  unfold State.startMultiplication
  dsimp only
  split
  · rfl
  · rw [armament_proceed, drawRandoms_eq, effectiveScalar_snd]
    exact congrArg (s.params, s.size, ·) (breakpoints_raise _ _)

theorem armament_operate (s : State) (word : UInt32) : (s.operate word).armament = s.armament :=
  operate_keeps (P := fun t => t.armament = s.armament) (fun _ _ _ _ => rfl) word

theorem armament_control (s : State) (word : UInt32) : (s.control word).armament = s.armament := by
  by_cases hopens : OpensTransfer word
  · have hcore := s.core_control hopens
    exact congrArg (fun core => (core.2.2.2.1, core.2.2.2.2, core.1.breakpoints)) hcore
  rw [OpensTransfer, not_or] at hopens
  simp only [State.control, ControlField.agrees]
  split
  · rfl
  rw [if_neg hopens.1, if_neg hopens.2]
  split
  · exact armament_startMultiplication _
  · exact armament_operate _ word

theorem armament_writeSink {r : Sink} (hreset : r ≠ .softReset) (hsize : r ≠ .primeSize)
    (hbreakpoint : r ≠ .breakpoint) (value : UInt64) (s : State) :
    (s.writeSink r value).armament = s.armament := by
  by_cases hperipheral : Peripheral r
  · exact congrArg (fun core => (core.2.2.2.1, core.2.2.2.2, core.1.breakpoints))
      (core_writeSink hperipheral value s)
  have hdebug (t : State) (ht : t.armament = s.armament) :=
    debug_keeps (P := fun u => u.armament = s.armament) rfl ht
  cases r with
  | control => exact s.armament_control _
  | softReset => exact absurd rfl hreset
  | primeSize => exact absurd rfl hsize
  | breakpoint => exact absurd rfl hbreakpoint
  | steps => exact hdebug _ (s.armament_step _)
  | limbReadAddress => exact hdebug _ rfl
  | halt =>
    exact hdebug _ (writeDebug_halt_keeps (P := fun u => u.armament = s.armament) (fun _ => rfl) _)
  | _ => exact absurd (by simp [Peripheral]) hperipheral

end Device.State

/-! ### What is upheld -/

namespace Driver
open State

/-- The write starts no multiplication and lets none go on. -/
def StartsNothing (r : Sink) (word : UInt32) : Prop :=
  r ≠ .steps ∧ (r = .control → OpensTransfer word)

theorem startsNothing_of_ne {r : Sink} (hsteps : r ≠ .steps) (hcontrol : r ≠ .control)
    (word : UInt32) : StartsNothing r word := ⟨hsteps, fun h => absurd h hcontrol⟩

theorem opensTransfer {command : Command} (h : Transfers command) :
    OpensTransfer command.word := by
  cases command with
  | writeNumber | writeScalar =>
    left
    simp (disch := decide) only [Command.word, BitField.test_set_of_apart,
      BitField.test_put_of_apart, BitField.test_put]
  | readNumber | readToken =>
    right
    simp (disch := decide) only [Command.word, BitField.test_set_of_apart,
      BitField.test_put_of_apart, BitField.test_put]
  | operate operation => exact absurd rfl (h operation)

theorem upholds_coherent : Upholds State.Coherent (fun _ _ => True) where
  read r _ hs := hs.readSource r
  write r value _ _ hs := hs.writeSink r value
  acknowledge _ := trivial

theorem upholds_sequencer (q : Sequencer) :
    Upholds (fun s => s.sequencer = q) (fun r _ => Peripheral r) where
  read r s hs := (congrArg Prod.fst (core_readSource r s)).trans hs
  write r value s hr hs := (congrArg Prod.fst (core_writeSink hr value s)).trans hs
  acknowledge _ := by simp [Peripheral]

/-- An engine at rest stays at rest while nothing is started. -/
theorem upholds_resting : Upholds (fun s => s.multiplying = false) StartsNothing where
  read r s hs := (congrArg (fun core => core.1.run.isSome) (core_readSource r s)).trans hs
  write r value s hr hs := by
    by_cases hperipheral : Peripheral r
    · exact (congrArg (fun core => core.1.run.isSome) (core_writeSink hperipheral value s)).trans hs
    have hdebug (t : State) (ht : t.multiplying = false) :=
      debug_keeps (P := fun u => u.multiplying = false) hs ht
    cases r with
    | control => exact (congrArg (fun core => core.1.run.isSome) (core_control s (hr.2 rfl))).trans hs
    | softReset => rfl
    | primeSize =>
      exact setSize_keeps (P := fun u => u.multiplying = false) (fun _ _ => hs) _
    | steps => exact absurd rfl hr.1
    | breakpoint | limbReadAddress => exact hdebug _ hs
    | halt =>
      exact hdebug _ (writeDebug_halt_keeps (P := fun u => u.multiplying = false) (fun _ => hs) _)
    | _ => exact absurd (by simp [Peripheral]) hperipheral
  acknowledge _ := ⟨by decide, nofun⟩

/-- The breakpoints other than the first stay as they are armed while none of them is
written, however far a run goes. -/
theorem upholds_breakpoints (s : State) :
    Upholds
      (fun t => t.params = s.params ∧
        t.sequencer.breakpoints.setIfInBounds 0 none = s.sequencer.breakpoints.setIfInBounds 0 none)
      (fun r word => r ≠ .softReset ∧
        (r = .breakpoint → Register.Breakpoint.id.get word = 0)) where
  read r t ht := by
    have hcore := core_readSource r t
    simp only [core, Prod.mk.injEq] at hcore
    rwa [hcore.1, hcore.2.2.2.1]
  write r value t hr ht := by
    by_cases hbreakpoint : r = .breakpoint
    · subst hbreakpoint
      show (if t.params.debug then _ else t).params = _ ∧
        (if t.params.debug then _ else t).sequencer.breakpoints.setIfInBounds 0 none = _
      split
      · refine ⟨ht.1, ?_⟩
        simp only [State.writeDebug, Sequencer.setBreakpoint, BreakpointField.agrees, hr.2 rfl]
        exact (Vector.setIfInBounds_setIfInBounds ..).trans ht.2
      · exact ht
    by_cases hsize : r = .primeSize
    · subst hsize
      show (t.setSize _).params = _ ∧ (t.setSize _).sequencer.breakpoints.setIfInBounds 0 none = _
      unfold State.setSize
      split
      · exact ht
      · exact ht
    · have harmament := armament_writeSink hr.1 hsize hbreakpoint value t
      simp only [armament, Prod.mk.injEq] at harmament
      rwa [harmament.1, harmament.2.2]
  acknowledge _ := ⟨by decide, nofun⟩

/-- The prime size stays until it is written, or the engine is reset. -/
theorem upholds_size (n : Nat) :
    Upholds (fun s => s.size = n) (fun r _ => r ≠ .primeSize ∧ r ≠ .softReset) where
  read r s hs := (congrArg (fun core => core.2.2.2.2) (core_readSource r s)).trans hs
  write r value s hr hs := by
    by_cases hbreakpoint : r = .breakpoint
    · subst hbreakpoint
      show (if s.params.debug then _ else s : State).size = n
      split
      · exact hs
      · exact hs
    · exact (congrArg (fun armament => armament.2.1)
        (armament_writeSink hr.2 hr.1 hbreakpoint value s)).trans hs
  acknowledge _ := by decide

/-- The limb that was fetched last stays while numbers are transferred. -/
theorem upholds_limb (limb : UInt32) (ready : Bool) :
    Upholds (fun s => s.limb = limb ∧ s.limbReady = ready)
      (fun r word => Peripheral r ∨ r = .control ∧ OpensTransfer word) where
  read r s hs := by
    have hcore := core_readSource r s
    simp only [core, Prod.mk.injEq] at hcore
    exact ⟨hcore.2.1.trans hs.1, hcore.2.2.1.trans hs.2⟩
  write r value s hr hs := by
    have hcore : (s.writeSink r value).core = s.core := by
      rcases hr with hperipheral | ⟨rfl, hopens⟩
      · exact core_writeSink hperipheral value s
      · exact core_control s hopens
    simp only [core, Prod.mk.injEq] at hcore
    exact ⟨hcore.2.1.trans hs.1, hcore.2.2.1.trans hs.2⟩
  acknowledge _ := .inl (by simp [Peripheral])

end Driver

end CurveEngine
