import CurveEngine.Proofs.Concurring
import CurveEngine.Proofs.Halting
import CurveEngine.Proofs.Twins

/-! Every wait for an engine at rest is over in time.

Waiting is all in which the drivers of a crew can differ, and an engine at rest is waited for with
few looks: each of them brings it nearer to being idle, or to being warmed up. So the drivers concur
on every operation, one lemma an operation, as long as they keep the engine at rest. What they keep
is a property of engines that reads and allowed writes uphold; an engine is `Built` with given
parameters for the operations that wait for nothing, and `Calm` for those that wait for it. Nothing
of what they do ends in a report of an engine that does not respond (`Responsive`). -/
namespace CurveEngine
open Register Procedure Device

variable {α β γ ρ : Type} {c : Crew} {I : State → Prop}

/-- A result, but not the report of an engine that does not respond. -/
def Responsive (x : Except DriverError α) : Prop := x ≠ .error .unresponsive

namespace Responsive

theorem ok (a : α) : Responsive (.ok a : Except DriverError α) := nofun

theorem error {e : DriverError} (h : e ≠ .unresponsive) :
    Responsive (.error e : Except DriverError α) :=
  fun he => h (Except.error.inj he)

theorem cast {e : DriverError} (h : Responsive (.error e : Except DriverError α)) :
    Responsive (.error e : Except DriverError β) := fun he => h (congrArg _ (Except.error.inj he))

theorem map {x : Except DriverError α} (h : Responsive x) (f : α → β) : Responsive (x.map f) := by
  cases x with
  | ok a => exact ok (f a)
  | error e => exact h.cast

end Responsive

/-! ### Procedures -/

namespace Procedure

/-- From every engine with a property the drivers of a crew concur on a procedure, which keeps the
property, and whose results have a property of their own. -/
def Carries (c : Crew) (I : State → Prop) (Q : α → Prop) (F : Driver → Procedure α) : Prop :=
  ∀ s, I s → Concur c F s fun a t => Q a ∧ I t

/-- From every engine with a property the drivers concur on a procedure, which keeps it. -/
def Concurs (c : Crew) (I : State → Prop) (F : Driver → Procedure α) : Prop :=
  Carries c I (fun _ => True) F

theorem Carries.map {F : Driver → Procedure α} {Q : α → Prop} {Q' : β → Prop} {f : α → β}
    (h : Carries c I Q F) (hf : ∀ a, Q a → Q' (f a)) :
    Carries c I Q' (fun d => F d >>= fun a => pure (f a)) :=
  fun s hs => (h s hs).bind fun a _ ha => .pure ⟨hf a ha.1, ha.2⟩

namespace Concurs
variable {F : Driver → Procedure α}

theorem pure (a : α) : Concurs c I (fun _ => pure a) := fun _ hs => .pure ⟨trivial, hs⟩

theorem bind {G : Driver → α → Procedure β} (h : Concurs c I F)
    (hG : ∀ a, Concurs c I fun d => G d a) : Concurs c I (fun d => F d >>= G d) :=
  fun s hs => (h s hs).bind fun a t ha => hG a t ha.2

end Concurs

end Procedure

/-! ### Operations -/

namespace Operation

/-- From every engine with a property the drivers concur on an operation, which keeps it, whether
it returns or throws, and does not report an engine that does not respond. -/
def Concurs (c : Crew) (I : State → Prop) (F : Driver → Operation α) : Prop :=
  Carries c I Responsive fun d => (F d).run

namespace Concurs
variable {F : Driver → Operation α}

theorem pure (a : α) : Concurs c I (fun _ => pure a) := fun _ hs => .pure ⟨.ok a, hs⟩

theorem throw {e : DriverError} (h : e ≠ .unresponsive) :
    Concurs c I (fun _ => (throw e : Operation α)) :=
  fun _ hs => .pure (a := Except.error e) ⟨.error h, hs⟩

theorem bind {G : Driver → α → Operation β} (h : Concurs c I F)
    (hG : ∀ a, Concurs c I fun d => G d a) : Concurs c I (fun d => F d >>= G d) :=
  fun s hs => (h s hs).operation (fun a t ha => hG a t ha.2) fun _ _ he => ⟨he.1.cast, he.2⟩

/-- What a procedure carries may be looked at by what follows. -/
theorem carry {P : Driver → Procedure α} {Q : α → Prop} {G : Driver → α → Operation β}
    (h : Carries c I Q P) (hG : ∀ a, Q a → Concurs c I fun d => G d a) :
    Concurs c I (fun d => (liftM (P d) : Operation α) >>= G d) :=
  fun s hs => (h s hs).lift fun a t ha => hG a ha.1 t ha.2

theorem lift {P : Driver → Procedure α} (h : Procedure.Concurs c I P) :
    Concurs c I (fun d => (liftM (P d) : Operation α)) :=
  fun s hs => (h s hs).map fun a _ ha => ⟨.ok a, ha.2⟩

theorem notify (notice : Notice) :
    Concurs c I (fun _ => (liftM (notify notice) : Operation Unit)) :=
  lift fun _ hs => .notify notice ⟨trivial, hs⟩

theorem ofExcept {x : Except DriverError α} (h : Responsive x) :
    Concurs c I (fun _ => (ofExcept x : Operation α)) := by
  cases x with
  | ok a => exact pure a
  | error e => exact throw fun he => h (congrArg _ he)

theorem forM {f : Driver → α → Operation Unit} (xs : List α)
    (h : ∀ x, Concurs c I fun d => f d x) : Concurs c I (fun d => xs.forM (f d)) := by
  induction xs with
  | nil => exact pure ()
  | cons x xs ih => exact (h x).bind fun _ => ih

end Concurs

end Operation

/-! ### Recordings -/

namespace Recording

/-- From every engine with a property the drivers concur on a recording, on whatever record. -/
def Concurs (c : Crew) (I : State → Prop) (F : Driver → Recording ρ α) : Prop :=
  ∀ r, Carries c I (fun x => Responsive x.1) fun d => (F d).on r

namespace Concurs
variable {F : Driver → Recording ρ α}

theorem pure (a : α) : Concurs c I (fun _ => (pure a : Recording ρ α)) :=
  fun r _ hs => .pure (a := (Except.ok a, r)) ⟨.ok a, hs⟩

theorem throw {e : DriverError} (h : e ≠ .unresponsive) :
    Concurs c I (fun _ => (throw e : Recording ρ α)) :=
  fun r _ hs => .pure (a := (Except.error e, r)) ⟨.error h, hs⟩

theorem bind {G : Driver → α → Recording ρ β} (h : Concurs c I F)
    (hG : ∀ a, Concurs c I fun d => G d a) : Concurs c I (fun d => F d >>= G d) :=
  fun r s hs => (h r s hs).recording (fun a r' t ha => hG a r' t ha.2)
    fun _ _ _ he => ⟨he.1.cast, he.2⟩

theorem carry {P : Driver → Procedure α} {Q : α → Prop} {G : Driver → α → Recording ρ β}
    (h : Carries c I Q P) (hG : ∀ a, Q a → Concurs c I fun d => G d a) :
    Concurs c I (fun d => (liftM (P d) : Recording ρ α) >>= G d) := by
  intro r s hs
  simp only [on_procedure_bind]
  exact (h s hs).bind fun a t ha => hG a ha.1 r t ha.2

theorem lift {F : Driver → Operation α} (h : Operation.Concurs c I F) :
    Concurs c I (fun d => (liftM (F d) : Recording ρ α)) :=
  fun r => Carries.map (f := fun x => (x, r)) h fun _ hx => hx

theorem procedure {P : Driver → Procedure α} (h : Procedure.Concurs c I P) :
    Concurs c I (fun d => (liftM (P d) : Recording ρ α)) := lift (.lift h)

theorem get : Concurs c I (fun _ => (get : Recording ρ ρ)) :=
  fun r _ hs => .pure (a := (Except.ok r, r)) ⟨.ok r, hs⟩

theorem set (x : ρ) : Concurs c I (fun _ => (set x : Recording ρ PUnit)) :=
  fun _ _ hs => .pure (a := (Except.ok _, x)) ⟨.ok _, hs⟩

theorem modify (f : ρ → ρ) : Concurs c I (fun _ => (modify f : Recording ρ Unit)) :=
  fun r _ hs => .pure (a := (Except.ok (), f r)) ⟨.ok (), hs⟩

theorem ofExcept {x : Except DriverError α} (h : Responsive x) :
    Concurs c I (fun _ => (ofExcept x : Recording ρ α)) := by
  cases x with
  | ok a => exact pure a
  | error e => exact throw fun he => h (congrArg _ he)

end Concurs

end Recording

namespace Device.State
variable {s : State}

/-- A limb is ready as soon as it is asked for. -/
theorem limbReady_writeSink (hdebug : s.params.debug = true) (value : UInt64) :
    (s.writeSink .limbReadAddress value).limbReady = true := by
  simp only [writeSink, hdebug, if_true, writeDebug]

theorem readSource_limbReady (hdebug : s.params.debug = true) (hready : s.limbReady = true) :
    s.readSource .limbReady = (1, s) := by
  rw [readSource_of_debug hdebug .limbReady rfl]
  simp only [sourceWord, hready]
  rfl

end Device.State

namespace Driver
variable {p : Parameters} {may : Sink → UInt32 → Prop}

/-! ### What waits for nothing -/

/-- What is upheld of engines that are built with given parameters. -/
structure Built (p : Parameters) (I : State → Prop) (may : Sink → UInt32 → Prop) : Prop where
  upholds : Upholds I may
  params : ∀ s, I s → s.params = p

namespace Built
variable (h : Built p I may)
include h

theorem read (r : Source) : Procedure.Concurs c I (fun d => d.read r) :=
  fun s hs => .read r ⟨trivial, h.upholds.read r s hs⟩

theorem write {r : Sink} {word : UInt32} (hr : may r word) :
    Procedure.Concurs c I (fun d => d.write r word) := by
  refine fun s hs => .write r word ⟨trivial, h.upholds.write r _ s ?_ hs⟩
  rwa [UInt32.toUInt32_toUInt64]

/-- A register that is read for something in it. -/
theorem field (r : Source) (f : UInt32 → α) :
    Procedure.Concurs c I (fun d => do let word ← d.read r; pure (f word)) :=
  (h.read r).bind fun _ => .pure _

theorem size : Procedure.Concurs c I size := h.field .primeSize _

theorem numberBytes : Procedure.Concurs c I numberBytes := h.size.bind fun _ => .pure _

/-- The words of a number are counted by the width of a word. -/
theorem transferWords (len : Nat) : Operation.Concurs c I (fun d => d.transferWords len) := by
  have hwords : Operation.Concurs c I (fun d => do
      let bytes ← d.numberBytes
      if Bytes.wordsFor len c.width.wordBytes > Bytes.wordsFor bytes c.width.wordBytes then
        throw .numberTooLarge
      else pure (Bytes.wordsFor bytes c.width.wordBytes)) := by
    refine (Operation.Concurs.lift h.numberBytes).bind fun bytes => ?_
    split
    · exact .throw nofun
    · exact .pure _
  refine fun s hs => (hwords s hs).congr 0 fun d hd => ?_
  simp only [Driver.transferWords, Driver.wordBytes, hd.width]

/-- A production engine refuses what needs a debug bank. -/
theorem ensureDebug {s : State} (hs : I s) :
    Concur c (fun d => d.ensureDebug.run) s fun x t =>
      (x = .ok () → p.debug = true) ∧ Responsive x ∧ I t := by
  refine .ensureDebug ?_
  rw [h.params s hs]
  cases p.debug with
  | true => exact ⟨fun _ => rfl, .ok (), hs⟩
  | false => exact ⟨nofun, .error nofun, hs⟩

theorem afterDebug {F : Driver → Operation α} (hF : p.debug = true → Operation.Concurs c I F) :
    Operation.Concurs c I (fun d => do d.ensureDebug; F d) := fun _ hs =>
  (h.ensureDebug hs).operation (fun _ t ht => hF (ht.1 rfl) t ht.2.2)
    fun _ _ he => ⟨he.2.1.cast, he.2.2⟩

/-- A recording that needs a debug bank is refused as well. -/
theorem recordAfterDebug {F : Driver → Recording ρ α}
    (hF : p.debug = true → Recording.Concurs c I F) :
    Recording.Concurs c I (fun d => do d.ensureDebug; F d) := fun r _ hs =>
  (h.ensureDebug hs).recordingLift (fun _ t ht => hF (ht.1 rfl) r t ht.2.2)
    fun _ _ he => ⟨he.2.1.cast, he.2.2⟩

/-! #### The debug bank -/

theorem writeDebug {r : Sink} {word : UInt32} (hr : may r word) :
    Operation.Concurs c I (fun d => d.writeDebug r word) :=
  h.afterDebug fun _ => .lift (h.write hr)

/-- A register of the debug bank that is read for something in it. -/
theorem debugField (r : Source) (f : UInt32 → α) :
    Operation.Concurs c I (fun d => do let word ← d.readDebug r; pure (f word)) :=
  Operation.Concurs.bind (h.afterDebug fun _ => .lift (h.read r)) fun _ => .pure _

theorem readDebug (r : Source) : Operation.Concurs c I (fun d => d.readDebug r) :=
  h.afterDebug fun _ => .lift (h.read r)

theorem writeBreakpoint (id : UInt32) {word : UInt32} (hword : may .breakpoint word) :
    Operation.Concurs c I (fun d => d.writeBreakpoint id word) := by
  refine h.afterDebug fun _ => ?_
  split
  · exact .throw nofun
  · exact .lift (h.write hword)

theorem patchMicrocode (address : UInt32) (opcodes : List UInt32)
    (haddress : ∀ word, may .opcodeAddress word) (hopcode : ∀ word, may .opcode word) :
    Operation.Concurs c I (fun d => d.patchMicrocode address opcodes) := by
  refine h.afterDebug fun _ => (h.debugField .memoryShape _).bind fun count => ?_
  split
  · exact .throw nofun
  · exact (Operation.Concurs.notify _).bind fun _ => .forM _ fun _ =>
      .lift ((h.write (haddress _)).bind fun _ => h.write (hopcode _))

theorem writeLimb (address limb : UInt32) (haddress : may .limbWriteAddress address)
    (hlimb : may .limb limb) : Operation.Concurs c I (fun d => d.writeLimb address limb) :=
  h.afterDebug fun _ => (Operation.Concurs.lift (h.write haddress)).bind fun _ =>
    .lift (h.write hlimb)

/-- A limb is there when it is asked for. -/
theorem fetchLimb (hdebug : p.debug = true) {address : UInt32}
    (haddress : may .limbReadAddress address) :
    Operation.Concurs c I (fun d => d.fetchLimb address) := by
  intro s hs
  let Fetched (t : State) : Prop := I t ∧ t.limbReady = true
  have hwrite : Concur c (fun d => d.write .limbReadAddress address) s fun _ => Fetched := by
    refine .write .limbReadAddress address ⟨h.upholds.write _ _ s ?_ hs, ?_⟩
    · rwa [UInt32.toUInt32_toUInt64]
    · exact State.limbReady_writeSink (by rw [h.params s hs, hdebug]) _
  have hready (t : State) (ht : Fetched t) : Concur c (fun d => d.limbIsReady) t
      fun ready u => Fetched u ∧ (ready = false → 0 < 0) := by
    have hparams : t.params.debug = true := by rw [h.params t ht.1, hdebug]
    have hread : Concur c (fun d => d.read .limbReady) t fun word u => word = 1 ∧ u = t := by
      refine .read .limbReady ?_
      rw [State.readSource_limbReady hparams ht.2]
      exact ⟨rfl, rfl⟩
    refine hread.bind fun word u ⟨hword, hu⟩ => .pure ⟨hu ▸ ht, fun hfalse => ?_⟩
    rw [hword] at hfalse
    cases hfalse
  refine hwrite.lift fun _ t ht => ?_
  refine (Concur.pollUntil (fun _ => 0) hready ht (Nat.zero_le _)).operation
    (fun _ u hu => ?_) fun _ _ he => nomatch he.1
  exact (Operation.Concurs.lift (h.read .limb)) u hu.2.1

theorem readLimb {address : UInt32} (haddress : may .limbReadAddress address) :
    Operation.Concurs c I (fun d => d.readLimb address) :=
  h.afterDebug fun hdebug => h.fetchLimb hdebug haddress

/-! #### The random number generator -/

theorem waitingCounts : Operation.Concurs c I waitingCounts := by
  have hread (channel : Channel) :
      Operation.Concurs c I (fun d => liftM (d.read (.waiting channel))) := .lift (h.read _)
  exact h.afterDebug fun _ => (hread .axi).bind fun _ => (hread .efp).bind fun _ =>
    (hread .crv).bind fun _ => (hread .shf).bind fun _ => .pure _

theorem entropyCounters : Operation.Concurs c I entropyCounters := by
  have hchannel (channel : Channel) :
      Operation.Concurs c I (fun d => liftM (d.channelCounters channel)) :=
    .lift ((h.read (.served channel)).bind fun _ => h.field (.starved channel) _)
  exact h.afterDebug fun _ => (Operation.Concurs.lift (h.read .starvation)).bind fun _ =>
    (hchannel .axi).bind fun _ => (hchannel .efp).bind fun _ => (hchannel .crv).bind fun _ =>
      (hchannel .shf).bind fun _ => .pure _

/-! #### Reading what a phase has produced -/

section Record
variable (hdebug : p.debug = true) (hlimb : ∀ word, may .limbReadAddress word) (layout : LimbLayout)
include hdebug hlimb

theorem readSlot (slot : Nat) : Operation.Concurs c I (fun d => d.readSlot layout slot) := by
  have hlimbs (addresses : List UInt32) (fetched : Array UInt32) :
      Operation.Concurs c I (fun d => d.fetchLimbs addresses fetched) := by
    induction addresses generalizing fetched with
    | nil => exact .pure fetched
    | cons address rest ih =>
      exact (h.fetchLimb hdebug (hlimb address)).bind fun limb => ih (fetched.push limb)
  exact (hlimbs _ _).bind fun _ => .pure _

theorem recordPhase (phase : TracePhase) (spot : Spot) :
    Recording.Concurs c I (fun d => d.recordPhase layout phase spot) := by
  have hslot (slot : Nat) : Operation.Concurs c I (fun d => d.readSlot layout slot) :=
    h.readSlot hdebug hlimb layout slot
  have hrandom (phase : TracePhase) (slot : Nat) (keep : LimbNumber → Trace → Trace) :
      Recording.Concurs c I (fun d => d.recordRandom layout phase slot keep spot) :=
    (Recording.Concurs.lift (hslot slot)).bind fun _ => .modify _
  have hstep (phase : TracePhase) : Operation.Concurs c I (fun d => d.readStep layout phase spot) :=
    (h.readDebug .ladderFlags).bind fun _ => (hslot _).bind fun _ => (hslot _).bind fun _ =>
      (hslot _).bind fun _ => (hslot _).bind fun _ => (hslot _).bind fun _ => .pure _
  unfold Driver.recordPhase
  cases phase with
  | alpha | phi0 | phi1 | lambda => exact hrandom _ _ _
  | setup | zaddu | zaddc | subtractP | exit =>
    exact (Recording.Concurs.lift (hstep _)).bind fun _ => .modify _

end Record

end Built

/-! ### What waits for an engine at rest -/

/-- What is upheld of engines at rest that a crew looks at often enough. -/
structure Calm (c : Crew) (p : Parameters) (I : State → Prop) (may : Sink → UInt32 → Prop) : Prop
    extends Built p I may where
  coherent : ∀ s, I s → s.Coherent
  resting : ∀ s, I s → s.multiplying = false
  patient : max p.latency 3 ≤ c.looks

/-- The writes that prepare a multiplication, or another operation, and fetch its result. -/
structure MayTransfer (may : Sink → UInt32 → Prop) : Prop where
  data : ∀ word, may .writeData word
  opens : ∀ command, Transfers command → may .control command.word
  token : may .token 1
  flags : ∀ point word, may (nullSink point) word

namespace Calm
variable (h : Calm c p I may)
include h

/-- Each look at an engine at rest brings it nearer to being idle. -/
theorem concur_waitIdle {s : State} (hs : I s) :
    Concur c (fun d => d.waitIdle.run) s fun x t => x = .ok () ∧ I t := by
  have hlook (t : State) (ht : I t) : Concur c isIdle t fun idle u =>
      I u ∧ (idle = false → max u.busy u.init < max t.busy t.init) := by
    have hstatus : Concur c status t fun word u =>
        Status.busy.test word = (decide (t.busy > 0) || decide (t.init > 0)) ∧
          u = t.readStatus.2 :=
      .status ⟨by rw [State.busy_readStatus, h.resting t ht, Bool.or_false], rfl⟩
    refine hstatus.bind fun word u ⟨hword, hu⟩ => .pure ⟨?_, fun hbusy => ?_⟩
    · exact hu ▸ h.upholds.read .status t ht
    · rw [hword, Bool.not_eq_false', Bool.or_eq_true, decide_eq_true_eq, decide_eq_true_eq] at hbusy
      subst hu
      show max (t.busy - 1) (t.init - 1) < _
      omega
  refine Concur.pollUntil (fun t => max t.busy t.init) hlook hs ?_
  have hbusy := (h.coherent s hs).busy_le
  have hinit : s.init ≤ 2 := (h.coherent s hs).init_le
  have hpatient := h.patient
  rw [h.params s hs] at hbusy
  omega

theorem waitIdle : Operation.Concurs c I waitIdle :=
  fun _ hs => (h.concur_waitIdle hs).mono fun _ _ ht => ⟨ht.1 ▸ .ok (), ht.2⟩

/-- Each look at an engine brings it nearer to being warmed up. -/
theorem waitEnoughRandom : Operation.Concurs c I waitEnoughRandom := by
  intro s hs
  have hlook (t : State) (ht : I t) : Concur c hasEnoughRandom t fun warm u =>
      I u ∧ (warm = false → u.warmup < t.warmup) := by
    have hstatus : Concur c status t fun word u =>
        Status.enoughRandom.test word = (t.warmup == 0) ∧ u = t.readStatus.2 :=
      .status ⟨State.enoughRandom_readStatus t, rfl⟩
    refine hstatus.bind fun word u ⟨hword, hu⟩ => .pure ⟨?_, fun hcold => ?_⟩
    · exact hu ▸ h.upholds.read .status t ht
    · rw [hword, beq_eq_false_iff_ne] at hcold
      subst hu
      show t.warmup - 1 < t.warmup
      omega
  refine (Concur.pollUntil (fun t => t.warmup) hlook hs ?_).mono fun x t ht => ⟨ht.1 ▸ .ok (), ht.2⟩
  have hwarmup : s.warmup ≤ 3 := (h.coherent s hs).warmup_le
  have hpatient := h.patient
  omega

theorem settle : Operation.Concurs c I settle := by
  have hreport (latched : UInt32) : Operation.Concurs c I (fun _ => report latched) := by
    refine (Operation.Concurs.forM _ fun error => .notify (.latched error)).bind fun _ => ?_
    split
    · exact .pure ()
    · exact .notify _
  refine h.waitIdle.bind fun _ => (Operation.Concurs.lift (h.read .status)).bind fun word => ?_
  dsimp only
  split
  · exact .pure ()
  · exact (hreport _).bind fun _ =>
      (Operation.Concurs.lift (h.write (h.upholds.acknowledge _))).bind fun _ => .throw nofun

theorem writeSettled {r : Sink} {word : UInt32} (hr : may r word) :
    Operation.Concurs c I (fun d => d.writeSettled r word) :=
  h.waitIdle.bind fun _ => (Operation.Concurs.lift (h.write hr)).bind fun _ => h.settle

theorem writeEntropy {r : Sink} {word : UInt32} (hr : may r word) :
    Operation.Concurs c I (fun d => d.writeEntropy r word) :=
  h.afterDebug fun _ => h.waitIdle.bind fun _ =>
    (Operation.Concurs.lift (h.write hr)).bind fun _ => h.waitIdle

theorem toggle {r : Sink} (enable : Bool) (hr : ∀ word, may r word) :
    Operation.Concurs c I (fun d => d.toggle r enable) :=
  h.afterDebug fun _ => h.writeSettled (hr _)

/-! #### Setting up -/

theorem reset (hreset : may .softReset 1) : Operation.Concurs c I reset :=
  (Operation.Concurs.notify _).bind fun _ =>
    (Operation.Concurs.lift (h.write hreset)).bind fun _ => h.waitIdle

theorem configureEntropy (hcontrol : ∀ word, may .trngControl word) :
    Operation.Concurs c I configureEntropy := by
  have hdebug : Procedure.Concurs c I isDebug := h.field .capabilities _
  refine (Operation.Concurs.lift hdebug).bind fun debug => ?_
  cases debug with
  | true => exact h.writeEntropy (hcontrol 0)
  | false => exact .pure ()

theorem setSize (size : Nat) (hsize : ∀ word, may .primeSize word) :
    Operation.Concurs c I (fun d => d.setSize size) := by
  refine (Operation.Concurs.lift (h.read .capabilities)).bind fun word => ?_
  split
  · exact .throw nofun
  · split
    · exact h.writeSettled (hsize _)
    · exact .pure ()

theorem limitScalar (bits : UInt32) (hbits : may .smallScalar bits) :
    Operation.Concurs c I (fun d => d.limitScalar bits) := by
  unfold Driver.limitScalar
  split
  · exact .throw nofun
  · exact h.writeSettled hbits

/-! #### Countermeasures -/

theorem enableBlinding (bits : UInt32) (hblinding : ∀ word, may .blinding word) :
    Operation.Concurs c I (fun d => d.enableBlinding bits) := by
  unfold Driver.enableBlinding
  split
  · exact h.writeSettled (hblinding _)
  · refine (Operation.Concurs.lift h.size).bind fun size => ?_
    split
    · exact .throw nofun
    · exact h.writeSettled (hblinding _)

theorem enableShuffling (hshuffle : may .shuffle 1) : Operation.Concurs c I enableShuffling := by
  refine (Operation.Concurs.lift (h.read .capabilities)).bind fun word => ?_
  split
  · exact h.writeSettled hshuffle
  · exact .throw nofun

theorem enableZremask (period : UInt32) (hzremask : ∀ word, may .zremask word) :
    Operation.Concurs c I (fun d => d.enableZremask period) := by
  unfold Driver.enableZremask
  split
  · exact .throw nofun
  · exact h.writeSettled (hzremask _)

/-! #### Transfers -/

section Transfers
variable (hmay : MayTransfer may)
include hmay

theorem writeNumber (bytes : Bytes) (destination : Destination) :
    Operation.Concurs c I (fun d => d.writeNumber bytes destination) := by
  have hopen : Operation.Concurs c I (fun d => d.openWrite destination) := by
    cases destination with
    | number n => exact h.writeSettled (hmay.opens _ nofun)
    | scalar => exact h.waitEnoughRandom.bind fun _ => h.writeSettled (hmay.opens _ nofun)
  have hword (word : UInt64) : Operation.Concurs c I (fun d => d.sendWord word) := by
    refine h.waitIdle.bind fun _ => (Operation.Concurs.lift fun s hs => ?_).bind fun _ => h.settle
    exact .writeWord .writeData word ⟨trivial, h.upholds.write _ _ s (hmay.data _) hs⟩
  have hsend : Operation.Concurs c I (fun d => do
      let words ← d.transferWords bytes.length
      d.openWrite destination
      (Bytes.toWords c.width.wordBytes words bytes).forM d.sendWord) :=
    (h.transferWords bytes.length).bind fun words => hopen.bind fun _ => .forM _ hword
  refine fun s hs => (hsend s hs).congr 0 fun d hd => ?_
  simp only [Driver.writeNumber, Driver.wordBytes, hd.width]

/-- What is received goes into the buffer whether the transfer fails or not. -/
theorem readInto {command : Command} (hcommand : Fetches command) :
    Recording.Concurs c I (fun d => d.readInto command) := by
  have hword : Operation.Concurs c I receiveWord := by
    refine h.waitIdle.bind fun _ => (Operation.Concurs.lift fun s hs => ?_).bind fun _ =>
      h.settle.bind fun _ => .pure _
    exact .readWord .readData ⟨trivial, h.upholds.read _ s hs⟩
  have hwords (count : Nat) : Recording.Concurs c I (fun d => d.receiveWords count) := by
    induction count with
    | zero => exact .pure ()
    | succ count ih =>
      exact (Recording.Concurs.lift hword).bind fun _ =>
        (Recording.Concurs.modify _).bind fun _ => ih
  intro buffer
  have hread : Recording.Concurs c I (fun d => d.readWords command buffer.length) :=
    (Recording.Concurs.lift (h.transferWords _)).bind fun words =>
      (Recording.Concurs.lift (h.writeSettled (hmay.opens _ hcommand.transfers))).bind fun _ =>
        hwords words
  have hfill : Carries c I (fun x => Responsive x.1) (fun d => do
      let x ← (d.readWords command buffer.length).on []
      pure (x.1, Bytes.fill c.width.wordBytes x.2.reverse buffer)) :=
    (hread []).map fun _ hx => hx
  refine fun s hs => (hfill s hs).congr 0 fun d hd => ?_
  simp only [Driver.readInto, Recording.on, ExceptT.run_mk, Driver.wordBytes, hd.width]
  rfl

theorem readNumberInto (register : Destination) :
    Recording.Concurs c I (fun d => d.readNumberInto register) := by
  cases register with
  | number n => exact h.readInto hmay (.number n)
  | scalar => exact h.readInto hmay (.number .xR0)

theorem readBytes {command : Command} (hcommand : Fetches command) (len : Nat) :
    Operation.Concurs c I (fun d => d.readBytes command len) :=
  (h.readInto hmay hcommand (List.replicate len 0)).map fun x hx => hx.map fun _ => x.2

theorem fetchToken : Operation.Concurs c I fetchToken :=
  (h.writeSettled hmay.token).bind fun _ => (Operation.Concurs.lift h.numberBytes).bind fun _ =>
    h.readBytes hmay .token _

/-! #### Points -/

omit hmay in
theorem isInfinite (point : PointRegister) :
    Operation.Concurs c I (fun d => d.isInfinite point) :=
  h.waitIdle.bind fun _ => (Operation.Concurs.lift (h.read .status)).bind fun _ => .pure _

omit hmay in
theorem saveFlags : Operation.Concurs c I saveFlags :=
  h.waitIdle.bind fun _ => (Operation.Concurs.lift (h.read .status)).bind fun _ => .pure _

theorem restoreFlags (flags : PointFlags) :
    Operation.Concurs c I (fun d => d.restoreFlags flags) :=
  (h.writeSettled (hmay.flags .r0 _)).bind fun _ => h.writeSettled (hmay.flags .r1 _)

theorem readPointInto (point : PointRegister) :
    Recording.Concurs c I (fun d => d.readPointInto point) := by
  have hfront (register : Number) (len : Nat) (buffer : Bytes) :
      Carries c I (fun x => Responsive x.1) (fun d => (d.readFront register len).on buffer) :=
    (h.readInto hmay (.number register) (buffer.take len)).map fun _ hx => hx
  refine (Recording.Concurs.procedure h.numberBytes).bind fun len =>
    Recording.Concurs.get.bind fun buffers => ?_
  split
  · exact .throw nofun
  · refine Recording.Concurs.carry (hfront point.x len buffers.x) fun x hx =>
      (Recording.Concurs.set _).bind fun _ => (Recording.Concurs.ofExcept hx).bind fun _ => ?_
    exact Recording.Concurs.carry (hfront point.y len buffers.y) fun y hy =>
      (Recording.Concurs.set _).bind fun _ => (Recording.Concurs.ofExcept hy).bind fun _ => .pure _

theorem readPoint (point : PointRegister) :
    Operation.Concurs c I (fun d => d.readPoint point) := by
  have hcoordinates : Operation.Concurs c I (fun d => d.readCoordinates point) :=
    (Operation.Concurs.lift h.numberBytes).bind fun len =>
      .carry (h.readPointInto hmay point ⟨.replicate len 0, .replicate len 0⟩) fun x hx =>
        (Operation.Concurs.ofExcept hx).bind fun _ => .pure _
  exact hcoordinates.bind fun _ => (h.isInfinite point).bind fun _ => .pure _

theorem writePoint (point : PointRegister) (operand : Coordinates) :
    Operation.Concurs c I (fun d => d.writePoint point operand) :=
  (h.writeNumber hmay _ _).bind fun _ => h.writeNumber hmay _ _

theorem operateOne {operation : PointOperation}
    (hoperation : may .control (Command.operate operation).word) (a : Coordinates) :
    Operation.Concurs c I (fun d => d.operateOne operation a) :=
  (Operation.Concurs.notify _).bind fun _ => h.saveFlags.bind fun _ =>
    (h.writePoint hmay .r0 a).bind fun _ => (h.restoreFlags hmay _).bind fun _ =>
      h.writeSettled hoperation

theorem operateTwo {operation : PointOperation}
    (hoperation : may .control (Command.operate operation).word) (a b : Coordinates) :
    Operation.Concurs c I (fun d => d.operateTwo operation a b) :=
  (Operation.Concurs.notify _).bind fun _ => h.saveFlags.bind fun _ =>
    (h.writePoint hmay .r0 a).bind fun _ => (h.writePoint hmay .r1 b).bind fun _ =>
      (h.restoreFlags hmay _).bind fun _ => h.writeSettled hoperation

/-! #### Multiplication -/

theorem loadMultiplication (point : Coordinates) (k : Bytes) :
    Operation.Concurs c I (fun d => d.loadMultiplication point k) :=
  h.saveFlags.bind fun _ => (h.fetchToken hmay).bind fun _ =>
    (h.writeNumber hmay k .scalar).bind fun _ => (h.writePoint hmay .r1 point).bind fun _ =>
      (h.restoreFlags hmay _).bind fun _ => .pure _

theorem collectResult (token : Bytes) :
    Operation.Concurs c I (fun d => d.collectResult token) := by
  have hunmask (coordinate : Bytes) : Responsive (unmask token coordinate) := by
    unfold unmask
    split
    · exact .ok _
    · exact .error nofun
  exact (h.readPoint hmay .r1).bind fun _ => (Operation.Concurs.ofExcept (hunmask _)).bind fun _ =>
    (Operation.Concurs.ofExcept (hunmask _)).bind fun _ => .pure _

theorem multiply (hmultiply : may .control (Command.operate .multiply).word) (point : Coordinates)
    (k : Bytes) : Operation.Concurs c I (fun d => d.multiply point k) :=
  (Operation.Concurs.notify _).bind fun _ =>
    (h.loadMultiplication hmay point k).bind fun token =>
      (h.writeSettled hmultiply).bind fun _ => h.collectResult hmay token

end Transfers

end Calm

end Driver

end CurveEngine
