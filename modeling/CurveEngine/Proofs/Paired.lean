import CurveEngine.Driver.Call
import CurveEngine.Proofs.Lockstep
import CurveEngine.Proofs.Sending

/-! Two drivers whose operations go abreast.

Two drivers are `Paired` on related states if their register accesses go abreast there;
`may` says which writes do. Every operation that moves no big numbers is made of such
accesses, so it goes abreast as a whole, one lemma an operation. `PairedTransfers` adds the
transfers of big numbers, of lengths that `len` allows, and with them the operations on
points. The lemmas serve a driver beside itself as well as drivers of either width. -/
namespace CurveEngine.Driver
open Register Procedure Device

/-- Two capability words that tell apart the width of a word at most. -/
structure SameCapabilities (word word' : UInt32) : Prop where
  debug : Capabilities.debug.test word = Capabilities.debug.test word'
  shuffle : Capabilities.shuffle.test word = Capabilities.shuffle.test word'
  dynamicSize : Capabilities.dynamicSize.test word = Capabilities.dynamicSize.test word'
  maxSize : Capabilities.maxSize.get word = Capabilities.maxSize.get word'

/-- The register accesses of two drivers go abreast. -/
structure Paired (R : State → State → Prop) (may : Sink → UInt32 → Prop) (d d' : Driver) :
    Prop where
  limit : d.config.pollLimit = d'.config.pollLimit
  fuel : d.fuel = d'.fuel
  read : ∀ r : Source, r ≠ .readData → r ≠ .capabilities → Lockstep R (d.read r) (d'.read r)
  capabilities : ∀ s t, R s t → ∃ word word', SameCapabilities word word' ∧
    Ends bus d.capabilities s word s ∧ Ends bus d'.capabilities t word' t
  write : ∀ r word, may r word → Lockstep R (d.write r word) (d'.write r word)
  /-- Errors may be acknowledged. -/
  acknowledge : ∀ word, may .errorAck word

/-- The writes of a traced run are allowed. -/
structure MayTrace (may : Sink → UInt32 → Prop) : Prop where
  steps : ∀ word, may .steps word
  limb : ∀ word, may .limbReadAddress word
  arm : ∀ address, may .breakpoint (breakpointWord traceBreakpoint address 0 .idle)
  disarm : may .breakpoint (Breakpoint.id.set traceBreakpoint 0)
  start : may .control (Command.operate .multiply).word

/-- A command that moves a number or the token. -/
def Transfers (command : Command) : Prop := ∀ operation, command ≠ .operate operation

namespace Paired
variable {R : State → State → Prop} {may : Sink → UInt32 → Prop} {d d' : Driver}
  (h : Paired R may d d')
include h

/-! ### Waiting and settling -/

theorem pollUntil {check check' : Procedure Bool} (hcheck : Lockstep R check check') :
    Operation.Lockstep R (d.pollUntil check) (d'.pollUntil check') := by
  unfold Driver.pollUntil
  rw [h.limit, h.fuel]
  cases d'.config.pollLimit with
  | some limit => exact .poll (.throw _) hcheck limit
  | none => exact .poll (Procedure.Lockstep.spent.map Except.ok) hcheck d'.fuel

theorem status : Lockstep R d.status d'.status := h.read .status (by decide) (by decide)

/-- A check that looks at a register. -/
theorem check {r : Source} (hdata : r ≠ .readData) (hcapabilities : r ≠ .capabilities)
    {α : Type} (f : UInt32 → α) :
    Lockstep R (do let word ← d.read r; pure (f word)) (do let word ← d'.read r; pure (f word)) :=
  (h.read r hdata hcapabilities).bind fun word => .pure (f word)

theorem waitIdle : Operation.Lockstep R d.waitIdle d'.waitIdle :=
  h.pollUntil (h.check (by decide) (by decide) _)

theorem waitEnoughRandom : Operation.Lockstep R d.waitEnoughRandom d'.waitEnoughRandom :=
  h.pollUntil (h.check (by decide) (by decide) _)

omit h in
theorem report (latched : UInt32) : Operation.Lockstep R (report latched) (report latched) := by
  refine (Operation.Lockstep.forM _ fun error _ => .notify (.latched error)).bind fun _ => ?_
  split
  · exact .pure ()
  · exact .notify _

theorem checkErrors : Operation.Lockstep R d.checkErrors d'.checkErrors := by
  refine (Operation.Lockstep.lift h.status).bind fun word => ?_
  dsimp only
  split
  · exact .pure ()
  · exact (report _).bind fun _ =>
      (Operation.Lockstep.lift (h.write .errorAck _ (h.acknowledge _))).bind fun _ => .throw _

theorem settle : Operation.Lockstep R d.settle d'.settle := h.waitIdle.bind fun _ => h.checkErrors

theorem writeSettled {r : Sink} {word : UInt32} (hr : may r word) :
    Operation.Lockstep R (d.writeSettled r word) (d'.writeSettled r word) :=
  h.waitIdle.bind fun _ => (Operation.Lockstep.lift (h.write r word hr)).bind fun _ => h.settle

theorem openWrite (hopen : ∀ command, Transfers command → may .control command.word)
    (destination : Destination) :
    Operation.Lockstep R (d.openWrite destination) (d'.openWrite destination) := by
  cases destination with
  | number n => exact h.writeSettled (hopen _ nofun)
  | scalar => exact h.waitEnoughRandom.bind fun _ => h.writeSettled (hopen _ nofun)

/-! ### What the engine is -/

/-- What follows the capabilities may depend on anything but the width of a word. -/
theorem capabilities_bind {α : Type} {f f' : UInt32 → Operation α}
    (hf : ∀ word word', SameCapabilities word word' → Operation.Lockstep R (f word) (f' word')) :
    Operation.Lockstep R ((liftM d.capabilities : Operation UInt32) >>= f)
      ((liftM d'.capabilities : Operation UInt32) >>= f') := by
  intro s t hr
  obtain ⟨word, word', hsame, hs, ht⟩ := h.capabilities s t hr
  exact Operation.abreast_of_returns ((Operation.returns_lift _ _ _ _).mpr hs)
    ((Operation.returns_lift _ _ _ _).mpr ht) (hf word word' hsame s t hr)

theorem isDebug : Lockstep R d.isDebug d'.isDebug := by
  intro s t hr
  obtain ⟨word, word', hsame, hs, ht⟩ := h.capabilities s t hr
  refine Abreast.of_ends_bind hs ht ?_
  rw [hsame.debug]
  exact Lockstep.pure _ s t hr

theorem ensureDebug : Operation.Lockstep R d.ensureDebug d'.ensureDebug := by
  refine (Operation.Lockstep.lift h.isDebug).bind fun debug => ?_
  cases debug with
  | true => exact .pure ()
  | false => exact .throw _

theorem version : Lockstep R d.version d'.version := h.check (by decide) (by decide) _

theorem size : Lockstep R d.size d'.size := h.check (by decide) (by decide) _

theorem numberBytes : Lockstep R d.numberBytes d'.numberBytes := h.size.bind fun _ => .pure _

theorem answer : Lockstep R d.answer d'.answer := h.check (by decide) (by decide) _

/-! ### Setting up -/

theorem reset (hreset : may .softReset 1) : Operation.Lockstep R d.reset d'.reset :=
  (Operation.Lockstep.notify _).bind fun _ =>
    (Operation.Lockstep.lift (h.write .softReset 1 hreset)).bind fun _ => h.waitIdle

theorem setSize (size : Nat) (hsize : may .primeSize (UInt32.ofNat size)) :
    Operation.Lockstep R (d.setSize size) (d'.setSize size) := by
  refine h.capabilities_bind fun word word' hsame => ?_
  rw [hsame.maxSize, hsame.dynamicSize]
  split
  · exact .throw _
  · split
    · exact h.writeSettled hsize
    · exact .pure ()

theorem limitScalar (bits : UInt32) (hbits : may .smallScalar bits) :
    Operation.Lockstep R (d.limitScalar bits) (d'.limitScalar bits) := by
  unfold Driver.limitScalar
  split
  · exact .throw _
  · exact h.writeSettled hbits

/-! ### Countermeasures -/

theorem enableBlinding (bits : UInt32) (hblinding : ∀ word, may .blinding word) :
    Operation.Lockstep R (d.enableBlinding bits) (d'.enableBlinding bits) := by
  unfold Driver.enableBlinding
  split
  · exact h.writeSettled (hblinding _)
  · refine (Operation.Lockstep.lift h.size).bind fun size => ?_
    split
    · exact .throw _
    · exact h.writeSettled (hblinding _)

theorem enableShuffling (hshuffle : may .shuffle 1) :
    Operation.Lockstep R d.enableShuffling d'.enableShuffling := by
  refine h.capabilities_bind fun word word' hsame => ?_
  rw [hsame.shuffle]
  split
  · exact h.writeSettled hshuffle
  · exact .throw _

theorem enableZremask (period : UInt32) (hzremask : ∀ word, may .zremask word) :
    Operation.Lockstep R (d.enableZremask period) (d'.enableZremask period) := by
  unfold Driver.enableZremask
  split
  · exact .throw _
  · exact h.writeSettled (hzremask _)

theorem toggle {r : Sink} (enable : Bool) (hr : ∀ word, may r word) :
    Operation.Lockstep R (d.toggle r enable) (d'.toggle r enable) :=
  h.ensureDebug.bind fun _ => h.writeSettled (hr _)

/-! ### The debug bank -/

theorem writeDebug {r : Sink} {word : UInt32} (hr : may r word) :
    Operation.Lockstep R (d.writeDebug r word) (d'.writeDebug r word) :=
  h.ensureDebug.bind fun _ => .lift (h.write r word hr)

theorem readDebug {r : Source} (hdata : r ≠ .readData) (hcapabilities : r ≠ .capabilities) :
    Operation.Lockstep R (d.readDebug r) (d'.readDebug r) :=
  h.ensureDebug.bind fun _ => .lift (h.read r hdata hcapabilities)

/-- A field of a register of the debug bank. -/
theorem readField {r : Source} (hdata : r ≠ .readData) (hcapabilities : r ≠ .capabilities)
    {α : Type} (f : UInt32 → α) :
    Operation.Lockstep R (do let word ← d.readDebug r; pure (f word))
      (do let word ← d'.readDebug r; pure (f word)) :=
  (h.readDebug hdata hcapabilities).bind fun _ => .pure _

theorem writeBreakpoint (id : UInt32) {word : UInt32} (hword : may .breakpoint word) :
    Operation.Lockstep R (d.writeBreakpoint id word) (d'.writeBreakpoint id word) := by
  refine h.ensureDebug.bind fun _ => ?_
  split
  · exact .throw _
  · exact .lift (h.write .breakpoint word hword)

theorem debugSnapshot : Operation.Lockstep R d.debugSnapshot d'.debugSnapshot :=
  h.readField (by decide) (by decide) _

theorem isHalted : Lockstep R d.isHalted d'.isHalted := h.check (by decide) (by decide) _

theorem awaitHalt : Operation.Lockstep R d.awaitHalt d'.awaitHalt :=
  h.ensureDebug.bind fun _ => (h.pollUntil h.isHalted).bind fun _ => h.debugSnapshot

theorem patchMicrocode (address : UInt32) (opcodes : List UInt32)
    (haddress : ∀ word, may .opcodeAddress word) (hopcode : ∀ word, may .opcode word) :
    Operation.Lockstep R (d.patchMicrocode address opcodes) (d'.patchMicrocode address opcodes) := by
  refine h.ensureDebug.bind fun _ => (h.readField (by decide) (by decide) _).bind fun count => ?_
  split
  · exact .throw _
  · refine (Operation.Lockstep.notify _).bind fun _ => .forM _ fun x _ => .lift ?_
    exact (h.write .opcodeAddress _ (haddress _)).bind fun _ => h.write .opcode _ (hopcode _)

theorem writeLimb (address limb : UInt32) (haddress : may .limbWriteAddress address)
    (hlimb : may .limb limb) :
    Operation.Lockstep R (d.writeLimb address limb) (d'.writeLimb address limb) :=
  h.ensureDebug.bind fun _ =>
    (Operation.Lockstep.lift (h.write .limbWriteAddress address haddress)).bind fun _ =>
      .lift (h.write .limb limb hlimb)

theorem fetchLimb (address : UInt32) (haddress : may .limbReadAddress address) :
    Operation.Lockstep R (d.fetchLimb address) (d'.fetchLimb address) :=
  (Operation.Lockstep.lift (h.write .limbReadAddress address haddress)).bind fun _ =>
    (h.pollUntil (h.check (by decide) (by decide) _)).bind fun _ =>
      .lift (h.read .limb (by decide) (by decide))

theorem readLimb (address : UInt32) (haddress : may .limbReadAddress address) :
    Operation.Lockstep R (d.readLimb address) (d'.readLimb address) :=
  h.ensureDebug.bind fun _ => h.fetchLimb address haddress

/-! ### The random number generator -/

theorem writeEntropy {r : Sink} {word : UInt32} (hr : may r word) :
    Operation.Lockstep R (d.writeEntropy r word) (d'.writeEntropy r word) :=
  h.ensureDebug.bind fun _ => h.waitIdle.bind fun _ =>
    (Operation.Lockstep.lift (h.write r word hr)).bind fun _ => h.waitIdle

theorem configureEntropy (hcontrol : ∀ word, may .trngControl word) :
    Operation.Lockstep R d.configureEntropy d'.configureEntropy := by
  refine (Operation.Lockstep.lift h.isDebug).bind fun debug => ?_
  cases debug with
  | true => exact h.writeEntropy (hcontrol 0)
  | false => exact .pure ()

theorem readRawBit (address : UInt32) (hcontrol : ∀ word, may .trngControl word) :
    Operation.Lockstep R (d.readRawBit address) (d'.readRawBit address) :=
  (h.writeEntropy (hcontrol _)).bind fun _ =>
    (Operation.Lockstep.lift (h.read .rawBit (by decide) (by decide))).bind fun _ => .pure _

theorem waitingCounts : Operation.Lockstep R d.waitingCounts d'.waitingCounts := by
  have hread (channel : Channel) : Operation.Lockstep R
      (liftM (d.read (.waiting channel))) (liftM (d'.read (.waiting channel))) :=
    .lift (h.read _ (by simp) (by simp))
  exact h.ensureDebug.bind fun _ => (hread .axi).bind fun _ => (hread .efp).bind fun _ =>
    (hread .crv).bind fun _ => (hread .shf).bind fun _ => .pure _

theorem channelCounters (channel : Channel) :
    Lockstep R (d.channelCounters channel) (d'.channelCounters channel) :=
  (h.read (.served channel) (by simp) (by simp)).bind fun _ =>
    h.check (r := .starved channel) (by simp) (by simp) _

theorem entropyCounters : Operation.Lockstep R d.entropyCounters d'.entropyCounters := by
  have hread (channel : Channel) : Operation.Lockstep R
      (liftM (d.channelCounters channel)) (liftM (d'.channelCounters channel)) :=
    .lift (h.channelCounters channel)
  exact h.ensureDebug.bind fun _ =>
    (Operation.Lockstep.lift (h.read .starvation (by decide) (by decide))).bind fun _ =>
      (hread .axi).bind fun _ => (hread .efp).bind fun _ => (hread .crv).bind fun _ =>
        (hread .shf).bind fun _ => .pure _

/-! ### Stepping through a multiplication -/

theorem waitHaltedOrOver : Operation.Lockstep R d.waitHaltedOrOver d'.waitHaltedOrOver := by
  have hcheck : Lockstep R d.isHaltedOrOver d'.isHaltedOrOver := by
    refine h.isHalted.bind fun halted => ?_
    cases halted with
    | true => exact .pure true
    | false => exact h.status.bind fun _ => .pure _
  exact (h.pollUntil hcheck).bind fun _ => h.debugSnapshot.bind fun _ => .pure _

theorem fetchLimbs (hlimb : ∀ word, may .limbReadAddress word) (addresses : List UInt32)
    (fetched : Array UInt32) :
    Operation.Lockstep R (d.fetchLimbs addresses fetched) (d'.fetchLimbs addresses fetched) := by
  induction addresses generalizing fetched with
  | nil => exact .pure fetched
  | cons address rest ih =>
    exact (h.fetchLimb address (hlimb address)).bind fun limb => ih (fetched.push limb)

theorem readSlot (hlimb : ∀ word, may .limbReadAddress word) (layout : LimbLayout) (slot : Nat) :
    Operation.Lockstep R (d.readSlot layout slot) (d'.readSlot layout slot) :=
  (h.fetchLimbs hlimb _ _).bind fun _ => .pure _

theorem recordRandom (hlimb : ∀ word, may .limbReadAddress word) (layout : LimbLayout)
    (phase : TracePhase) (slot : Nat) (keep : LimbNumber → Trace → Trace) (spot : Spot) :
    Recording.Lockstep R (d.recordRandom layout phase slot keep spot)
      (d'.recordRandom layout phase slot keep spot) :=
  (Recording.Lockstep.lift (h.readSlot hlimb layout slot)).bind fun _ => .modify _

theorem recordStep (hlimb : ∀ word, may .limbReadAddress word) (layout : LimbLayout)
    (phase : TracePhase) (spot : Spot) :
    Recording.Lockstep R (d.recordStep layout phase spot) (d'.recordStep layout phase spot) := by
  have hslot (slot : Nat) := h.readSlot hlimb layout slot
  have hstep : Operation.Lockstep R (d.readStep layout phase spot) (d'.readStep layout phase spot) :=
    (h.readDebug (by decide) (by decide)).bind fun _ =>
      (hslot _).bind fun _ => (hslot _).bind fun _ => (hslot _).bind fun _ =>
        (hslot _).bind fun _ => (hslot _).bind fun _ => .pure _
  exact (Recording.Lockstep.lift hstep).bind fun _ => .modify _

theorem recordPhase (hlimb : ∀ word, may .limbReadAddress word) (layout : LimbLayout)
    (phase : TracePhase) (spot : Spot) :
    Recording.Lockstep R (d.recordPhase layout phase spot) (d'.recordPhase layout phase spot) := by
  unfold Driver.recordPhase
  split
  · exact h.recordRandom hlimb layout _ _ _ spot
  · exact h.recordRandom hlimb layout _ _ _ spot
  · exact h.recordRandom hlimb layout _ _ _ spot
  · exact h.recordRandom hlimb layout _ _ _ spot
  · exact h.recordStep hlimb layout _ spot

theorem stepOpcodes (hsteps : ∀ word, may .steps word) (hlimb : ∀ word, may .limbReadAddress word)
    (layout : LimbLayout) (fuel : Nat) :
    Recording.Lockstep R (d.stepOpcodes layout fuel) (d'.stepOpcodes layout fuel) := by
  induction fuel with
  | zero => exact .spent
  | succ fuel ih =>
    refine Recording.Lockstep.get.bind fun t => Recording.Lockstep.get.bind fun _ => ?_
    dsimp only
    split
    · exact (Recording.Lockstep.modify _).bind fun _ => .throw _
    · refine (Recording.Lockstep.lift (h.writeDebug (hsteps _))).bind fun _ =>
        (Recording.Lockstep.lift h.waitHaltedOrOver).bind fun halted => ?_
      cases halted with
      | none => exact .throw _
      | some here =>
        have hrest : Recording.Lockstep R
            (if (⟨here.pc, here.state⟩ : Spot) = t.options.points.last then pure ()
              else d.stepOpcodes layout fuel)
            (if (⟨here.pc, here.state⟩ : Spot) = t.options.points.last then pure ()
              else d'.stepOpcodes layout fuel) := by
          split
          · exact .pure ()
          · exact ih
        refine (Recording.Lockstep.modify _).bind fun _ => ?_
        cases t.options.points.phaseAt? ⟨here.pc, here.state⟩ with
        | none => exact (Recording.Lockstep.pure ()).bind fun _ => hrest
        | some phase => exact (h.recordPhase hlimb layout phase _).bind fun _ => hrest

theorem followRun (hsteps : ∀ word, may .steps word) (hlimb : ∀ word, may .limbReadAddress word)
    (layout : LimbLayout) :
    Recording.Lockstep R (d.followRun layout) (d'.followRun layout) := by
  refine (Recording.Lockstep.lift h.waitHaltedOrOver).bind fun halted => ?_
  cases halted with
  | none => exact (Recording.Lockstep.lift h.settle).bind fun _ => .throw _
  | some here =>
    refine Recording.Lockstep.get.bind fun t => ?_
    dsimp only
    split
    · rw [h.fuel]
      exact h.stepOpcodes hsteps hlimb layout d'.fuel
    · exact (Recording.Lockstep.procedure (.notify _)).bind fun _ => .throw _

theorem release (hmay : MayTrace may) : Operation.Lockstep R d.release d'.release :=
  (h.writeBreakpoint _ hmay.disarm).bind fun _ =>
    (h.writeDebug (hmay.steps _)).bind fun _ => h.settle

theorem traceRun (hmay : MayTrace may) :
    Recording.Lockstep R d.traceRun d'.traceRun := by
  refine (Recording.Lockstep.lift h.ensureDebug).bind fun _ =>
    (Recording.Lockstep.procedure h.size).bind fun size =>
      (Recording.Lockstep.lift (h.readDebug (by decide) (by decide))).bind fun width => ?_
  dsimp only
  split
  · exact .throw _
  · refine (Recording.Lockstep.modify _).bind fun _ => Recording.Lockstep.get.bind fun t =>
      (Recording.Lockstep.lift (h.writeBreakpoint _ (hmay.arm _))).bind fun _ =>
        (Recording.Lockstep.lift h.waitIdle).bind fun _ =>
          (Recording.Lockstep.procedure (h.write .control _ hmay.start)).bind fun _ =>
            (h.followRun hmay.steps hmay.limb _).attempt.bind fun stepped =>
              (Recording.Lockstep.lift (h.release hmay)).attempt.bind fun released => ?_
    exact Recording.Lockstep.get.bind fun _ =>
      (Recording.Lockstep.procedure (.notify _)).bind fun _ =>
        (Recording.Lockstep.ofExcept stepped).bind fun _ => .ofExcept released

end Paired

/-! ### Transfers -/

/-- The commands that open a transfer from the engine. -/
inductive Fetches : Command → Prop
  | number (n : Number) : Fetches (.readNumber n.address)
  | token : Fetches (.readToken Number.p.address)

theorem Fetches.transfers {command : Command} (h : Fetches command) : Transfers command := by
  cases h with
  | number n => exact nofun
  | token => exact nofun

/-- The transfers of two drivers go abreast as well, for numbers and buffers of the lengths
that are allowed. -/
structure PairedTransfers (R : State → State → Prop) (may : Sink → UInt32 → Prop)
    (len : Nat → Prop) (d d' : Driver) : Prop extends Paired R may d d' where
  bytes : ∀ s t, R s t → len s.numberBytes
  send : ∀ (bytes : Bytes) (destination : Destination), len bytes.length →
    Operation.Lockstep R (d.writeNumber bytes destination) (d'.writeNumber bytes destination)
  receive : ∀ (command : Command), Fetches command → ∀ buffer : Bytes, len buffer.length →
    Lockstep R ((d.readInto command).on buffer) ((d'.readInto command).on buffer)

namespace PairedTransfers
variable {R : State → State → Prop} {may : Sink → UInt32 → Prop} {len : Nat → Prop}
  {d d' : Driver} (h : PairedTransfers R may len d d')
include h

/-- What follows the number of bytes of the prime size may count on its being allowed. -/
theorem numberBytes_bind {α : Type} {f f' : Nat → Operation α}
    (hf : ∀ n, len n → Operation.Lockstep R (f n) (f' n)) :
    Operation.Lockstep R ((liftM d.numberBytes : Operation Nat) >>= f)
      ((liftM d'.numberBytes : Operation Nat) >>= f') := by
  intro s t hr
  refine Operation.abreast_bind (Operation.Lockstep.lift h.numberBytes s t hr)
    fun n u v hn _ hr' => ?_
  obtain ⟨rfl, -⟩ := (ends_numberBytes _ _).mp ((Operation.returns_lift _ _ _ _).mp hn)
  exact hf _ (h.bytes s t hr) u v hr'

theorem readBytes {command : Command} (hcommand : Fetches command) {n : Nat} (hn : len n) :
    Operation.Lockstep R (d.readBytes command n) (d'.readBytes command n) :=
  (h.receive command hcommand _ (by rwa [List.length_replicate])).bind fun _ => .pure _

theorem fetchToken (htoken : may .token 1) : Operation.Lockstep R d.fetchToken d'.fetchToken :=
  (h.writeSettled htoken).bind fun _ => h.numberBytes_bind fun _ hn => h.readBytes .token hn

/-! ### Points -/

theorem isInfinite (point : PointRegister) :
    Operation.Lockstep R (d.isInfinite point) (d'.isInfinite point) :=
  h.waitIdle.bind fun _ => (Operation.Lockstep.lift h.status).bind fun _ => .pure _

theorem saveFlags : Operation.Lockstep R d.saveFlags d'.saveFlags :=
  h.waitIdle.bind fun _ => (Operation.Lockstep.lift h.status).bind fun _ => .pure _

theorem restoreFlags (hflags : ∀ point word, may (nullSink point) word) (flags : PointFlags) :
    Operation.Lockstep R (d.restoreFlags flags) (d'.restoreFlags flags) :=
  (h.writeSettled (hflags .r0 _)).bind fun _ => h.writeSettled (hflags .r1 _)

/-- A buffer that is long enough is read into in lockstep. -/
theorem readFront (register : Number) {n : Nat} (hn : len n) {buffer : Bytes}
    (hbuffer : n ≤ buffer.length) :
    Lockstep R ((d.readFront register n).on buffer) ((d'.readFront register n).on buffer) := by
  refine (h.receive _ (.number register) (buffer.take n) ?_).bind fun _ => .pure _
  rwa [List.length_take_of_le hbuffer]

theorem readPointInto (point : PointRegister) :
    Recording.Lockstep R (d.readPointInto point) (d'.readPointInto point) := by
  intro buffers s t hr
  refine Recording.abreast_bind (Recording.Lockstep.procedure h.numberBytes buffers s t hr)
    fun n q u v hn _ hr' => ?_
  obtain ⟨rfl, hbytes⟩ := (Recording.returns_procedure _ _ _ _ _ _).mp hn
  obtain ⟨rfl, -⟩ := (ends_numberBytes _ _).mp hbytes
  have hlen := h.bytes s t hr
  refine Recording.Lockstep.bind .get (fun buffers => ?_) q u v hr'
  split
  · exact .throw _
  · rename_i hlong
    rw [not_or, Nat.not_lt, Nat.not_lt] at hlong
    refine (Recording.Lockstep.procedure (h.readFront point.x hlen hlong.1)).bind fun x =>
      (Recording.Lockstep.set _).bind fun _ => (Recording.Lockstep.ofExcept _).bind fun _ =>
        (Recording.Lockstep.procedure (h.readFront point.y hlen hlong.2)).bind fun y => ?_
    exact (Recording.Lockstep.set _).bind fun _ => (Recording.Lockstep.ofExcept _).bind fun _ =>
      .pure _

theorem readPoint (point : PointRegister) :
    Operation.Lockstep R (d.readPoint point) (d'.readPoint point) := by
  have hcoordinates : Operation.Lockstep R (d.readCoordinates point) (d'.readCoordinates point) :=
    h.numberBytes_bind fun n _ =>
      (Operation.Lockstep.lift (h.readPointInto point ⟨.replicate n 0, .replicate n 0⟩)).bind
        fun _ => (Operation.Lockstep.ofExcept _).bind fun _ => .pure _
  exact hcoordinates.bind fun _ => (h.isInfinite point).bind fun _ => .pure _

theorem writePoint (point : PointRegister) (operand : Coordinates)
    (hx : len operand.x.length) (hy : len operand.y.length) :
    Operation.Lockstep R (d.writePoint point operand) (d'.writePoint point operand) :=
  (h.send _ _ hx).bind fun _ => h.send _ _ hy

/-- What is read at the address of a destination. -/
theorem readNumberInto (register : Destination) {buffer : Bytes} (hbuffer : len buffer.length) :
    Lockstep R ((d.readNumberInto register).on buffer) ((d'.readNumberInto register).on buffer) := by
  cases register with
  | number n => exact h.receive _ (.number n) buffer hbuffer
  | scalar => exact h.receive _ (.number .xR0) buffer hbuffer

/-! ### Point operations -/

section Operate
variable (hflags : ∀ point word, may (nullSink point) word) {operation : PointOperation}
  (hoperation : may .control (Command.operate operation).word)
include hflags hoperation

theorem operateOne {p : Coordinates} (hlen : ∀ bytes ∈ [p.x, p.y], len bytes.length) :
    Operation.Lockstep R (d.operateOne operation p) (d'.operateOne operation p) := by
  simp only [List.forall_mem_cons] at hlen
  obtain ⟨hx, hy, -⟩ := hlen
  exact (Operation.Lockstep.notify _).bind fun _ => h.saveFlags.bind fun _ =>
    (h.writePoint .r0 p hx hy).bind fun _ => (h.restoreFlags hflags _).bind fun _ =>
      h.writeSettled hoperation

theorem operateTwo {p q : Coordinates}
    (hlen : ∀ bytes ∈ [p.x, p.y, q.x, q.y], len bytes.length) :
    Operation.Lockstep R (d.operateTwo operation p q) (d'.operateTwo operation p q) := by
  simp only [List.forall_mem_cons] at hlen
  obtain ⟨hpx, hpy, hqx, hqy, -⟩ := hlen
  exact (Operation.Lockstep.notify _).bind fun _ => h.saveFlags.bind fun _ =>
    (h.writePoint .r0 p hpx hpy).bind fun _ => (h.writePoint .r1 q hqx hqy).bind fun _ =>
      (h.restoreFlags hflags _).bind fun _ => h.writeSettled hoperation

end Operate

/-! ### Multiplication -/

theorem collectResult (token : Bytes) :
    Operation.Lockstep R (d.collectResult token) (d'.collectResult token) :=
  (h.readPoint .r1).bind fun _ => (Operation.Lockstep.ofExcept _).bind fun _ =>
    (Operation.Lockstep.ofExcept _).bind fun _ => .pure _

section Multiply
variable (htoken : may .token 1) (hflags : ∀ point word, may (nullSink point) word)
  {point : Coordinates} {k : Bytes}
  (hlen : ∀ bytes ∈ [k, point.x, point.y], len bytes.length)
include htoken hflags hlen

theorem loadMultiplication :
    Operation.Lockstep R (d.loadMultiplication point k) (d'.loadMultiplication point k) := by
  simp only [List.forall_mem_cons] at hlen
  obtain ⟨hk, hx, hy, -⟩ := hlen
  exact h.saveFlags.bind fun _ => (h.fetchToken htoken).bind fun _ =>
    (h.send k .scalar hk).bind fun _ => (h.writePoint .r1 point hx hy).bind fun _ =>
      (h.restoreFlags hflags _).bind fun _ => .pure _

theorem multiply (hmultiply : may .control (Command.operate .multiply).word) :
    Operation.Lockstep R (d.multiply point k) (d'.multiply point k) :=
  (Operation.Lockstep.notify _).bind fun _ =>
    (h.loadMultiplication htoken hflags hlen).bind fun token =>
      (h.writeSettled hmultiply).bind fun _ => h.collectResult token

theorem multiplyTraced (hmay : MayTrace may) :
    Recording.Lockstep R (d.multiplyTraced point k) (d'.multiplyTraced point k) :=
  (Recording.Lockstep.procedure (.notify _)).bind fun _ =>
    (Recording.Lockstep.lift h.ensureDebug).bind fun _ =>
      (Recording.Lockstep.lift (h.loadMultiplication htoken hflags hlen)).bind fun token =>
        (h.traceRun hmay).bind fun _ => .lift (h.collectResult token)

end Multiply

end PairedTransfers

end CurveEngine.Driver
