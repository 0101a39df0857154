import CurveEngine.Proofs.Discipline

/-! Every call keeps to the discipline of the driver.

One lemma an operation, from single accesses up to multiplication, and `perform_disciplined`
at the end. A result may carry a failure that is thrown again after some bookkeeping, as a
buffer does that was filled in part (`carry`); an answer that is read off the status goes
together with the operation it is an answer to. -/
namespace CurveEngine
open Register Procedure

variable {α β γ ρ : Type} {d : Driver} {scope : Scope} {call : Call}

/-! ### Failures that are carried on -/

/-- A failure that is part of a result is thrown by what follows. -/
theorem Operation.disciplined_carry {failure : γ → Option DriverError} {p : Procedure γ}
    {f : γ → Operation β} (hp : Procedure.Disciplined d scope failure p)
    (hf : ∀ x, failure x = none → Disciplined d scope (f x))
    (fails : ∀ x e, failure x = some e → f x = throw e) :
    Disciplined d scope ((liftM p : Operation γ) >>= f) := by
  rw [Disciplined, run_lift_bind]
  exact hp.bind hf fun x e hx => ⟨.error e, by rw [fails x e hx]; rfl, rfl⟩

theorem Recording.disciplined_carry {failure : γ → Option DriverError} {p : Procedure γ}
    {f : γ → Recording ρ β} (hp : Procedure.Disciplined d scope failure p)
    (hf : ∀ x, failure x = none → Disciplined d scope (f x))
    (fails : ∀ x e, failure x = some e → ∀ r, ∃ q, (f x).on r = pure (.error e, q)) :
    Disciplined d scope ((liftM p : Recording ρ γ) >>= f) := by
  intro r
  rw [on_procedure_bind]
  refine hp.bind (fun x hx => hf x hx r) fun x e hx => ?_
  obtain ⟨q, hq⟩ := fails x e hx r
  exact ⟨(.error e, q), hq, rfl⟩

namespace Driver

/-! ### What the engine is -/

/-- A register that is read for something in it. -/
theorem field_disciplined {r : Source} (h : r.isPlain = true) (f : UInt32 → α) :
    Procedure.Disciplined d scope (fun _ => none)
      (do let word ← d.read r; pure (f word)) :=
  (Disciplined.read (scope.reads_of_isPlain h)).map fun _ => rfl

theorem isDebug_disciplined : Procedure.Disciplined d scope (fun _ => none) d.isDebug :=
  field_disciplined rfl _

theorem ensureDebug_disciplined : Operation.Disciplined d scope d.ensureDebug := by
  refine (Operation.Disciplined.lift isDebug_disciplined).bind fun debug => ?_
  cases debug with
  | true => exact .pure ()
  | false => exact .throw rfl

theorem size_disciplined : Procedure.Disciplined d scope (fun _ => none) d.size :=
  field_disciplined rfl _

theorem numberBytes_disciplined : Procedure.Disciplined d scope (fun _ => none) d.numberBytes :=
  size_disciplined.map fun _ => rfl

theorem transferWords_disciplined (len : Nat) :
    Operation.Disciplined d scope (d.transferWords len) := by
  refine (Operation.Disciplined.lift numberBytes_disciplined).bind fun bytes => ?_
  dsimp only
  split
  · exact .throw rfl
  · exact .pure _

/-! ### The debug bank -/

theorem writeDebug_disciplined {r : Sink} (h : r.isFree = true) (word : UInt32) :
    Operation.Disciplined d scope (d.writeDebug r word) :=
  ensureDebug_disciplined.bind fun _ => .lift (.write h)

theorem readDebug_disciplined {r : Source} (h : r.isPlain = true) :
    Operation.Disciplined d scope (d.readDebug r) :=
  ensureDebug_disciplined.bind fun _ => .lift (.read (scope.reads_of_isPlain h))

/-- A register of the debug bank that is read for something in it. -/
theorem debugField_disciplined {r : Source} (h : r.isPlain = true) (f : UInt32 → α) :
    Operation.Disciplined d scope (do let word ← d.readDebug r; pure (f word)) :=
  (readDebug_disciplined h).bind fun _ => .pure _

theorem writeBreakpoint_disciplined (id word : UInt32) :
    Operation.Disciplined d scope (d.writeBreakpoint id word) := by
  refine ensureDebug_disciplined.bind fun _ => ?_
  split
  · exact .throw rfl
  · exact .lift (.write rfl)

theorem isHalted_disciplined : Procedure.Disciplined d scope (fun _ => none) d.isHalted :=
  field_disciplined rfl _

theorem debugSnapshot_disciplined : Operation.Disciplined d scope d.debugSnapshot :=
  debugField_disciplined rfl _

theorem awaitHalt_disciplined : Operation.Disciplined d scope d.awaitHalt :=
  ensureDebug_disciplined.bind fun _ =>
    (Operation.Disciplined.pollUntil isHalted_disciplined).bind fun _ => debugSnapshot_disciplined

theorem patchMicrocode_disciplined (address : UInt32) (opcodes : List UInt32) :
    Operation.Disciplined d scope (d.patchMicrocode address opcodes) := by
  refine ensureDebug_disciplined.bind fun _ =>
    (debugField_disciplined (r := .memoryShape) rfl MemoryShape.opcodes.get).bind fun count => ?_
  split
  · exact .throw rfl
  · refine (Operation.Disciplined.notify _).bind fun _ => .forM _ fun x => .lift ?_
    exact (Disciplined.write rfl).andThen fun _ => .write rfl

theorem writeLimb_disciplined (address limb : UInt32) :
    Operation.Disciplined d scope (d.writeLimb address limb) :=
  ensureDebug_disciplined.bind fun _ =>
    (Operation.Disciplined.lift (.write rfl)).bind fun _ => .lift (.write rfl)

theorem fetchLimb_disciplined (address : UInt32) :
    Operation.Disciplined d scope (d.fetchLimb address) :=
  (Operation.Disciplined.lift (.write rfl)).bind fun _ =>
    (Operation.Disciplined.pollUntil (field_disciplined rfl _)).bind fun _ =>
      .lift (.read (scope.reads_of_isPlain rfl))

theorem readLimb_disciplined (address : UInt32) :
    Operation.Disciplined d scope (d.readLimb address) :=
  ensureDebug_disciplined.bind fun _ => fetchLimb_disciplined address

/-! ### The random number generator -/

theorem writeEntropy_disciplined {r : Sink} (h : r = .trngControl ∨ r = .trngConfig)
    (word : UInt32) : Operation.Disciplined d (.calling call) (d.writeEntropy r word) :=
  ensureDebug_disciplined.bind fun _ => Disciplined.entropy h word

theorem controlTrng_disciplined (word : UInt32) :
    Operation.Disciplined d (.calling call) (d.controlTrng word) :=
  writeEntropy_disciplined (.inl rfl) word

theorem readRawBit_disciplined (address : UInt32) :
    Operation.Disciplined d (.calling call) (d.readRawBit address) :=
  (controlTrng_disciplined _).bind fun _ =>
    (Operation.Disciplined.lift (.read (Scope.reads_of_isPlain rfl _))).bind fun _ => .pure _

theorem waitingCounts_disciplined :
    Operation.Disciplined d (.calling .waitingCounts) d.waitingCounts := by
  have hread (channel : Channel) :
      Operation.Disciplined d (.calling .waitingCounts) (liftM (d.read (.waiting channel))) :=
    .lift (.read (.inr (.inr ⟨rfl, channel, rfl⟩)))
  exact ensureDebug_disciplined.bind fun _ => (hread .axi).bind fun _ => (hread .efp).bind fun _ =>
    (hread .crv).bind fun _ => (hread .shf).bind fun _ => .pure _

theorem entropyCounters_disciplined : Operation.Disciplined d scope d.entropyCounters := by
  have hread {r : Source} (h : r.isPlain = true) :
      Procedure.Disciplined d scope (fun _ => none) (d.read r) := .read (scope.reads_of_isPlain h)
  have hchannel (channel : Channel) :
      Operation.Disciplined d scope (liftM (d.channelCounters channel)) :=
    .lift ((hread rfl).andThen fun _ => field_disciplined rfl _)
  exact ensureDebug_disciplined.bind fun _ => (Operation.Disciplined.lift (hread rfl)).bind fun _ =>
    (hchannel .axi).bind fun _ => (hchannel .efp).bind fun _ => (hchannel .crv).bind fun _ =>
      (hchannel .shf).bind fun _ => .pure _

/-! ### Setting up -/

theorem reset_disciplined : Operation.Disciplined d (.calling call) d.reset :=
  (Operation.Disciplined.notify _).bind fun _ =>
    (Operation.Disciplined.lift (.write rfl)).bind fun _ => Disciplined.rest .waitIdle

theorem configureEntropy_disciplined : Operation.Disciplined d (.calling call) d.configureEntropy := by
  refine (Operation.Disciplined.lift isDebug_disciplined).bind fun debug => ?_
  cases debug with
  | true => exact controlTrng_disciplined 0
  | false => exact .pure ()

/-- An engine is brought into service as a call resets it. -/
theorem startUp_disciplined : Operation.Disciplined d (.calling .reset) d.startUp :=
  reset_disciplined.bind fun _ => configureEntropy_disciplined

theorem settled_disciplined {r : Sink} {word : UInt32} (h : call.Settles word r) :
    Operation.Disciplined d (.calling call) (d.writeSettled r word) :=
  Disciplined.rest (.writeSettled h)

theorem setSize_disciplined (h : call.setsSize = true) (size : Nat) :
    Operation.Disciplined d (.calling call) (d.setSize size) := by
  refine (Operation.Disciplined.lift (.read (Scope.reads_of_isPlain rfl _))).bind fun word => ?_
  split
  · exact .throw rfl
  · split
    · exact settled_disciplined h
    · exact .pure ()

theorem limitScalar_disciplined (bits : UInt32) :
    Operation.Disciplined d (.calling call) (d.limitScalar bits) := by
  unfold limitScalar
  split
  · exact .throw rfl
  · exact settled_disciplined trivial

/-! ### Countermeasures -/

theorem enableBlinding_disciplined (bits : UInt32) :
    Operation.Disciplined d (.calling (.enableBlinding bits)) (d.enableBlinding bits) := by
  unfold enableBlinding
  split
  · exact settled_disciplined (.inl rfl)
  · refine (Operation.Disciplined.lift size_disciplined).bind fun size => ?_
    split
    · exact .throw rfl
    · exact settled_disciplined (.inr rfl)

theorem enableShuffling_disciplined :
    Operation.Disciplined d (.calling .enableShuffling) d.enableShuffling := by
  refine (Operation.Disciplined.lift (.read (Scope.reads_of_isPlain rfl _))).bind fun word => ?_
  split
  · exact settled_disciplined (.inl ⟨rfl, rfl⟩)
  · exact .throw rfl

theorem enableZremask_disciplined (period : UInt32) :
    Operation.Disciplined d (.calling call) (d.enableZremask period) := by
  unfold enableZremask
  split
  · exact .throw rfl
  · exact settled_disciplined trivial

theorem toggle_disciplined {r : Sink} (h : ∀ word, call.Settles word r) (enable : Bool) :
    Operation.Disciplined d (.calling call) (d.toggle r enable) :=
  ensureDebug_disciplined.bind fun _ => settled_disciplined (h _)

/-! ### Numbers -/

/-- A settled write is an enclosed one. -/
theorem enclosed_write (r : Sink) (word : UInt32) :
    d.enclosed (d.write r word) = d.writeSettled r word := by
  simp only [enclosed, writeSettled, bind_pure_unit]

theorem enclosed_send (word : UInt64) :
    d.enclosed (d.writeWord .writeData word) = d.sendWord word := by
  simp only [enclosed, sendWord, bind_pure_unit]

theorem enclosed_disciplined {r : Sink} (h : r ∈ Sink.checked) (word : UInt32) :
    Operation.Disciplined d .transferring (d.writeSettled r word) :=
  enclosed_write (d := d) r word ▸ Disciplined.enclosed (.write h word)

theorem sendWord_disciplined (word : UInt64) :
    Operation.Disciplined d .transferring (d.sendWord word) :=
  enclosed_send (d := d) word ▸ Disciplined.enclosed (.send word)

theorem openWrite_disciplined (destination : Destination) :
    Operation.Disciplined d .transferring (d.openWrite destination) := by
  cases destination with
  | number n => exact enclosed_disciplined (by decide) _
  | scalar =>
    refine Operation.Disciplined.bind (.pollUntil ?_) fun _ => enclosed_disciplined (by decide) _
    exact .glance rfl _ nofun

theorem writeNumber_disciplined (bytes : Bytes) (destination : Destination) :
    Operation.Disciplined d (.calling call) (d.writeNumber bytes destination) :=
  (transferWords_disciplined bytes.length).bind fun _ => Disciplined.transmit destination _
    ((openWrite_disciplined destination).bind fun _ => .forM _ sendWord_disciplined)

theorem receiveWords_disciplined (count : Nat) :
    Recording.Disciplined d .transferring (d.receiveWords count) := by
  induction count with
  | zero => exact .pure ()
  | succ count ih =>
    have hword : Operation.Disciplined d .transferring d.receiveWord := Disciplined.enclosed .receive
    exact (Recording.Disciplined.lift hword).bind fun _ =>
      (Recording.Disciplined.modify _).bind fun _ => ih

theorem readInto_disciplined {command : Command} (h : Fetches command) :
    Recording.Disciplined d (.calling call) (d.readInto command) := by
  intro buffer
  have hwords : Recording.Disciplined d (.calling call) (d.readWords command buffer.length) :=
    (Recording.Disciplined.lift (transferWords_disciplined _)).bind fun words received =>
      .receive h words received
        (((Recording.Disciplined.lift (enclosed_disciplined (by decide) _)).bind fun _ =>
          receiveWords_disciplined words) received)
  exact (hwords []).map fun _ => rfl

theorem readNumberInto_disciplined (register : Destination) :
    Recording.Disciplined d (.calling call) (d.readNumberInto register) := by
  cases register with
  | number n => exact readInto_disciplined (.number n)
  | scalar => exact readInto_disciplined (.number .xR0)

theorem readBytes_disciplined {command : Command} (h : Fetches command) (len : Nat) :
    Operation.Disciplined d (.calling call) (d.readBytes command len) := by
  refine (readInto_disciplined h (List.replicate len 0)).map fun x => ?_
  obtain ⟨ending, bytes⟩ := x
  cases ending <;> rfl

theorem fetchToken_disciplined : Operation.Disciplined d (.calling call) d.fetchToken :=
  (settled_disciplined (r := .token) trivial).bind fun _ =>
    (Operation.Disciplined.lift numberBytes_disciplined).bind fun _ =>
      readBytes_disciplined .token _

/-! ### Points -/

theorem lasting_nullFlag (point : PointRegister) : Lasting (nullFlag point).test := by
  cases point with
  | r0 => exact ⟨fun _ _ r0Null _ => r0Null, fun _ => rfl⟩
  | r1 => exact ⟨fun _ _ _ r1Null => r1Null, fun _ => rfl⟩

theorem isInfinite_disciplined (point : PointRegister) :
    Operation.Disciplined d (.calling call) (d.isInfinite point) :=
  Disciplined.look .waitIdle (lasting_nullFlag point)

theorem saveFlags_disciplined : Operation.Disciplined d (.calling call) d.saveFlags :=
  Disciplined.look (f := fun word => PointFlags.mk (Status.r0Null.test word) (Status.r1Null.test word))
    .waitIdle ⟨fun _ _ r0Null r1Null => ⟨r0Null, r1Null⟩, fun _ => rfl⟩

theorem nullSink_settles (point : PointRegister) (word : UInt32) :
    call.Settles word (nullSink point) := by
  cases point <;> trivial

theorem restoreFlags_disciplined (flags : PointFlags) :
    Operation.Disciplined d (.calling call) (d.restoreFlags flags) :=
  (settled_disciplined (nullSink_settles .r0 _)).bind fun _ =>
    settled_disciplined (nullSink_settles .r1 _)

theorem readFront_disciplined (register : Number) (len : Nat) :
    Recording.Disciplined d (.calling call) (d.readFront register len) :=
  fun buffer => (readInto_disciplined (.number register) (buffer.take len)).map fun _ => rfl

theorem readPointInto_disciplined (point : PointRegister) :
    Recording.Disciplined d (.calling call) (d.readPointInto point) := by
  refine (Recording.Disciplined.procedure numberBytes_disciplined).bind fun len =>
    Recording.Disciplined.get.bind fun buffers => ?_
  split
  · exact .throw rfl
  · refine Recording.disciplined_carry (readFront_disciplined point.x len buffers.x)
      (fun x hx => ?_) fun x e hx r => ?_
    · obtain ⟨ending, x⟩ := x
      cases ending with
      | error e => cases hx
      | ok _ =>
        refine (Recording.Disciplined.set _).bind fun _ => (Recording.Disciplined.pure ()).bind fun _ =>
          Recording.disciplined_carry (readFront_disciplined point.y len buffers.y)
            (fun y hy => ?_) fun y e hy r => ?_
        · obtain ⟨ending, y⟩ := y
          cases ending with
          | error e => cases hy
          | ok _ =>
            exact (Recording.Disciplined.set _).bind fun _ =>
              (Recording.Disciplined.pure ()).bind fun _ => .pure _
        · obtain ⟨ending, y⟩ := y
          cases ending with
          | ok _ => cases hy
          | error e' =>
            obtain rfl := Option.some_inj.mp hy
            exact ⟨_, rfl⟩
    · obtain ⟨ending, x⟩ := x
      cases ending with
      | ok _ => cases hx
      | error e' =>
        obtain rfl := Option.some_inj.mp hx
        exact ⟨_, rfl⟩

theorem readPoint_disciplined (point : PointRegister) :
    Operation.Disciplined d (.calling call) (d.readPoint point) := by
  have hcoordinates : Operation.Disciplined d (.calling call) (d.readCoordinates point) := by
    refine (Operation.Disciplined.lift numberBytes_disciplined).bind fun len =>
      Operation.disciplined_carry (readPointInto_disciplined point ⟨.replicate len 0, .replicate len 0⟩)
        (fun x hx => ?_) fun x e hx => ?_
    · obtain ⟨ending, buffers⟩ := x
      cases ending with
      | error e => cases hx
      | ok _ => exact (Operation.Disciplined.pure _).bind fun _ => .pure _
    · obtain ⟨ending, buffers⟩ := x
      cases ending with
      | ok _ => cases hx
      | error e' =>
        obtain rfl := Option.some_inj.mp hx
        rfl
  exact hcoordinates.bind fun _ => (isInfinite_disciplined point).bind fun _ => .pure _

theorem writePoint_disciplined (point : PointRegister) (operand : Coordinates) :
    Operation.Disciplined d (.calling call) (d.writePoint point operand) :=
  (writeNumber_disciplined _ _).bind fun _ => writeNumber_disciplined _ _

/-! ### Point operations -/

section Operate
variable {operation : PointOperation} (huntraced : call.isTraced = false)
  (hcall : call.operation? = some operation)
include huntraced hcall

theorem execute_disciplined : Operation.Disciplined d (.calling call) (d.execute operation) :=
  settled_disciplined (r := .control) ⟨huntraced, operation, hcall, rfl⟩

/-- The answer to a test is read when the test is over. -/
theorem answer_disciplined :
    Operation.Disciplined d (.calling call) (do d.execute operation; d.answer) := by
  simp only [answer, liftM_bind, liftM_pure]
  exact Disciplined.look (f := Status.yes.test)
    (.writeSettled (r := .control) ⟨huntraced, operation, hcall, rfl⟩)
      ⟨fun _ yes _ _ => yes, fun _ => rfl⟩

variable {ending : Operation α}
  (h : Operation.Disciplined d (.calling call) (do d.execute operation; ending))
include h
omit huntraced hcall

theorem operateOne_disciplined (p : Coordinates) :
    Operation.Disciplined d (.calling call) (do d.operateOne operation p; ending) := by
  simp only [operateOne, LawfulMonad.bind_assoc]
  exact (Operation.Disciplined.notify _).bind fun _ => saveFlags_disciplined.bind fun flags =>
    (writePoint_disciplined .r0 p).bind fun _ => (restoreFlags_disciplined flags).bind fun _ => h

theorem operateTwo_disciplined (p q : Coordinates) :
    Operation.Disciplined d (.calling call) (do d.operateTwo operation p q; ending) := by
  simp only [operateTwo, LawfulMonad.bind_assoc]
  exact (Operation.Disciplined.notify _).bind fun _ => saveFlags_disciplined.bind fun flags =>
    (writePoint_disciplined .r0 p).bind fun _ => (writePoint_disciplined .r1 q).bind fun _ =>
      (restoreFlags_disciplined flags).bind fun _ => h

end Operate

/-! ### Multiplication -/

theorem loadMultiplication_disciplined (point : Coordinates) (k : Bytes) :
    Operation.Disciplined d (.calling call) (d.loadMultiplication point k) :=
  saveFlags_disciplined.bind fun flags => fetchToken_disciplined.bind fun _ =>
    (writeNumber_disciplined k .scalar).bind fun _ =>
      (writePoint_disciplined .r1 point).bind fun _ =>
        (restoreFlags_disciplined flags).bind fun _ => .pure _

theorem collectResult_disciplined (token : Bytes) :
    Operation.Disciplined d (.calling call) (d.collectResult token) := by
  have hunmask (coordinate : Bytes) :
      Operation.Disciplined d (.calling call) (ofExcept (unmask token coordinate)) := by
    refine .ofExcept fun e he => ?_
    unfold unmask at he
    split at he
    · cases he
    · cases he
      rfl
  exact (readPoint_disciplined .r1).bind fun _ => (hunmask _).bind fun _ =>
    (hunmask _).bind fun _ => .pure _

theorem multiply_disciplined (huntraced : call.isTraced = false)
    (hcall : call.operation? = some .multiply) (point : Coordinates) (k : Bytes) :
    Operation.Disciplined d (.calling call) (d.multiply point k) :=
  (Operation.Disciplined.notify _).bind fun _ =>
    (loadMultiplication_disciplined point k).bind fun token =>
      (execute_disciplined huntraced hcall).bind fun _ => collectResult_disciplined token

/-! ### Stepping through a multiplication -/

theorem waitHaltedOrOver_disciplined : Operation.Disciplined d .following d.waitHaltedOrOver := by
  have hcheck : Procedure.Disciplined d .following (fun _ => none) d.isHaltedOrOver := by
    refine isHalted_disciplined.andThen fun halted => ?_
    cases halted with
    | true => exact .done true nofun
    | false =>
      exact .glance rfl (fun word => !Status.multiplying.test word)
        fun _ => ⟨fun multiplying _ _ _ => !multiplying, fun _ => rfl⟩
  exact (Operation.Disciplined.pollUntil hcheck).bind fun _ =>
    debugSnapshot_disciplined.bind fun _ => .pure _

theorem fetchLimbs_disciplined (addresses : List UInt32) (fetched : Array UInt32) :
    Operation.Disciplined d scope (d.fetchLimbs addresses fetched) := by
  induction addresses generalizing fetched with
  | nil => exact .pure fetched
  | cons address rest ih =>
    exact (fetchLimb_disciplined address).bind fun limb => ih (fetched.push limb)

theorem readSlot_disciplined (layout : LimbLayout) (slot : Nat) :
    Operation.Disciplined d scope (d.readSlot layout slot) :=
  (fetchLimbs_disciplined _ _).bind fun _ => .pure _

theorem recordPhase_disciplined (layout : LimbLayout) (phase : TracePhase) (spot : Spot) :
    Recording.Disciplined d scope (d.recordPhase layout phase spot) := by
  have hslot (slot : Nat) : Operation.Disciplined d scope (d.readSlot layout slot) :=
    readSlot_disciplined layout slot
  have hrandom (phase : TracePhase) (slot : Nat) (keep : LimbNumber → Trace → Trace) :
      Recording.Disciplined d scope (d.recordRandom layout phase slot keep spot) :=
    (Recording.Disciplined.lift (hslot slot)).bind fun _ => .modify _
  have hstep : Operation.Disciplined d scope (d.readStep layout phase spot) :=
    (readDebug_disciplined rfl).bind fun _ => (hslot _).bind fun _ => (hslot _).bind fun _ =>
      (hslot _).bind fun _ => (hslot _).bind fun _ => (hslot _).bind fun _ => .pure _
  unfold recordPhase
  split
  · exact hrandom _ _ _
  · exact hrandom _ _ _
  · exact hrandom _ _ _
  · exact hrandom _ _ _
  · exact (Recording.Disciplined.lift hstep).bind fun _ => .modify _

theorem stepOpcodes_disciplined (layout : LimbLayout) (fuel : Nat) :
    Recording.Disciplined d .following (d.stepOpcodes layout fuel) := by
  induction fuel with
  | zero => exact .spent
  | succ fuel ih =>
    refine Recording.Disciplined.get.bind fun t => Recording.Disciplined.get.bind fun _ => ?_
    dsimp only
    split
    · exact (Recording.Disciplined.modify _).bind fun _ => .throw rfl
    refine (Recording.Disciplined.lift (writeDebug_disciplined rfl _)).bind fun _ =>
      (Recording.Disciplined.lift waitHaltedOrOver_disciplined).bind fun halted => ?_
    cases halted with
    | none => exact .throw rfl
    | some here =>
      have hrest : Recording.Disciplined d .following
          (if (⟨here.pc, here.state⟩ : Spot) = t.options.points.last then pure ()
            else d.stepOpcodes layout fuel) := by
        split
        · exact .pure ()
        · exact ih
      refine (Recording.Disciplined.modify _).bind fun _ => ?_
      cases t.options.points.phaseAt? ⟨here.pc, here.state⟩ with
      | none => exact (Recording.Disciplined.pure ()).bind fun _ => hrest
      | some phase => exact (recordPhase_disciplined layout phase _).bind fun _ => hrest

theorem followRun_disciplined (layout : LimbLayout) :
    Recording.Disciplined d .following (d.followRun layout) := by
  refine (Recording.Disciplined.lift waitHaltedOrOver_disciplined).bind fun halted => ?_
  cases halted with
  | none => exact (Recording.Disciplined.lift Disciplined.settle).bind fun _ => .throw rfl
  | some here =>
    refine Recording.Disciplined.get.bind fun t => ?_
    dsimp only
    split
    · exact stepOpcodes_disciplined layout d.fuel
    · exact (Recording.Disciplined.procedure (.notify _)).bind fun _ => .throw rfl

theorem release_disciplined : Operation.Disciplined d .following d.release :=
  (writeBreakpoint_disciplined _ _).bind fun _ =>
    (writeDebug_disciplined rfl _).bind fun _ => Disciplined.settle

theorem traceRun_disciplined (hcall : call.isTraced = true) :
    Recording.Disciplined d (.calling call) d.traceRun := by
  refine (Recording.Disciplined.lift ensureDebug_disciplined).bind fun _ =>
    (Recording.Disciplined.procedure size_disciplined).bind fun size =>
      (Recording.Disciplined.lift (readDebug_disciplined rfl)).bind fun width => ?_
  dsimp only
  split
  · exact .throw rfl
  · refine (Recording.Disciplined.modify _).bind fun _ => Recording.Disciplined.get.bind fun t => ?_
    exact fun t' => .pursue hcall _ _ t' (writeBreakpoint_disciplined _ _)
      (followRun_disciplined _ t') release_disciplined

theorem multiplyTraced_disciplined (hcall : call.isTraced = true) (point : Coordinates)
    (k : Bytes) : Recording.Disciplined d (.calling call) (d.multiplyTraced point k) :=
  (Recording.Disciplined.procedure (.notify _)).bind fun _ =>
    (Recording.Disciplined.lift ensureDebug_disciplined).bind fun _ =>
      (Recording.Disciplined.lift (loadMultiplication_disciplined point k)).bind fun token =>
        (traceRun_disciplined hcall).bind fun _ => .lift (collectResult_disciplined token)

/-! ### Calls -/

theorem failureOf_map (f : α → β) (x : Except DriverError α) :
    failureOf (x.map f) = failureOf x := by
  cases x <;> rfl

section Answer
variable {reply : α → Reply}

theorem ofOperation_disciplined {op : Operation α} (h : Operation.Disciplined d scope op) :
    Procedure.Disciplined d scope (fun answer => failureOf answer.result)
      (Answer.ofOperation reply op) := h.map fun _ => failureOf_map ..

theorem ofProcedure_disciplined {p : Procedure α}
    (h : Procedure.Disciplined d scope (fun _ => none) p) :
    Procedure.Disciplined d scope (fun answer => failureOf answer.result)
      (Answer.ofProcedure reply p) := h.map fun _ => rfl

theorem ofRecording_disciplined {lent : ρ} {back : ρ → Answer → Answer} {op : Recording ρ α}
    (h : Recording.Disciplined d scope op) (hback : ∀ r answer, (back r answer).result = answer.result) :
    Procedure.Disciplined d scope (fun answer => failureOf answer.result)
      (Answer.ofRecording reply lent back op) :=
  (h lent).map fun _ => (congrArg failureOf (hback _ _)).trans (failureOf_map ..)

end Answer

/-- Every call keeps to the discipline of the driver. -/
theorem perform_disciplined (d : Driver) (call : Call) :
    Procedure.Disciplined d (.calling call) (fun answer => failureOf answer.result)
      (call.perform d) := by
  cases call with
  | reset => exact ofOperation_disciplined reset_disciplined
  | configureEntropy => exact ofOperation_disciplined configureEntropy_disciplined
  | status => exact ofProcedure_disciplined (.read (.inr (.inl ⟨rfl, rfl⟩)))
  | capabilities => exact ofProcedure_disciplined (.read (Scope.reads_of_isPlain rfl _))
  | isDebug => exact ofProcedure_disciplined isDebug_disciplined
  | version => exact ofProcedure_disciplined (field_disciplined rfl _)
  | size => exact ofProcedure_disciplined size_disciplined
  | numberBytes => exact ofProcedure_disciplined numberBytes_disciplined
  | setSize bits => exact ofOperation_disciplined (setSize_disciplined rfl _)
  | setCurve a b p q =>
    have hnumber (bytes : Bytes) (n : Number) :
        Operation.Disciplined d (.calling (.setCurve a b p q)) (d.writeNumber bytes (.number n)) :=
      writeNumber_disciplined bytes (.number n)
    exact ofOperation_disciplined ((Operation.Disciplined.notify _).bind fun _ =>
      (setSize_disciplined rfl _).bind fun _ => (hnumber p .p).bind fun _ =>
        (hnumber a .a).bind fun _ => (hnumber b .b).bind fun _ => hnumber q .q)
  | limitScalar bits => exact ofOperation_disciplined (limitScalar_disciplined bits)
  | isInfinite point => exact ofOperation_disciplined (isInfinite_disciplined point)
  | flagInfinite point | unflagInfinite point =>
    exact ofOperation_disciplined (settled_disciplined (nullSink_settles point _))
  | writeNumber bytes destination =>
    exact ofOperation_disciplined (writeNumber_disciplined bytes destination)
  | readNumber buffer register =>
    rw [Call.perform]
    refine ofRecording_disciplined (readNumberInto_disciplined register) ?_
    exact fun _ _ => rfl
  | readPoint point => exact ofOperation_disciplined (readPoint_disciplined point)
  | readPointInto point buffers =>
    rw [Call.perform]
    refine ofRecording_disciplined (readPointInto_disciplined point) ?_
    exact fun _ _ => rfl
  | add p q =>
    exact ofOperation_disciplined (operateTwo_disciplined
      ((execute_disciplined rfl rfl).bind fun _ => readPoint_disciplined .r1) p q)
  | double p | negate p =>
    exact ofOperation_disciplined (operateOne_disciplined
      ((execute_disciplined rfl rfl).bind fun _ => readPoint_disciplined .r1) p)
  | isOnCurve p =>
    exact ofOperation_disciplined (operateOne_disciplined (answer_disciplined rfl rfl) p)
  | equal p q | opposite p q =>
    exact ofOperation_disciplined (operateTwo_disciplined (answer_disciplined rfl rfl) p q)
  | multiply p k => exact ofOperation_disciplined (multiply_disciplined rfl rfl p k)
  | multiplyTraced p k trace =>
    rw [Call.perform]
    refine ofRecording_disciplined (multiplyTraced_disciplined ?_ p k) ?_
    · rfl
    · exact fun _ _ => rfl
  | enableBlinding bits => exact ofOperation_disciplined (enableBlinding_disciplined bits)
  | disableBlinding => exact ofOperation_disciplined (settled_disciplined (.inl rfl))
  | enableShuffling => exact ofOperation_disciplined enableShuffling_disciplined
  | disableShuffling => exact ofOperation_disciplined (settled_disciplined (.inr ⟨rfl, rfl⟩))
  | enableZremask period => exact ofOperation_disciplined (enableZremask_disciplined period)
  | enableIrq | disableZremask => exact ofOperation_disciplined (settled_disciplined trivial)
  | setXyShuffle enable | setAxiMask enable | setTokenMask enable =>
    exact ofOperation_disciplined (toggle_disciplined (by intro; trivial) enable)
  | setBreakpoint | removeBreakpoint =>
    exact ofOperation_disciplined (writeBreakpoint_disciplined _ _)
  | halt | resume | runOpcodes | armTrigger | disarmTrigger | setTriggerUp | setTriggerDown
  | resetCounters => exact ofOperation_disciplined (writeDebug_disciplined rfl _)
  | debugSnapshot => exact ofOperation_disciplined debugSnapshot_disciplined
  | awaitHalt => exact ofOperation_disciplined awaitHalt_disciplined
  | ladderFlags | operationTime | limbWidth | rawFillTime =>
    exact ofOperation_disciplined (readDebug_disciplined rfl)
  | opcodeCount | opcodeSize | rawSize | shuffleWidth | rawFifo =>
    exact ofOperation_disciplined (debugField_disciplined rfl _)
  | patchMicrocode address opcodes =>
    exact ofOperation_disciplined (patchMicrocode_disciplined address opcodes)
  | writeLimb address limb => exact ofOperation_disciplined (writeLimb_disciplined address limb)
  | readLimb address => exact ofOperation_disciplined (readLimb_disciplined address)
  | configureTrng debias accessTime idle =>
    exact ofOperation_disciplined (writeEntropy_disciplined (.inr rfl) _)
  | resetTrngModes | disablePostproc | bypassTrng | disableRawRead | resetRawFifo
  | resetNumberFifos => exact ofOperation_disciplined (controlTrng_disciplined _)
  | readRawBit address => exact ofOperation_disciplined (readRawBit_disciplined address)
  | waitingCounts => exact ofOperation_disciplined waitingCounts_disciplined
  | entropyCounters => exact ofOperation_disciplined entropyCounters_disciplined

end Driver

end CurveEngine
