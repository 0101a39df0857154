import CurveEngine.Proofs.Product

/-! The lock on a production engine.

Everything that the debug bank rules over, from the debug machine to the modes of the
random number generator, is gathered in `DebugBank`. On a production engine no access
reaches any of it (`debugBank_serve`): the bank takes no writes, a multiplication is over
within the write that starts it, and a reset puts back what is there already. So whatever
traffic the bus carries, the bank stays as it was at power-up (`locked_serveAll`), which is
what `production_lock` spells out. -/
namespace CurveEngine.Device
open Register

/-! ### What the debug bank rules over -/

/-- A generator with what it has yielded taken out. -/
def Trng.modes (t : Trng) : Trng := { t with drawn := 0, waiting := .all 0, served := .all 0 }

theorem Trng.modes_draw (t : Trng) (bits : Nat) (channel : Channel) :
    (t.draw bits channel).2.modes = t.modes := by
  unfold Trng.draw Trng.bytes
  cases hbypass : t.bypass with
  | none => simp only [modes, hbypass]
  | some bit => simp only [modes, hbypass]

/-- What an engine was built with, and what only its debug bank can change. -/
structure DebugBank where
  params : Parameters
  sequencer : Sequencer
  shuffle : Bool
  xyShuffle : Bool
  axiMask : Bool
  tokenMask : Bool
  program : Array UInt32
  opcodeAddress : UInt32
  limbWriteAddress : UInt32
  limb : UInt32
  limbReady : Bool
  triggerArmed : Bool
  triggerUp : UInt32
  triggerDown : UInt32
  trng : Trng

namespace State

def debugBank (s : State) : DebugBank where
  params := s.params
  sequencer := s.sequencer
  shuffle := s.shuffle
  xyShuffle := s.xyShuffle
  axiMask := s.axiMask
  tokenMask := s.tokenMask
  program := s.program
  opcodeAddress := s.opcodeAddress
  limbWriteAddress := s.limbWriteAddress
  limb := s.limb
  limbReady := s.limbReady
  triggerArmed := s.triggerArmed
  triggerUp := s.triggerUp
  triggerDown := s.triggerDown
  trng := s.trng.modes

/-- A production engine whose debug bank is as it was at power-up. -/
structure Locked (params : Parameters) (entropy : Nat → UInt8) (s : State) : Prop where
  production : params.debug = false
  bank : s.debugBank = (powerUp params entropy).debugBank

variable {params : Parameters} {entropy : Nat → UInt8} {s t : State}

namespace Locked

theorem params_eq (h : s.Locked params entropy) : s.params = params :=
  congrArg DebugBank.params h.bank

theorem debug (h : s.Locked params entropy) : s.params.debug = false := by
  rw [h.params_eq]
  exact h.production

theorem sequencer (h : s.Locked params entropy) : s.sequencer = .idle :=
  congrArg DebugBank.sequencer h.bank

theorem shuffle (h : s.Locked params entropy) : s.shuffle = s.params.shuffle := by
  rw [h.params_eq]
  exact congrArg DebugBank.shuffle h.bank

theorem resting (h : s.Locked params entropy) : s.multiplying = false := by
  rw [multiplying, h.sequencer]
  rfl

/-- The raw FIFO of a production engine is always full. -/
theorem rawStatus (h : s.Locked params entropy) (rawSize : Nat) (hsize : rawSize = s.params.rawSize) :
    (s.trng.rawStatus rawSize).2 = s.trng := by
  have hfifo : s.trng.rawFifo.size = s.params.rawSize := by
    have hbank := congrArg (fun bank => bank.trng.rawFifo.size) h.bank
    rw [h.params_eq]
    exact hbank.trans (by simp [debugBank, Trng.modes, powerUp, Trng.powerUp, Trng.fillRaw])
  rw [Trng.rawStatus, hfifo, hsize]
  exact if_neg (Nat.lt_irrefl _)

end Locked

/-! ### Drawing random numbers -/

/-- What is drawn is taken from the generator, whose modes stay. -/
theorem debugBank_draw (s : State) (bits : Nat) (channel : Channel) :
    (s.draw bits channel).2.debugBank = s.debugBank := by
  have hmodes : (s.draw bits channel).2.trng.modes = s.trng.modes := s.trng.modes_draw bits channel
  rw [debugBank, hmodes]
  rfl

theorem debugBank_drawBelowP (s : State) (channel : Channel) :
    (s.drawBelowP channel).2.debugBank = s.debugBank := s.debugBank_draw s.size channel

theorem debugBank_effectiveScalar (s : State) :
    s.effectiveScalar.2.debugBank = s.debugBank := by
  unfold State.effectiveScalar
  split
  · rfl
  · split
    · exact s.debugBank_draw _ _
    · rfl

theorem debugBank_drawRandoms (s : State) (alpha : Option Nat) :
    (s.drawRandoms alpha).2.debugBank = s.debugBank := by
  have hdrawIf (on : Bool) (bits : Nat) (channel : Channel) (u : State) :
      (if on then (u.draw bits channel).2 else u).debugBank = u.debugBank := by
    split
    · exact u.debugBank_draw bits channel
    · rfl
  simp only [drawRandoms, hdrawIf, debugBank_drawBelowP]

theorem modes_trngAfter (s : State) : s.trngAfter.modes = s.trng.modes :=
  congrArg DebugBank.trng ((debugBank_drawRandoms _ _).trans s.debugBank_effectiveScalar)

/-! ### Commands -/

theorem debugBank_openWrite (s : State) (address : UInt32) (scalar : Bool) :
    (s.openWrite address scalar).debugBank = s.debugBank :=
  openWrite_keeps (P := fun t => t.debugBank = s.debugBank) (fun _ _ _ _ _ _ => rfl) address scalar

theorem debugBank_openRead (s : State) (address : UInt32) (token : Bool) :
    (s.openRead address token).debugBank = s.debugBank :=
  openRead_keeps (P := fun t => t.debugBank = s.debugBank) (fun _ _ => rfl) address token

theorem debugBank_operate (s : State) (word : UInt32) :
    (s.operate word).debugBank = s.debugBank :=
  operate_keeps (P := fun t => t.debugBank = s.debugBank) (fun _ _ _ _ => rfl) word

/-- A multiplication that nothing can stop is over at once. -/
theorem debugBank_startMultiplication (h : s.sequencer = .idle) :
    s.startMultiplication.debugBank = s.debugBank := by
  by_cases hpoint : s.curve.contains s.pointR1 = true
  · have hsequencer : s.finished.sequencer = s.sequencer := by
      rw [h, show s.finished.sequencer = { Sequencer.idle with
        stray := s.sequencer.stray, breakpoints := s.sequencer.breakpoints } from rfl, h]
    have hmodes : s.finished.trng.modes = s.trng.modes := s.modes_trngAfter
    rw [startMultiplication_finished hpoint (by rw [h]; rfl) (by rw [h]; rfl) (by rw [h]; rfl),
      debugBank, hsequencer, hmodes]
    rfl
  · rw [startMultiplication_refused (Bool.eq_false_iff.mpr hpoint)]
    rfl

theorem debugBank_control (h : s.sequencer = .idle) (word : UInt32) :
    (s.control word).debugBank = s.debugBank := by
  unfold State.control
  split
  · rfl
  dsimp only
  split
  · exact debugBank_openWrite _ _ _
  split
  · exact debugBank_openRead _ _ _
  split
  · exact debugBank_startMultiplication (s := s.begun) h
  · exact debugBank_operate s.begun word

theorem debugBank_writeData (s : State) (value : UInt64) :
    (s.writeData value).debugBank = s.debugBank :=
  writeData_keeps (P := fun t => t.debugBank = s.debugBank) (fun _ _ _ _ _ => rfl) value

theorem debugBank_readData (s : State) : s.readData.2.debugBank = s.debugBank :=
  readData_keeps (P := fun t => t.debugBank = s.debugBank) fun _ _ => rfl

/-! ### Settings -/

theorem debugBank_setSize (s : State) (size : Nat) : (s.setSize size).debugBank = s.debugBank :=
  setSize_keeps (P := fun t => t.debugBank = s.debugBank) (fun _ _ => rfl) size

theorem debugBank_setBlinding (s : State) (word : UInt32) :
    (s.setBlinding word).debugBank = s.debugBank :=
  setBlinding_keeps (P := fun t => t.debugBank = s.debugBank) (fun _ _ => rfl) word

namespace Locked

/-- A production engine shuffles if it can, and cannot be told otherwise. -/
theorem debugBank_setShuffle (h : s.Locked params entropy) (enable : Bool) :
    (s.setShuffle enable).debugBank = s.debugBank := by
  unfold State.setShuffle
  split
  · rfl
  · rename_i haccepted
    have henable : enable = s.shuffle := by
      rw [h.shuffle]
      have hdebug := h.debug
      revert haccepted
      rw [hdebug]
      cases enable <;> cases s.params.shuffle <;> decide
    rw [henable]

/-- A reset restores what is there already. -/
theorem debugBank_softReset (h : s.Locked params entropy) : s.softReset.debugBank = s.debugBank := by
  have hsequencer : s.softReset.sequencer = s.sequencer := by
    rw [softReset, h.sequencer]
  rw [debugBank, hsequencer, show s.softReset.shuffle = s.shuffle from h.shuffle.symm]
  rfl

/-! ### Accesses -/

/-- The registers of the debug bank take no writes. -/
theorem writeSink_debug (h : s.Locked params entropy) {r : Sink} (hr : r.isDebug = true)
    (value : UInt64) : s.writeSink r value = s := by
  have hignored (t : State) : (if s.params.debug then t else s) = s := by
    rw [h.debug]
    rfl
  cases r with
  | control | writeData | r0Null | r1Null | primeSize | blinding | shuffle | zremask | token | irq
  | errorAck | smallScalar | softReset => exact absurd hr (by decide)
  | _ => exact hignored _

theorem debugBank_writeSink (h : s.Locked params entropy) (r : Sink) (value : UInt64) :
    (s.writeSink r value).debugBank = s.debugBank := by
  by_cases hr : r.isDebug = true
  · rw [h.writeSink_debug hr]
  cases r with
  | control => exact debugBank_control h.sequencer _
  | writeData => exact s.debugBank_writeData value
  | primeSize => exact s.debugBank_setSize _
  | blinding => exact s.debugBank_setBlinding _
  | shuffle => exact h.debugBank_setShuffle _
  | token => exact s.debugBank_draw _ _
  | softReset => exact h.debugBank_softReset
  | r0Null | r1Null | zremask | irq | errorAck | smallScalar => rfl
  | _ => exact absurd rfl hr

/-- Reading a register of the debug bank yields nothing, and changes nothing. -/
theorem readSource_debug (h : s.Locked params entropy) {r : Source} (hr : r.isDebug = true) :
    s.readSource r = (0, s) := by
  have hstate : (s.sourceWord r).2 = s := by
    cases r with
    | status | readData => exact absurd hr (by decide)
    | rawFifoStatus =>
      show ({ s with trng := (s.trng.rawStatus s.params.rawSize).2 } : State) = s
      rw [h.rawStatus _ rfl]
    | _ => rfl
  have hread : s.readSource r =
      (if r.isDebug && !(s.sourceWord r).2.params.debug then 0 else (s.sourceWord r).1,
        (s.sourceWord r).2) := rfl
  rw [hread, hstate, hr, h.debug]
  rfl

theorem debugBank_readSource (h : s.Locked params entropy) (r : Source) :
    (s.readSource r).2.debugBank = s.debugBank := by
  by_cases hr : r.isDebug = true
  · rw [h.readSource_debug hr]
  cases r with
  | readData => exact s.debugBank_readData
  | status =>
    show s.readStatus.2.debugBank = _
    simp only [readStatus]
    split
    · rfl
    · rfl
  | capabilities | primeSize | version => rfl
  | waiting c | served c | starved c => cases c <;> exact absurd rfl hr
  | _ => exact absurd rfl hr

theorem debugBank_serve (h : s.Locked params entropy) (request : Request) :
    (s.serve request).debugBank = s.debugBank := by
  cases request with
  | read size offset =>
    simp only [serve, State.read]
    split
    · rfl
    · exact h.debugBank_readSource _
  | write size offset value =>
    simp only [serve, State.write]
    split
    · exact h.debugBank_writeSink _ _
    · split
      · rfl
      · rfl

theorem serve (h : s.Locked params entropy) (request : Request) :
    (s.serve request).Locked params entropy :=
  ⟨h.production, (h.debugBank_serve request).trans h.bank⟩

end Locked

/-- A production engine stays locked, whatever it is asked for. -/
theorem locked_serveAll (hproduction : params.debug = false) (requests : List Request) :
    ((powerUp params entropy).serveAll requests).Locked params entropy :=
  List.foldlRecOn requests _ ⟨hproduction, rfl⟩ fun _ h request _ => h.serve request

/-- At the offsets of the debug bank nothing is read. -/
theorem Locked.read_debugBank (h : s.Locked params entropy) (size : AccessSize) {offset : UInt32}
    (hoffset : debugBase ≤ offset) :
    (s.read size offset = (.error .loadRefused, s)) ∨ s.read size offset = (.ok 0, s) := by
  unfold State.read
  split
  · exact .inl rfl
  · rename_i r hr
    have hdebug : r.isDebug = true := by
      rw [Source.isDebug, Source.offset_of_ofOffset? hr]
      exact decide_eq_true hoffset
    rw [h.readSource_debug hdebug]
    right
    cases size <;> rfl

/-- And nothing is written. -/
theorem Locked.write_debugBank (h : s.Locked params entropy) (size : AccessSize) {offset : UInt32}
    (hoffset : debugBase ≤ offset) (value : UInt64) : (s.write size offset value).2 = s := by
  unfold State.write
  split
  · rename_i r hr
    have hdebug : r.isDebug = true := by
      rw [Sink.isDebug, Sink.offset_of_ofOffset? hr]
      exact decide_eq_true hoffset
    exact h.writeSink_debug hdebug _
  · split
    · rfl
    · rfl

end State

/-- **A production engine is locked.** After any traffic from power-up on, no
multiplication is in progress and nothing is armed that could halt one, the generator runs
as it was built to, the masks are on, the program is untouched, and the debug bank neither
shows anything nor takes anything. -/
theorem production_lock (params : Parameters) (entropy : Nat → UInt8) (requests : List Request)
    (hproduction : params.debug = false) :
    let s := (State.powerUp params entropy).serveAll requests
    (s.multiplying = false ∧ s.isHalted = false) ∧
      (s.sequencer.Unarmed ∧ s.sequencer.haltPending = false) ∧
      (s.tokenMask = true ∧ s.axiMask = true ∧ s.xyShuffle = false ∧ s.shuffle = params.shuffle) ∧
      s.program = Array.replicate params.opcodes 0 ∧
      (s.trng.bypass = none ∧ s.trng.config = 0 ∧ s.trng.postproc = false ∧
        s.trng.rawReadable = true) ∧
      (∀ size offset, debugBase ≤ offset →
        (∃ fault, s.read size offset = (.error fault, s)) ∨ s.read size offset = (.ok 0, s)) ∧
      (∀ size offset value, debugBase ≤ offset → (s.write size offset value).2 = s) := by
  intro s
  have h : s.Locked params entropy := State.locked_serveAll hproduction requests
  have hmodes : s.trng.modes = (Trng.powerUp entropy params.rawSize).modes :=
    congrArg DebugBank.trng h.bank
  refine ⟨⟨h.resting, ?_⟩, ⟨?_, ?_⟩,
    ⟨congrArg DebugBank.tokenMask h.bank, congrArg DebugBank.axiMask h.bank,
      congrArg DebugBank.xyShuffle h.bank, congrArg DebugBank.shuffle h.bank⟩,
    congrArg DebugBank.program h.bank,
    ⟨congrArg Trng.bypass hmodes, congrArg Trng.config hmodes, congrArg Trng.postproc hmodes,
      congrArg Trng.rawReadable hmodes⟩,
    fun size offset hoffset => ?_, fun size offset value hoffset => h.write_debugBank size hoffset value⟩
  · rw [State.isHalted, h.sequencer]
    rfl
  · rw [h.sequencer]
    rfl
  · rw [h.sequencer]
    rfl
  · exact (h.read_debugBank size hoffset).imp_left fun hfault => ⟨_, hfault⟩

/-- Traffic that would open up a debug engine and leave a multiplication halted on it. -/
def tampering : List Request := [
  .write .word Sink.trngControl.offset (TrngControl.bypass.put true 0).toUInt64,
  .write .word Sink.tokenMask.offset 0,
  .write .word Sink.shuffle.offset 0,
  .read .word Source.rawFifoStatus.offset,
  .write .doubleWord Sink.halt.offset (State.onBus .doubleWord 1),
  .write .word Sink.control.offset (Command.operate .multiply).word.toUInt64]

theorem production_lock_tampering :
    let s := (State.powerUp { debug := false } fun _ => 7).serveAll tampering
    s.multiplying = false ∧ s.isHalted = false ∧ s.trng.bypass = none ∧ s.tokenMask = true ∧
      s.shuffle = true ∧
      ((∃ fault, s.read .word Source.debugStatus.offset = (.error fault, s)) ∨
        s.read .word Source.debugStatus.offset = (.ok 0, s)) := by
  obtain ⟨⟨hresting, hhalted⟩, -, ⟨htoken, -, -, hshuffle⟩, -, ⟨hbypass, -⟩, hread, -⟩ :=
    production_lock { debug := false } (fun _ => 7) tampering rfl
  exact ⟨hresting, hhalted, hbypass, htoken, hshuffle, hread .word _ (by decide)⟩

end CurveEngine.Device
