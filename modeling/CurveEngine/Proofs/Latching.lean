import CurveEngine.Proofs.Discipline

/-! What single accesses put into the error latch.

Most registers leave the latch alone, and a running multiplication does as well
(`footing_writeSink`). What a driver writes on behalf of a call can be refused for one reason at
most, which depends on the call (`Call.refusal?`); `Pending` is said of an engine in whose
latch there is nothing but that, and `Clear` of one whose latch is empty. A settled write of a
call leads from the one to the other (`settles_pending`). -/
namespace CurveEngine
open Register Procedure Device

namespace Device.State

/-- The latch, and what the engine was built with. -/
def footing (s : State) : UInt32 × Parameters := (s.errors, s.params)

/-! ### Running a multiplication -/

theorem footing_step (s : State) (word : UInt32) : (s.step word).footing = s.footing :=
  step_keeps (P := fun t => t.footing = s.footing) word fun _ _ _ _ _ _ _ _ => rfl

theorem footing_effectiveScalar (s : State) : s.effectiveScalar.2.footing = s.footing := by
  unfold State.effectiveScalar
  split
  · rfl
  · split
    · rfl
    · rfl

/-- A multiplication is refused, or it starts and latches nothing. -/
theorem startMultiplication_cases (s : State) :
    s.startMultiplication = s.latch .inputNotOnCurve ∨ s.startMultiplication.footing = s.footing := by
  unfold State.startMultiplication
  dsimp only
  split
  · exact .inl rfl
  · right
    obtain ⟨trng, hdraws⟩ := s.effectiveScalar.2.drawRandoms_snd s.effectiveScalar.1.alpha
    refine proceed_keeps (P := fun t => t.footing = s.footing) _ fun _ _ _ _ _ _ _ _ => ?_
    rw [hdraws]
    exact s.footing_effectiveScalar

/-! ### Registers -/

theorem footing_operate (s : State) (word : UInt32) : (s.operate word).footing = s.footing :=
  operate_keeps (P := fun t => t.footing = s.footing) (fun _ _ _ _ => rfl) word

theorem shuffle_capabilitiesWord (s : State) :
    Capabilities.shuffle.test s.capabilitiesWord = s.params.shuffle := by
  simp (disch := decide) only [capabilitiesWord, BitField.test_set_of_apart,
    BitField.test_put_of_apart, BitField.test_put]

/-- Any read but that of a data word leaves the latch alone, and the engine running or at rest
as it is. -/
theorem footing_readSource {r : Source} (h : r ≠ .readData) (s : State) :
    ((s.readSource r).2.footing, (s.readSource r).2.multiplying) = (s.footing, s.multiplying) := by
  cases r with
  | readData => exact absurd rfl h
  | _ => rfl

end Device.State

/-- Registers whose writes may change the latch. -/
def Register.Sink.latching : List Sink :=
  [.control, .writeData, .primeSize, .blinding, .shuffle, .errorAck, .softReset]

theorem Register.Sink.not_latching_of_isFree {r : Sink} (h : r.isFree = true)
    (hreset : r ≠ .softReset) : r ∉ Sink.latching := by
  revert h hreset
  cases r <;> decide

namespace Device.State

theorem footing_writeSink {r : Sink} (h : r ∉ Sink.latching) (value : UInt64) (s : State) :
    (s.writeSink r value).footing = s.footing := by
  have hdebug (t : State) (ht : t.footing = s.footing) :=
    debug_keeps (P := fun u => u.footing = s.footing) rfl ht
  cases r with
  | control | writeData | primeSize | blinding | shuffle | errorAck | softReset =>
    exact absurd h (by decide)
  | r0Null | r1Null | zremask | token | irq | smallScalar => rfl
  | steps => exact hdebug _ (s.footing_step _)
  | halt =>
    exact hdebug _ (writeDebug_halt_keeps (P := fun u => u.footing = s.footing) (fun _ => rfl) _)
  | _ => exact hdebug _ rfl

/-- An engine at rest stays at rest, unless it is sent a command. -/
theorem resting_writeSink {r : Sink} (h : r ≠ .control) (value : UInt64) {s : State}
    (hs : s.Coherent) (hresting : s.multiplying = false) :
    (s.writeSink r value).multiplying = false := by
  by_cases hsteps : r = .steps
  · subst hsteps
    have hhalted := hs.not_halted hresting
    show (if s.params.debug then s.step _ else s).multiplying = false
    simp only [State.step, hhalted, Bool.not_false, if_true, ite_self, hresting]
  · exact Driver.upholds_resting.write r value s (Driver.startsNothing_of_ne hsteps h _) hresting

end Device.State

/-! ### Calls -/

/-- The reason for which an engine may refuse what a call asks for. -/
def Call.refusal? (params : Parameters) : Call → Option HardwareError
  | .setSize _ | .setCurve .. => some .sizeRefused
  | .multiply .. | .multiplyTraced .. => some .inputNotOnCurve
  | .disableShuffling => if params.debug then none else some .shuffle
  | _ => none

namespace Driver
variable {params : Parameters} {refusal : Option HardwareError} {s t : State}

/-- What the latch may hold while the engine may refuse something. -/
def Latches (refusal : Option HardwareError) (errors : UInt32) : Prop :=
  errors = 0 ∨ ∃ e, refusal = some e ∧ errors = e.mask

/-- An engine that has latched nothing. -/
structure Clear (params : Parameters) (s : State) : Prop where
  coherent : s.Coherent
  params : s.params = params
  errors : s.errors = 0

/-- An engine that has latched nothing, or has refused something and is at rest. -/
structure Pending (params : Parameters) (refusal : Option HardwareError) (s : State) : Prop where
  coherent : s.Coherent
  params : s.params = params
  latch : s.errors = 0 ∨ s.multiplying = false ∧ ∃ e, refusal = some e ∧ s.errors = e.mask

theorem Clear.frame (h : Clear params s) (ht : t.Coherent) (same : t.footing = s.footing) :
    Clear params t := by
  obtain ⟨herrors, hparams⟩ := Prod.mk.inj same
  exact ⟨ht, hparams.trans h.params, herrors.trans h.errors⟩

theorem Clear.alike (h : Clear params s) (ht : t.Coherent) (halike : t.Alike s) : Clear params t :=
  h.frame ht (halike.field State.footing fun _ => rfl)

theorem Clear.latches (h : Clear params s) : Latches refusal s.errors := .inl h.errors

theorem Clear.pending (h : Clear params s) : Pending params refusal s :=
  ⟨h.coherent, h.params, .inl h.errors⟩

theorem Pending.latches (h : Pending params refusal s) : Latches refusal s.errors :=
  h.latch.imp id And.right

theorem Pending.frame (h : Pending params refusal s) (ht : t.Coherent)
    (same : t.footing = s.footing) (hresting : s.multiplying = false → t.multiplying = false) :
    Pending params refusal t := by
  obtain ⟨herrors, hparams⟩ := Prod.mk.inj same
  refine ⟨ht, hparams.trans h.params, ?_⟩
  rw [herrors]
  exact h.latch.imp id fun ⟨hrest, hlatch⟩ => ⟨hresting hrest, hlatch⟩

/-- An engine that refuses something has latched just that. -/
theorem Clear.refused (h : Clear params s) (hresting : s.multiplying = false) {e : HardwareError}
    (he : refusal = some e) (ht : t.Coherent) (hparams : t.params = s.params)
    (herrors : t.errors = s.errors ||| e.mask) (hrest : t.multiplying = s.multiplying) :
    Pending params refusal t := by
  refine ⟨ht, hparams.trans h.params, .inr ⟨hrest.trans hresting, e, he, ?_⟩⟩
  rw [herrors, h.errors]
  exact UInt32.zero_or

/-! ### Writes of a call -/

theorem multiply_test (operation : PointOperation) :
    Control.multiply.test (Command.operate operation).word = decide (operation = .multiply) := by
  cases operation <;> decide

/-- A command is carried out, or it is a multiplication and refused. -/
theorem Clear.operate (h : Clear params s) (hresting : s.multiplying = false)
    {operation : PointOperation}
    (hrefusal : operation = .multiply → refusal = some .inputNotOnCurve) :
    Pending params refusal
      (s.writeSink .control (Command.operate operation).word.toUInt64) := by
  have hcoherent := h.coherent.writeSink .control (Command.operate operation).word.toUInt64
  by_cases hmultiply : operation = .multiply
  · subst hmultiply
    rw [writeSink_multiply hresting] at hcoherent ⊢
    rcases s.begun.startMultiplication_cases with hrefused | hstarted
    · rw [hrefused] at hcoherent ⊢
      exact h.refused hresting (hrefusal rfl) hcoherent rfl rfl rfl
    · exact (h.frame hcoherent hstarted).pending
  · refine (h.frame hcoherent ?_).pending
    show (s.control (UInt64.toUInt32 _)).footing = _
    obtain ⟨hwrite, hread⟩ := not_or.mp (not_opensTransfer operation)
    rw [UInt32.toUInt32_toUInt64, State.control, hresting]
    simp only [ControlField.agrees, Bool.false_eq_true, if_false, hwrite, hread, multiply_test,
      hmultiply, decide_false]
    exact State.footing_operate _ _

/-- What a call settles is carried out, or refused for the reason of the call. Two calls see to it
beforehand that theirs is carried out; they are not among these. -/
theorem Clear.settles (h : Clear params s) (hresting : s.multiplying = false) {call : Call}
    {r : Sink} {word : UInt32} (hsettles : call.Settles word r) (hblinds : call.blinds = false)
    (hshuffles : call ≠ .enableShuffling) :
    Pending params (call.refusal? params) (s.writeSink r word.toUInt64) := by
  have hcoherent := h.coherent.writeSink r word.toUInt64
  have hword : word.toUInt64.toUInt32 = word := UInt32.toUInt32_toUInt64 _
  have hplain (hr : r ∉ Sink.latching) : Pending params (call.refusal? params)
      (s.writeSink r word.toUInt64) :=
    (h.frame hcoherent (State.footing_writeSink hr _ _)).pending
  cases r with
  | control =>
    obtain ⟨huntraced, operation, hoperation, rfl⟩ := hsettles
    refine h.operate hresting fun hmultiply => ?_
    subst hmultiply
    cases call <;> first | rfl | cases hoperation
  | primeSize =>
    have hrefusal : call.refusal? params = some .sizeRefused := by
      cases call <;> first | rfl | cases hsettles
    have hsize : (s.setSize (word &&& 0xffff).toNat).occupy = s.writeSink .primeSize word.toUInt64 := by
      simp only [State.writeSink, hword]
    rw [← hsize] at hcoherent ⊢
    unfold State.setSize at hcoherent ⊢
    split at hcoherent
    · rename_i hsize
      rw [if_pos hsize]
      exact h.refused hresting hrefusal hcoherent rfl rfl rfl
    · rename_i hsize
      rw [if_neg hsize]
      exact (h.frame hcoherent rfl).pending
  | blinding =>
    obtain rfl := hsettles.resolve_right (by simp [hblinds])
    exact (h.frame hcoherent rfl).pending
  | shuffle =>
    obtain ⟨rfl, rfl⟩ := hsettles.resolve_left fun h => hshuffles h.1
    have hshuffle : (s.setShuffle false).occupy = s.writeSink .shuffle (0 : UInt32).toUInt64 := rfl
    rw [← hshuffle] at hcoherent ⊢
    cases hdebug : s.params.debug with
    | true =>
      refine (h.frame hcoherent ?_).pending
      simp only [State.setShuffle, hdebug]
      rfl
    | false =>
      have hrefusal : Call.refusal? params .disableShuffling = some .shuffle := by
        rw [← h.params, Call.refusal?, hdebug]
        rfl
      simp only [State.setShuffle, hdebug, Bool.not_false, Bool.and_true, Bool.or_true,
        if_true] at hcoherent ⊢
      exact h.refused hresting hrefusal hcoherent rfl rfl rfl
  | r0Null | r1Null | zremask | token | irq | smallScalar | xyShuffle | axiMask | tokenMask =>
    exact hplain (by decide)
  | _ => exact hsettles.elim

end Driver

end CurveEngine
