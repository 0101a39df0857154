import CurveEngine.Proofs.Latching
import CurveEngine.Proofs.Passing
import CurveEngine.Proofs.Refinement
import CurveEngine.Proofs.Sessions

/-! A driver provokes no error of the protocol, and leaves none behind.

On an engine whose latch is empty, whatever a call passes through, the latch holds nothing but
what the engine may refuse the call for, and it is empty again when the call ends
(`perform_passes`). A transfer keeps to its direction, so no data word is refused; a scalar waits
for randomness; and no command is sent to an engine that multiplies. After an engine has been
brought into service its latch is therefore empty between any two calls, and what a call fails
with has been latched by its own writes (`session_latch`). -/
namespace CurveEngine
open Register Procedure Device

namespace Driver
variable {α β : Type} {d : Driver} {params : Parameters} {refusal : Option HardwareError}
  {s t : State}

/-! ### Settling -/

theorem Pending.alike (h : Pending params refusal s) (ht : t.Coherent) (halike : t.Alike s) :
    Pending params refusal t :=
  h.frame ht (halike.field State.footing fun _ => rfl)
    ((halike.field State.multiplying fun _ => rfl).trans ·)

theorem passes_report {P : UInt32 → Prop} (hs : P s.errors) (latched : UInt32) :
    Passes P (fun _ => none) (fun x t => ∃ a, x = .ok a ∧ t = s) (report latched).run s := by
  have hnotify (notice : Notice) : Passes P (fun _ => none) (fun x t => ∃ a, x = .ok a ∧ t = s)
      (liftM (notify notice) : Operation Unit).run s :=
    (Passes.notify (Q := fun _ t => t = s) hs rfl).lift fun a t ht =>
      Passes.pure (ht ▸ hs) ⟨a, rfl, ht⟩ fun _ h => nomatch h
  have hall (errors : List HardwareError) : Passes P (fun _ => none)
      (fun x t => ∃ a, x = .ok a ∧ t = s)
      (errors.forM fun error => (liftM (notify (.latched error)) : Operation Unit)).run s := by
    induction errors with
    | nil => exact Passes.pure hs ⟨(), rfl, rfl⟩ fun _ h => nomatch h
    | cons error rest ih => exact (hnotify _).returning fun _ t ht => ht ▸ ih
  refine (hall _).returning fun _ t ht => ?_
  subst ht
  split
  · exact Passes.pure hs ⟨(), rfl, rfl⟩ fun _ h => nomatch h
  · exact hnotify _

/-- Acknowledging the only error there is clears the latch. -/
theorem acknowledge_mask (e : HardwareError) :
    e.mask &&& ~~~(Latch.ofAckWord (Latch.ackWord e.mask)) = 0 := by
  cases e <;> decide

theorem passes_checkErrors (hs : Pending params refusal s) :
    Passes (Latches refusal) failureOf (fun x t => Clear params t ∧ (x = .ok () → t.Alike s))
      d.checkErrors.run s := by
  refine (Passes.status hs.latches ⟨rfl, rfl⟩ (Q := fun word t => word = s.readStatus.1 ∧
    t = s.readStatus.2)).lift ?_
  rintro _ _ ⟨rfl, rfl⟩
  have hlatches : Latches refusal s.readStatus.2.errors := hs.latches
  dsimp only
  rw [State.errors_readStatus s hs.coherent]
  split
  · rename_i hclear
    exact Passes.pure hlatches
      ⟨⟨hs.coherent.readStatus, hs.params, hclear⟩, fun _ => s.settled_readStatus⟩ fun _ h => nomatch h
  · rename_i hlatched
    obtain ⟨e, -, herrors⟩ := hs.latches.resolve_left hlatched
    let acknowledged := s.readStatus.2.writeSink .errorAck (Latch.ackWord s.errors).toUInt64
    have hempty : acknowledged.errors = 0 := by
      show s.errors &&& ~~~(Latch.ofAckWord (UInt64.toUInt32 _)) = 0
      rw [UInt32.toUInt32_toUInt64, herrors]
      exact acknowledge_mask e
    have hclear : Clear params acknowledged :=
      ⟨hs.coherent.readStatus.writeSink _ _, hs.params, hempty⟩
    have hquiet : Passes (Latches refusal) (fun _ => none)
        (fun x t => Clear params t ∧ x = .error (.hardware s.errors))
        (do report s.errors; d.write .errorAck (Latch.ackWord s.errors); throw (.hardware s.errors) :
          Operation Unit).run s.readStatus.2 := by
      refine (passes_report hlatches _).returning fun _ t ht => ?_
      subst ht
      exact (Passes.write hlatches hclear.latches hclear).lift fun _ t ht =>
        Passes.pure ht.latches ⟨ht, rfl⟩ fun _ h => nomatch h
    refine (hquiet.raising fun x t bits hx hbits => ?_).mono fun x t hx => ⟨hx.1, fun h => ?_⟩
    · obtain ⟨-, rfl⟩ := hx
      cases hbits
      exact ⟨hlatched, rfl⟩
    · cases hx.2.symm.trans h

/-! ### Open transfers -/

/-- A transfer to the engine is open. -/
def Sending (s : State) : Prop := ∃ destination index, s.transfer = some (.write destination index)

/-- A transfer from the engine is open. -/
def Fetching (s : State) : Prop := ∃ value index, s.transfer = some (.read value index)

theorem Sending.alike (halike : t.Alike s) (h : Sending s) : Sending t := by
  rwa [Sending, halike.field State.transfer fun _ => rfl]

theorem Fetching.alike (halike : t.Alike s) (h : Fetching s) : Fetching t := by
  rwa [Fetching, halike.field State.transfer fun _ => rfl]

/-- A word is taken by a transfer to the engine. -/
theorem Sending.writeData (h : Sending s) (value : UInt64) :
    (s.writeData value).footing = s.footing ∧ Sending (s.writeData value) := by
  obtain ⟨destination, index, h⟩ := h
  unfold State.writeData
  rw [h]
  cases destination with
  | number n => exact ⟨rfl, .number n, index + 1, rfl⟩
  | scalar => exact ⟨rfl, .scalar, index + 1, rfl⟩

/-- A word is given by a transfer from the engine. -/
theorem Fetching.readData (h : Fetching s) :
    s.readData.2.footing = s.footing ∧ Fetching s.readData.2 := by
  obtain ⟨value, index, h⟩ := h
  unfold State.readData
  rw [h]
  exact ⟨rfl, value, index + 1, rfl⟩

/-- Registers that may be written at any time are not refused. -/
theorem Pending.free (h : Pending params refusal s) {r : Sink} (hr : r.isFree = true)
    (value : UInt64) : Pending params refusal (s.writeSink r value) := by
  have hcoherent := h.coherent.writeSink r value
  by_cases hreset : r = .softReset
  · subst hreset
    exact ⟨hcoherent, h.params, .inl rfl⟩
  · exact h.frame hcoherent (State.footing_writeSink (Sink.not_latching_of_isFree hr hreset) _ _)
      (State.resting_writeSink (Sink.ne_control_of_isFree hr) value h.coherent)

theorem Clear.free (h : Clear params s) {r : Sink} (hr : r.isFree = true) (value : UInt64) :
    Clear params (s.writeSink r value) := by
  have hpending : Pending params none s := h.pending
  have hwritten := hpending.free hr value
  exact ⟨hwritten.coherent, hwritten.params, hwritten.latch.resolve_right fun ⟨_, _, he, _⟩ =>
    nomatch he⟩

/-- A command that opens a transfer is not refused. -/
theorem Clear.opens {K : State → Prop} (hK : ∀ v w : State, w.Alike v → K v → K w)
    (h : Clear params s) {r : Sink} {value : UInt64} (hwritten : (s.writeSink r value).Alike t)
    (hfooting : t.footing = s.footing) (ht : K t) :
    Pending params refusal (s.writeSink r value) ∧ K (s.writeSink r value) :=
  ⟨(h.frame (h.coherent.writeSink r value)
    ((hwritten.field State.footing fun _ => rfl).trans hfooting)).pending, hK t _ hwritten ht⟩

/-! ### Steps that find nothing -/

theorem passes_waitIdle (hs : Clear params s) :
    Passes (Latches refusal) failureOf (fun _ t => Clear params t) d.waitIdle.run s :=
  (Passes.waitIdle hs.latches hs.coherent).mono fun _ _ ht => hs.alike ht.2.1 ht.1

/-- The scalar waits for randomness. -/
theorem passes_waitEnoughRandom (hs : Clear params s) :
    Passes (Latches refusal) failureOf (fun x t => Clear params t ∧ (x = .ok () → t.warmup = 0))
      d.waitEnoughRandom.run s := by
  refine Passes.pollUntil (fun u hu => hu.latches) (fun u hu => ?_) hs
  refine (Passes.status hu.latches ⟨rfl, rfl⟩ (Q := fun word v => word = u.readStatus.1 ∧
    v = u.readStatus.2)).andThen ?_
  rintro _ _ ⟨rfl, rfl⟩
  have hread : Clear params u.readStatus.2 := hu.alike hu.coherent.readStatus u.settled_readStatus
  refine Passes.pure hread.latches ⟨hread, fun henough => ?_⟩ fun _ h => nomatch h
  rw [State.enoughRandom_readStatus, beq_iff_eq] at henough
  show u.warmup - 1 = 0
  rw [henough]

/-- A write to the random number generator leaves the latch alone. -/
theorem passes_entropy {r : Sink} (hr : r = .trngControl ∨ r = .trngConfig) (word : UInt32)
    (hs : Clear params s) :
    Passes (Latches refusal) failureOf (fun _ t => Clear params t)
      (do d.waitIdle; d.write r word; d.waitIdle : Operation Unit).run s := by
  have hlatching : r ∉ Sink.latching := by
    rcases hr with rfl | rfl
    · decide
    · decide
  refine (passes_waitIdle hs).operation (fun _ t ht => ?_) fun _ _ ht => ⟨ht.latches, ht⟩
  have hwritten := ht.frame (ht.coherent.writeSink r word.toUInt64)
    (State.footing_writeSink hlatching _ _)
  exact (Passes.write (Q := fun _ u => Clear params u) ht.latches hwritten.latches hwritten).lift
    fun _ u hu => passes_waitIdle hu

theorem passes_capabilities {P : UInt32 → Prop} (hs : P s.errors) :
    Passes P (fun _ => none) (fun word t => word = s.capabilitiesWord ∧ t = s) d.capabilities s :=
  Passes.read hs hs ⟨UInt32.toUInt32_toUInt64 _, rfl⟩

theorem passes_ensureDebug (hs : Pending params refusal s) (hdebug : params.debug = true) :
    Passes (Latches refusal) failureOf (fun x t => x = .ok () ∧ Pending params refusal t)
      d.ensureDebug.run s := by
  have hbit : Passes (Latches refusal) (fun _ => none) (fun b t => b = true ∧ t = s) d.isDebug s := by
    refine (passes_capabilities hs.latches).andThen ?_
    rintro _ _ ⟨rfl, rfl⟩
    refine Passes.pure hs.latches ⟨?_, rfl⟩ fun _ h => nomatch h
    rw [State.debug_capabilitiesWord, hs.params, hdebug]
  refine hbit.lift ?_
  rintro _ _ ⟨rfl, rfl⟩
  exact Passes.pure hs.latches ⟨rfl, hs⟩ fun _ h => nomatch h

theorem passes_writeDebug (hs : Pending params refusal s) (hdebug : params.debug = true) {r : Sink}
    (hr : r.isFree = true) (word : UInt32) :
    Passes (Latches refusal) failureOf (fun x t => x = .ok () ∧ Pending params refusal t)
      (d.writeDebug r word).run s := by
  refine (passes_ensureDebug hs hdebug).operation (fun _ t ht => ?_) fun _ _ ht => nomatch ht.1
  have hwritten := ht.2.free hr word.toUInt64
  exact (Passes.write (Q := fun _ u => Pending params refusal u) ht.2.latches hwritten.latches
    hwritten).lifted fun _ u hu => ⟨hu.latches, rfl, hu⟩

/-! ### Before and after a step -/

/-- What is known of an engine before and after a step. -/
def Regular (params : Parameters) (refusal : Option HardwareError) : Scope → State → Prop
  | .calling call, s => call.blinds = false ∧ call ≠ .enableShuffling ∧
      refusal = call.refusal? params ∧ Clear params s
  | .following, s => Pending params refusal s
  | .transferring, _ => False

theorem Regular.pending {scope : Scope} (h : Regular params refusal scope s) :
    Pending params refusal s := by
  cases scope with
  | calling call => exact h.2.2.2.pending
  | following => exact h
  | transferring => exact h.elim

theorem Regular.frame {scope : Scope} (h : Regular params refusal scope s) (ht : t.Coherent)
    (same : (t.footing, t.multiplying) = (s.footing, s.multiplying)) :
    Regular params refusal scope t := by
  obtain ⟨hfooting, hmultiplying⟩ := Prod.mk.inj same
  cases scope with
  | calling call => exact ⟨h.1, h.2.1, h.2.2.1, h.2.2.2.frame ht hfooting⟩
  | following => exact Pending.frame h ht hfooting (hmultiplying.trans ·)
  | transferring => exact h.elim

theorem Regular.free {scope : Scope} (h : Regular params refusal scope s) {r : Sink}
    (hr : r.isFree = true) (value : UInt64) : Regular params refusal scope (s.writeSink r value) := by
  cases scope with
  | calling call => exact ⟨h.1, h.2.1, h.2.2.1, h.2.2.2.free hr value⟩
  | following => exact Pending.free h hr value
  | transferring => exact h.elim

theorem passes_status {scope : Scope} (hs : Regular params refusal scope s) :
    Passes (Latches refusal) (fun _ => none) (fun _ t => Regular params refusal scope t) d.status s :=
  Passes.status hs.pending.latches (hs.frame hs.pending.coherent.readStatus rfl)

/-! ### Steps that are waited for -/

section Patient
variable (hpatient : max params.latency 3 < d.checks)
include hpatient

/-- Settling finds what an engine has refused. -/
theorem passes_settle (hs : Pending params refusal s) :
    Passes (Latches refusal) failureOf (fun x t => Clear params t ∧ (x = .ok () → t.Alike s))
      d.settle.run s := by
  refine (Passes.waitIdle hs.latches hs.coherent).operation (fun _ t ht => ?_) fun e t ht => ?_
  · obtain ⟨halike, hcoherent, -⟩ := ht
    exact (passes_checkErrors (hs.alike hcoherent halike)).mono
      fun x u hu => ⟨hu.1, fun h => (hu.2 h).trans halike⟩
  · obtain ⟨halike, hcoherent, -, -, hreturns⟩ := ht
    have hlatch : s.errors = 0 := by
      refine hs.latch.resolve_right fun ⟨hresting, _⟩ => ?_
      cases hreturns ⟨hs.coherent, hresting, hs.params ▸ hpatient⟩
    have hclear := (Clear.mk hs.coherent hs.params hlatch).alike hcoherent halike
    exact ⟨hclear.latches, hclear, fun h => nomatch h⟩

/-- An access to an idle engine that may be refused, but leaves behind what it should. -/
theorem passes_enclosed {access : Procedure α} {K : State → Prop}
    (hK : ∀ v w : State, w.Alike v → K v → K w) (hs : Clear params s)
    (haccess : ∀ u : State, u.Alike s → u.Coherent → u.warmup ≤ s.warmup → u.multiplying = false →
      Passes (Latches refusal) (fun _ => none) (fun _ t => Pending params refusal t ∧ K t) access u) :
    Passes (Latches refusal) failureOf (fun x t => Clear params t ∧ ∀ a, x = .ok a → K t)
      (d.enclosed access).run s := by
  refine (Passes.waitIdle hs.latches hs.coherent).operation (fun _ u hu => ?_) fun e u hu => ?_
  · obtain ⟨halike, hcoherent, hwarmup, hresting, -⟩ := hu
    refine (haccess u halike hcoherent hwarmup (hresting rfl)).lift fun a v hv => ?_
    refine (passes_settle hpatient hv.1).operation (fun _ w hw => ?_) fun e w hw => ?_
    · exact Passes.pure hw.1.latches ⟨hw.1, fun _ _ => hK v w (hw.2 rfl) hv.2⟩ fun _ h => nomatch h
    · exact ⟨hw.1.latches, hw.1, fun _ h => nomatch h⟩
  · have hclear := hs.alike hu.2.1 hu.1
    exact ⟨hclear.latches, hclear, fun _ h => nomatch h⟩

theorem passes_writeSettled {r : Sink} {word : UInt32} {K : State → Prop}
    (hK : ∀ v w : State, w.Alike v → K v → K w) (hs : Clear params s)
    (hwrite : ∀ u : State, Clear params u → u.Alike s → u.warmup ≤ s.warmup → u.multiplying = false →
      Pending params refusal (u.writeSink r word.toUInt64) ∧ K (u.writeSink r word.toUInt64)) :
    Passes (Latches refusal) failureOf (fun x t => Clear params t ∧ ∀ a, x = .ok a → K t)
      (d.writeSettled r word).run s := by
  rw [← enclosed_write]
  refine passes_enclosed hpatient hK hs fun u halike hcoherent hwarmup hresting => ?_
  have hu := hs.alike hcoherent halike
  have hwritten := hwrite u hu halike hwarmup hresting
  exact Passes.write hu.latches hwritten.1.latches hwritten

/-- A settled write after which nothing more is asked of the engine. -/
theorem passes_settled {r : Sink} {word : UInt32} (hs : Clear params s)
    (hwrite : ∀ u : State, Clear params u → u.Alike s → u.multiplying = false →
      Pending params refusal (u.writeSink r word.toUInt64)) :
    Passes (Latches refusal) failureOf (fun _ t => Clear params t) (d.writeSettled r word).run s :=
  (passes_writeSettled hpatient (K := fun _ => True) (fun _ _ _ => id) hs
    fun u hu halike _ hresting => ⟨hwrite u hu halike hresting, trivial⟩).mono fun _ _ ht => ht.1

/-! ### Transfers -/

theorem passes_sendWord (hs : Clear params s) (hsending : Sending s) (word : UInt64) :
    Passes (Latches refusal) failureOf (fun x t => Clear params t ∧ ∀ a, x = .ok a → Sending t)
      (d.sendWord word).run s := by
  rw [← enclosed_send]
  refine passes_enclosed hpatient (fun _ _ => Sending.alike) hs fun u halike hcoherent _ _ => ?_
  have hu := hs.alike hcoherent halike
  obtain ⟨hfooting, hword⟩ := (hsending.alike halike).writeData (d.cut word)
  have hwritten : Clear params (u.writeData (d.cut word)) :=
    hu.frame (hcoherent.writeData _) hfooting
  exact Passes.writeWord hu.latches hwritten.latches ⟨hwritten.pending, hword⟩

theorem passes_sendWords (words : List UInt64) (hs : Clear params s) (hsending : Sending s) :
    Passes (Latches refusal) failureOf (fun _ t => Clear params t) (words.forM d.sendWord).run s := by
  induction words generalizing s with
  | nil => exact Passes.pure hs.latches hs fun _ h => nomatch h
  | cons word rest ih =>
    exact (passes_sendWord hpatient hs hsending word).operation
      (fun _ t ht => ih ht.1 (ht.2 _ rfl)) fun _ _ ht => ⟨ht.1.latches, ht.1⟩

theorem passes_openWrite (hs : Clear params s) (destination : Destination) :
    Passes (Latches refusal) failureOf (fun x t => Clear params t ∧ ∀ a, x = .ok a → Sending t)
      (d.openWrite destination).run s := by
  cases destination with
  | number n =>
    refine passes_writeSettled hpatient (fun _ _ => Sending.alike) hs fun u hu _ _ hresting => ?_
    exact hu.opens (fun _ _ => Sending.alike) (writeSink_writeNumber (.refl u) hresting n) rfl
      ⟨_, _, rfl⟩
  | scalar =>
    refine (passes_waitEnoughRandom hs).operation (fun _ t ht => ?_) fun _ t ht =>
      ⟨ht.1.latches, ht.1, fun _ h => nomatch h⟩
    have hready : t.warmup = 0 := ht.2 rfl
    refine passes_writeSettled hpatient (fun _ _ => Sending.alike) ht.1
      fun u hu _ hwarmup hresting => ?_
    exact hu.opens (fun _ _ => Sending.alike)
      (writeSink_writeScalar (.refl u) hresting (by omega)) rfl ⟨_, _, rfl⟩

theorem passes_transmit (hs : Clear params s) (destination : Destination) (words : List UInt64) :
    Passes (Latches refusal) failureOf (fun _ t => Clear params t)
      (do d.openWrite destination; words.forM d.sendWord : Operation Unit).run s :=
  (passes_openWrite hpatient hs destination).operation
    (fun _ _ ht => passes_sendWords hpatient words ht.1 (ht.2 _ rfl)) fun _ _ ht =>
      ⟨ht.1.latches, ht.1⟩

theorem passes_receiveWords (count : Nat) (received : List UInt64) (hs : Clear params s)
    (hfetching : Fetching s) :
    Passes (Latches refusal) (fun x => failureOf x.1) (fun _ t => Clear params t)
      ((d.receiveWords count).on received) s := by
  induction count generalizing s received with
  | zero => exact Passes.pure hs.latches hs fun _ h => nomatch h
  | succ count ih =>
    have hword : Passes (Latches refusal) failureOf
        (fun x t => Clear params t ∧ ∀ a, x = .ok a → Fetching t) d.receiveWord.run s := by
      show Passes _ _ _ (d.enclosed (d.readWord .readData)).run s
      refine passes_enclosed hpatient (fun _ _ => Fetching.alike) hs fun u halike hcoherent _ _ => ?_
      have hu := hs.alike hcoherent halike
      obtain ⟨hfooting, hword⟩ := (hfetching.alike halike).readData
      have hread : Clear params u.readData.2 := hu.frame hcoherent.readData hfooting
      exact Passes.readWord hu.latches hread.latches ⟨hread.pending, hword⟩
    exact hword.recording (fun _ t ht => ih _ ht.1 (ht.2 _ rfl)) fun _ _ ht => ⟨ht.1.latches, ht.1⟩

theorem passes_receive {command : Command} (h : Fetches command) (count : Nat)
    (received : List UInt64) (hs : Clear params s) :
    Passes (Latches refusal) (fun x => failureOf x.1) (fun _ t => Clear params t)
      ((do d.writeSettled .control command.word; d.receiveWords count :
        Recording (List UInt64) Unit).on received) s := by
  have hopen : Passes (Latches refusal) failureOf
      (fun x t => Clear params t ∧ ∀ a, x = .ok a → Fetching t)
      (d.writeSettled .control command.word).run s := by
    refine passes_writeSettled hpatient (fun _ _ => Fetching.alike) hs fun u hu _ _ hresting => ?_
    cases h with
    | number n =>
      exact hu.opens (fun _ _ => Fetching.alike) (opens_number n u (.refl u) hresting) rfl ⟨_, _, rfl⟩
    | token =>
      exact hu.opens (fun _ _ => Fetching.alike) (opens_token u (.refl u) hresting) rfl ⟨_, _, rfl⟩
  exact hopen.recording (fun _ t ht => passes_receiveWords hpatient count received ht.1 (ht.2 _ rfl))
    fun _ _ ht => ⟨ht.1.latches, ht.1⟩

/-! ### Traced runs -/

/-- A debug engine is released, and settled in the end. -/
theorem passes_release (hs : Pending params refusal s) (hdebug : params.debug = true) :
    Passes (Latches refusal) failureOf (fun _ t => Clear params t) d.release.run s := by
  have hremove : Passes (Latches refusal) failureOf
      (fun x t => x = .ok () ∧ Pending params refusal t)
      (d.removeBreakpoint traceBreakpoint).run s := passes_writeDebug hs hdebug rfl _
  refine hremove.operation (fun _ t ht => ?_) fun _ _ ht => nomatch ht.1
  refine (passes_writeDebug ht.2 hdebug rfl _).operation (fun _ u hu => ?_) fun _ _ hu => nomatch hu.1
  exact (passes_settle hpatient hu.2).mono fun _ _ hv => hv.1

/-- A traced run is started, followed and released, whatever becomes of it. -/
theorem passes_startAndFollow {layout : LimbLayout} {trace : Trace}
    (hrefusal : refusal = some .inputNotOnCurve) (hdebug : params.debug = true)
    (hs : Clear params s)
    (hfollow : ∀ u, Pending params refusal u → Passes (Latches refusal) (fun x => failureOf x.1)
      (fun _ v => Pending params refusal v) ((d.followRun layout).on trace) u) :
    Passes (Latches refusal) (fun x => failureOf x.1) (fun _ t => Clear params t)
      ((d.startAndFollow layout).on trace) s := by
  refine (Passes.waitIdle hs.latches hs.coherent).recording (fun _ u hu => ?_) fun _ u hu => ?_
  · have hclear := hs.alike hu.2.1 hu.1
    have hstarted : Pending params refusal
        (u.writeSink .control (Command.operate .multiply).word.toUInt64) :=
      hclear.operate (hu.2.2.2.1 rfl) fun _ => hrefusal
    rw [Recording.on_procedure_bind]
    refine (Passes.write (Q := fun _ v => Pending params refusal v) hclear.latches hstarted.latches
      hstarted).andThen fun _ v hv => ?_
    rw [followAndRelease_on]
    -- What it has failed with on the way is thrown in the end, before a failure to release.
    refine (hfollow v hv).bind (g := fun x => match x.1 with
      | .ok _ => fun y => failureOf y.1
      | .error _ => fun _ => none) fun x w hw => ?_
    obtain ⟨ending, trace'⟩ := x
    have hrelease := passes_release hpatient hw hdebug
    cases ending with
    | ok _ =>
      refine hrelease.bind (g := fun _ _ => none) fun released y hy => ?_
      exact (Passes.notify (Q := fun _ z => Clear params z) hy.latches hy).andThen fun _ z hz =>
        Passes.pure hz.latches ⟨⟨hz, .inr rfl⟩, .inl rfl⟩ fun _ h => nomatch h
    | error e =>
      refine hrelease.bind (g := fun _ _ => none) fun released y hy => ?_
      exact (Passes.notify (Q := fun _ z => Clear params z) hy.latches hy).andThen fun _ z hz =>
        Passes.pure hz.latches ⟨⟨hz, .inl rfl⟩, .inr rfl⟩ fun _ h => nomatch h
  · have hclear := hs.alike hu.2.1 hu.1
    exact ⟨hclear.latches, hclear⟩

/-! ### The discipline -/

theorem passes_rest {call : Call} {op : Operation Unit} (h : d.Resting call op)
    (hs : Regular params refusal (.calling call) s) :
    Passes (Latches refusal) failureOf (fun _ t => Regular params refusal (.calling call) t) op.run
      s := by
  obtain ⟨hblinds, hshuffles, rfl, hclear⟩ := hs
  cases h with
  | waitIdle => exact (passes_waitIdle hclear).mono fun _ _ ht => ⟨hblinds, hshuffles, rfl, ht⟩
  | writeSettled hsettles =>
    refine (passes_settled hpatient hclear fun u hu _ hresting => ?_).mono
      fun _ _ ht => ⟨hblinds, hshuffles, rfl, ht⟩
    exact hu.settles hresting hsettles hblinds hshuffles

theorem passes_of_disciplined {scope : Scope} {failure : α → Option DriverError} {p : Procedure α}
    (h : Disciplined d scope failure p) (hs : Regular params refusal scope s) :
    Passes (Latches refusal) failure (fun _ t => Regular params refusal scope t) p s := by
  induction h generalizing refusal s with
  | done a h => exact Passes.pure hs.pending.latches hs h
  | spent => exact Passes.spent hs.pending.latches
  | notify => exact Passes.notify hs.pending.latches hs
  | @read scope r h =>
    have hread := hs.frame (hs.pending.coherent.readSource r) (State.footing_readSource h.ne_readData s)
    exact Passes.read hs.pending.latches hread.pending.latches hread
  | @write scope r word h =>
    have hwritten := hs.free h word.toUInt64
    exact Passes.write hs.pending.latches hwritten.pending.latches hwritten
  | rest h => exact passes_rest hpatient h hs
  | look h =>
    refine (passes_rest hpatient h hs).operation (fun _ t ht => ?_) fun _ t ht =>
      ⟨ht.pending.latches, ht⟩
    exact (passes_status ht).lift fun _ u hu => Passes.pure hu.pending.latches hu fun _ h => nomatch h
  | glance => exact (passes_status hs).map (fun _ t ht => ⟨ht.pending.latches, ht⟩) fun _ => rfl
  | settle => exact (passes_settle hpatient hs).mono fun _ _ ht => ht.1.pending
  | enclosed => exact hs.elim
  | transmit destination words =>
    obtain ⟨hblinds, hshuffles, rfl, hclear⟩ := hs
    exact (passes_transmit hpatient hclear destination words).mono
      fun _ _ ht => ⟨hblinds, hshuffles, rfl, ht⟩
  | receive h count received =>
    obtain ⟨hblinds, hshuffles, rfl, hclear⟩ := hs
    exact (passes_receive hpatient h count received hclear).mono
      fun _ _ ht => ⟨hblinds, hshuffles, rfl, ht⟩
  | entropy h word =>
    obtain ⟨hblinds, hshuffles, rfl, hclear⟩ := hs
    exact (passes_entropy h word hclear).mono fun _ _ ht => ⟨hblinds, hshuffles, rfl, ht⟩
  | @pursue call h address layout t _ _ _ iharm ihfollow =>
    -- `hs` is kept for the arming; the run may leave a refusal behind, which the release settles.
    obtain ⟨hblinds, hshuffles, rfl, hclear⟩ := id hs
    have hrefusal : call.refusal? params = some .inputNotOnCurve := by
      cases call <;> first | rfl | cases h
    have hdebug (x : Except DriverError Unit) (u : State)
        (harmed : Ends bus (d.setBreakpoint traceBreakpoint address 0 .idle).run s x u) :
        x = .ok () → params.debug = true := by
      rintro rfl
      exact hclear.params ▸ debug_of_returns harmed
    refine ((iharm hs).and hdebug).recording
      (fun _ u hu => ?_) fun _ u hu => ⟨hu.1.pending.latches, hu.1⟩
    exact (passes_startAndFollow hpatient hrefusal (hu.2 rfl) hu.1.2.2.2 fun v hv => ihfollow hv).mono
      fun _ _ hv => ⟨hblinds, hshuffles, rfl, hv⟩
  | bind _ _ fails ih ihf =>
    refine (ih hs).sequence (fun a t ht ha => ihf a ha ht) fun a t e ht he => ?_
    obtain ⟨b, hb, hfails⟩ := fails a e he
    exact ⟨ht.pending.latches, b, hb, hfails, ht⟩

/-! ### Calls -/

/-- A blinding size is checked against the prime size before it is written. -/
theorem passes_enableBlinding (hs : Clear params s) (bits : UInt32) :
    Passes (Latches refusal) failureOf (fun _ t => Clear params t) (d.enableBlinding bits).run s := by
  unfold enableBlinding
  split
  · exact passes_settled hpatient hs fun u hu _ _ => (hu.frame (hu.coherent.writeSink _ _) rfl).pending
  rename_i hzero
  have hsize : Disciplined d .following (fun _ => none) d.size := size_disciplined
  have hcarried : Passes (Latches refusal) (fun _ => none)
      (fun n t => Pending params refusal t ∧ n = s.size % 2 ^ 16 ∧ t = s) d.size s :=
    (passes_of_disciplined hpatient hsize hs.pending).and fun n t hend => (ends_size n t).mp hend
  refine hcarried.lift ?_
  rintro _ t ⟨-, rfl, ht⟩
  rw [ht]
  split
  · exact Passes.throw hs.latches rfl hs
  rename_i hless
  refine passes_settled hpatient hs fun u hu halike _ => ?_
  have hsame : u.size = s.size := halike.field State.size fun _ => rfl
  have hbelow : bits.toNat < u.size ∧ bits.toNat < 2 ^ 28 := by
    rw [hsame]
    have := Nat.mod_le s.size (2 ^ 16)
    omega
  have hpos : bits.toNat ≠ 0 := fun h => hzero (UInt32.toNat_inj.mp h)
  have henable : Blinding.enable.test (Blinding.bits.set bits (Blinding.enable.put true 0)) = true := by
    simp (disch := decide) only [BitField.test_set_of_apart, BitField.test_put]
  have hbits : Blinding.bits.get (Blinding.bits.set bits (Blinding.enable.put true 0)) = bits :=
    BitField.get_set_of_lt (by decide) (by decide) hbelow.2 _
  refine (hu.frame (hu.coherent.writeSink _ _) ?_).pending
  show ((u.setBlinding (UInt64.toUInt32 _)).occupy).footing = _
  simp only [UInt32.toUInt32_toUInt64, State.setBlinding, BlindingField.agrees, henable, hbits,
    Bool.not_true, Bool.false_eq_true, if_false, ge_iff_le, Nat.not_le.mpr hbelow.1, hpos]
  rfl

/-- Shuffling is turned on where the engine has it. -/
theorem passes_enableShuffling (hs : Clear params s) :
    Passes (Latches refusal) failureOf (fun _ t => Clear params t) d.enableShuffling.run s := by
  refine (passes_capabilities hs.latches).lift ?_
  rintro _ _ ⟨rfl, rfl⟩
  rw [State.shuffle_capabilitiesWord, hs.params]
  split
  · rename_i hshuffle
    refine passes_settled hpatient hs fun u hu _ _ => (hu.frame (hu.coherent.writeSink _ _) ?_).pending
    show ((u.setShuffle true).occupy).footing = _
    rw [← hu.params] at hshuffle
    simp only [State.setShuffle, hshuffle, Bool.not_true, Bool.and_false, Bool.false_and,
      Bool.or_self, Bool.false_eq_true, if_false]
    rfl
  · exact Passes.throw hs.latches rfl hs

theorem perform_passes (call : Call) (hs : Clear params s) :
    Passes (Latches (call.refusal? params)) (fun answer => failureOf answer.result)
      (fun _ t => Clear params t) (call.perform d) s := by
  have hanswer {op : Operation Unit}
      (hop : Passes (Latches (call.refusal? params)) failureOf (fun _ t => Clear params t) op.run s) :
      Passes (Latches (call.refusal? params)) (fun answer => failureOf answer.result)
        (fun _ t => Clear params t) (Answer.ofOperation Call.done op) s :=
    hop.map (fun _ _ ht => ⟨ht.latches, ht⟩) fun _ => failureOf_map ..
  have hdisciplined (hblinds : call.blinds = false) (hshuffles : call ≠ .enableShuffling) :
      Passes (Latches (call.refusal? params)) (fun answer => failureOf answer.result)
        (fun _ t => Clear params t) (call.perform d) s :=
    (passes_of_disciplined hpatient (perform_disciplined d call) ⟨hblinds, hshuffles, rfl, hs⟩).mono
      fun _ _ ht => ht.2.2.2
  cases call with
  | enableBlinding bits => exact hanswer (passes_enableBlinding hpatient hs bits)
  | enableShuffling => exact hanswer (passes_enableShuffling hpatient hs)
  | _ => exact hdisciplined rfl (fun h => nomatch h)

end Patient

/-! ### Sessions -/

theorem resetTrngModes_returns (hs : Ready d s) (hdebug : s.params.debug = true) :
    ∃ t, Operation.Returns bus d.resetTrngModes s () t := by
  obtain ⟨u, hidle, hu⟩ := waitIdle_returns hs
  have hfooting := State.footing_writeSink (r := .trngControl) (by decide) (0 : UInt32).toUInt64 u
  have hcore := State.core_writeSink (r := .trngControl) (by simp [State.Peripheral])
    (0 : UInt32).toUInt64 u
  obtain ⟨herrors, hparams⟩ := Prod.mk.inj hfooting
  have hmultiplying : (u.writeSink .trngControl (0 : UInt32).toUInt64).multiplying = u.multiplying :=
    congrArg (fun core => core.1.run.isSome) hcore
  obtain ⟨v, hsettled, -⟩ := waitIdle_returns (hu.frame (hu.coherent.writeSink _ _)
    (by rw [herrors, hparams, hmultiplying]))
  refine ⟨v, (Operation.returns_bind _ _ _ _ _).mpr ⟨(), s, (returns_ensureDebug hdebug _).mpr rfl, ?_⟩⟩
  simp only [Operation.returns_bind, Operation.returns_lift, ends_write]
  exact ⟨(), u, hidle, (), _, rfl, hsettled⟩

/-- A patient driver brings any engine into service. -/
theorem startUp_returns (hs : s.Coherent) (hpatient : max s.params.latency 3 < d.checks) :
    ∃ t, Operation.Returns bus d.startUp s () t := by
  have hreset : Ready d (s.writeSink .softReset (1 : UInt32).toUInt64) :=
    ⟨⟨hs.writeSink _ _, rfl, hpatient⟩, rfl⟩
  obtain ⟨u, hwait, hu⟩ := waitIdle_returns hreset
  have hbit : Ends bus d.isDebug u u.params.debug u := (d.ends_isDebug _).mpr ⟨rfl, rfl⟩
  simp only [startUp, reset, configureEntropy, Operation.returns_bind, Operation.returns_lift,
    ends_notify, ends_write]
  cases hdebug : u.params.debug with
  | false =>
    rw [hdebug] at hbit
    exact ⟨u, (), u, ⟨(), s, rfl, (), _, rfl, hwait⟩, false, u, hbit,
      (Operation.returns_pure _ _ _ _).mpr ⟨rfl, rfl⟩⟩
  | true =>
    rw [hdebug] at hbit
    obtain ⟨t, hmodes⟩ := resetTrngModes_returns hu hdebug
    exact ⟨t, (), u, ⟨(), s, rfl, (), _, rfl, hwait⟩, true, u, hbit, hmodes⟩

/-- An engine is brought into service with an empty latch. -/
theorem startUp_clear (hs : s.Coherent) (hpatient : max s.params.latency 3 < d.checks)
    (h : Operation.Returns bus d.startUp s () t) : Clear s.params t := by
  simp only [startUp, reset, Operation.returns_bind, Operation.returns_lift, ends_notify,
    ends_write] at h
  obtain ⟨_, v, ⟨_, _, hsame, _, _, rfl, hwait⟩, hentropy⟩ := h
  rw [hsame] at hwait
  have hreset : Clear s.params (s.writeSink .softReset (1 : UInt32).toUInt64) :=
    ⟨hs.writeSink _ _, rfl, rfl⟩
  have hwaited : Clear s.params v :=
    hreset.alike (Ends.coherent hwait hreset.coherent) (waitIdle_only hwait).1
  have hconfigure : Operation.Disciplined d (.calling .reset) d.configureEntropy :=
    configureEntropy_disciplined
  exact ((passes_of_disciplined hpatient hconfigure ⟨rfl, nofun, rfl, hwaited⟩).ends _ _ hentropy).2.2.2

theorem session_clear (hpatient : max params.latency 3 < d.checks) (hs : Clear params s)
    {calls : List Call} {answers : List (Option Answer)}
    (h : Ends bus (d.session calls) s answers t) : Clear params t := by
  induction calls generalizing s answers with
  | nil =>
    obtain ⟨-, rfl⟩ := (ends_pure _ _ _ _).mp h
    exact hs
  | cons call rest ih =>
    obtain ⟨answer, u, hcall, hrest⟩ := (ends_bind _ _ _ _ _).mp h
    obtain ⟨others, v, hothers, hend⟩ := (ends_bind _ _ _ _ _).mp hrest
    obtain ⟨-, rfl⟩ := (ends_pure _ _ _ _).mp hend
    exact ih ((perform_passes hpatient call hs).ends answer u hcall) hothers

/-- **A driver provokes no error of the protocol, and leaves none behind.** Once it has brought an
engine into service the latch is empty between any two calls; during a call it holds nothing but
what the engine may refuse this call for, and what the call fails with has been in it. -/
theorem session_latch {calls : List Call} {answers : List (Option Answer)} {u : State}
    (hs : Reachable s) (hpatient : max s.params.latency 3 < d.checks)
    (hstart : Operation.Returns bus d.startUp s () t)
    (hcalls : Ends bus (d.session calls) t answers u) (call : Call) :
    u.errors = 0 ∧
      (∀ v ∈ (call.perform d).states bus u,
        v.errors = 0 ∨ ∃ e, call.refusal? s.params = some e ∧ v.errors = e.mask) ∧
      ∀ answer v, Ends bus (call.perform d) u answer v →
        v.errors = 0 ∧ ∀ bits, answer.result = .error (.hardware bits) →
          bits ≠ 0 ∧ ∃ w ∈ (call.perform d).states bus u, w.errors = bits := by
  have hclear : Clear s.params u :=
    session_clear hpatient (startUp_clear hs.coherent hpatient hstart) hcalls
  have hpasses := perform_passes hpatient call hclear
  refine ⟨hclear.errors, hpasses.throughout, fun answer v hend => ?_⟩
  refine ⟨(hpasses.ends answer v hend).errors, fun bits hresult => ?_⟩
  exact hpasses.found answer v bits hend (by rw [hresult]; rfl)

/-- A driver that gives up after four polls. -/
def fourPolls : Driver := ⟨{ pollLimit := some 4 }, 0⟩

/-- A production engine that may change its prime size, and shuffles. -/
def production : State := .powerUp { debug := false, dynamicSize := true, shuffle := true } fun _ => 7

/-- The engine in service. -/
def serviced : State := (fourPolls.startUp.run.run bus production).2

/-- A prime size that is refused, and a call that is not. -/
def trials : List Call := [.setSize 1, .enableIrq]

/-- The engine after that. -/
def tried : State := ((fourPolls.session trials).run bus serviced).2

/-- Of a prime size that has been refused nothing is left, and what the engine is asked next has
its own error: it does not give up shuffling. -/
theorem session_latch_production :
    Operation.Returns bus fourPolls.startUp production () serviced ∧
      Ends bus (fourPolls.session trials) serviced
        [some { result := .error (.hardware HardwareError.sizeRefused.mask) },
          some { result := .ok .done }] tried ∧
      tried.errors = 0 ∧
      ∃ v, Ends bus (Call.disableShuffling.perform fourPolls) tried
          { result := .error (.hardware HardwareError.shuffle.mask) } v ∧ v.errors = 0 ∧
        ∃ w ∈ (Call.disableShuffling.perform fourPolls).states bus tried,
          w.errors = HardwareError.shuffle.mask := by
  have hstart : Operation.Returns bus fourPolls.startUp production () serviced := Prod.ext rfl rfl
  have hcalls : Ends bus (fourPolls.session trials) serviced
      [some { result := .error (.hardware HardwareError.sizeRefused.mask) },
        some { result := .ok .done }] tried := Prod.ext rfl rfl
  have hcall : Ends bus (Call.disableShuffling.perform fourPolls) tried
      { result := .error (.hardware HardwareError.shuffle.mask) } _ := Prod.ext rfl rfl
  obtain ⟨hclear, -, hends⟩ :=
    session_latch (.powerUp _ _) (by decide) hstart hcalls .disableShuffling
  obtain ⟨hempty, hfound⟩ := hends _ _ hcall
  exact ⟨hstart, hcalls, hclear, _, hcall, hempty, (hfound _ rfl).2⟩

end Driver

end CurveEngine
