import CurveEngine.Proofs.Dialogue
import CurveEngine.Proofs.Following
import CurveEngine.Proofs.Orderly

/-! Every call on an engine at rest comes to an end, and so does every reset.

An engine at rest stays at rest while nothing is written that starts a multiplication
(`upholds_atRest`). A multiplication that is started while no breakpoint is armed and no halt is
pending is over at once, so an engine that nothing hinders stays so while nobody orders a halt
(`upholds_unhindered`). In both cases every wait is over after as many looks as the engine needs to
become idle, or to warm up, and the calls are gone through one by one (`concur_perform`). A reset
leaves an engine that nothing hinders, whatever it was doing before (`concur_reset`).

How often a wait looks at the status is counted in its accesses: a driver that gives up after some
number of checks looks no more often than that, and one that concurs with it makes the same
accesses (`Concur.waitsBriefly`). -/
namespace CurveEngine
open Register Procedure Device

variable {α ρ : Type} {c : Crew} {s t u : State}

/-! ### Engines at rest -/

namespace Device

/-- No multiplication is in progress, and none to come will be halted. -/
structure Sequencer.Free (q : Sequencer) : Prop where
  ended : q.run = none
  unarmed : q.Unarmed
  unhalted : q.haltPending = false

namespace State

/-- An engine of given parameters is at rest. -/
structure AtRest (p : Parameters) (s : State) : Prop where
  coherent : s.Coherent
  params : s.params = p
  resting : s.multiplying = false

/-- An engine at rest lets no multiplication go on. -/
theorem AtRest.writeSink_steps {p : Parameters} (h : s.AtRest p) (value : UInt64) :
    s.writeSink .steps value = s := by
  have hstep : s.step value.toUInt32 = s := by
    rw [State.step, h.coherent.not_halted h.resting]
    rfl
  show (if s.params.debug then s.step value.toUInt32 else s) = s
  rw [hstep, ite_self]

theorem free_of_core (h : t.core = s.core) (hs : s.sequencer.Free) : t.sequencer.Free := by
  have hsequencer : t.sequencer = s.sequencer := congrArg Prod.fst h
  exact hsequencer ▸ hs

/-- A multiplication that nothing halts is over when it has been started. -/
theorem Coherent.free_startMultiplication (hs : s.Coherent) (h : s.sequencer.Free) :
    s.startMultiplication.sequencer.Free := by
  have hresting : s.multiplying = false := congrArg Option.isSome h.ended
  cases hon : s.curve.contains s.pointR1 with
  | false =>
    rw [startMultiplication_refused hon]
    exact h
  | true =>
    rw [startMultiplication_finished hon (hs.idle hresting) h.unarmed h.unhalted]
    exact ⟨rfl, h.unarmed, rfl⟩

/-- Nor does any other command get in the way of the multiplications to come. -/
theorem Coherent.free_control (hs : s.Coherent) (h : s.sequencer.Free) (word : UInt32) :
    (s.control word).sequencer.Free := by
  have hresting : s.multiplying = false := congrArg Option.isSome h.ended
  by_cases hopens : OpensTransfer word
  · exact free_of_core (core_control s hopens) h
  rw [OpensTransfer, not_or] at hopens
  rw [control_begun hresting hopens.1 hopens.2]
  have hbegun : s.begun.Coherent := hs.occupy.frame rfl
  split
  · exact hbegun.free_startMultiplication h
  · exact (sequencer_operate s.begun word).symm ▸ h

end State

end Device

namespace Driver
open State
variable {p : Parameters}

/-- The write does not start a multiplication. -/
def StartsNoRun (r : Sink) (word : UInt32) : Prop :=
  r = .control → OpensTransfer word ∨ Control.multiply.test word = false

theorem startsNoRun_of_ne {r : Sink} (h : r ≠ .control) (word : UInt32) : StartsNoRun r word :=
  fun hr => absurd hr h

theorem startsNoRun_operate {operation : PointOperation} (h : operation ≠ .multiply) :
    StartsNoRun .control (Command.operate operation).word := by
  refine fun _ => .inr ?_
  cases operation <;> first | exact absurd rfl h | decide

theorem upholds_atRest (p : Parameters) : Upholds (State.AtRest p) StartsNoRun where
  read r s hs := by
    have hcore := core_readSource r s
    simp only [core, Prod.mk.injEq] at hcore
    refine ⟨hs.coherent.readSource r, hcore.2.2.2.1.trans hs.params, ?_⟩
    rw [multiplying, hcore.1]
    exact hs.resting
  write r value s hr hs := by
    refine ⟨hs.coherent.writeSink r value, (params_writeSink r value s).trans hs.params, ?_⟩
    by_cases hsteps : r = .steps
    · rw [hsteps, hs.writeSink_steps]
      exact hs.resting
    by_cases hopens : r = .control ∧ ¬ OpensTransfer value.toUInt32
    · obtain ⟨rfl, hopens⟩ := hopens
      rw [OpensTransfer, not_or] at hopens
      have hsequencer : (s.control value.toUInt32).sequencer = s.sequencer := by
        rw [control_begun hs.resting hopens.1 hopens.2, (hr rfl).resolve_left (not_or.mpr hopens)]
        exact sequencer_operate s.begun _
      exact (congrArg (fun q => q.run.isSome) hsequencer).trans hs.resting
    · rw [not_and, not_not] at hopens
      exact upholds_resting.write r value s ⟨hsteps, hopens⟩ hs.resting
  acknowledge _ := nofun

/-- An engine of given parameters on which nothing halts a multiplication. -/
structure Unhindered (p : Parameters) (s : State) : Prop extends State.AtRest p s where
  free : s.sequencer.Free

/-- The write arms no breakpoint and orders no halt. -/
def HaltsNothing (r : Sink) (_ : UInt32) : Prop := r ≠ .halt ∧ r ≠ .breakpoint

theorem upholds_unhindered (p : Parameters) : Upholds (Unhindered p) HaltsNothing where
  read r s hs :=
    ⟨(upholds_atRest p).read r s hs.toAtRest, free_of_core (core_readSource r s) hs.free⟩
  write r value s hr hs := by
    have hfree : (s.writeSink r value).sequencer.Free := by
      by_cases hperipheral : Peripheral r
      · exact free_of_core (core_writeSink hperipheral value s) hs.free
      cases r with
      | control => exact hs.coherent.free_control hs.free _
      | softReset => exact ⟨rfl, rfl, rfl⟩
      | primeSize =>
        exact setSize_keeps (P := fun t => t.sequencer.Free) (fun _ _ => hs.free) _
      | steps => exact (hs.writeSink_steps value).symm ▸ hs.free
      | limbReadAddress =>
        exact debug_keeps (P := fun t => t.sequencer.Free) hs.free hs.free
      | halt => exact absurd rfl hr.1
      | breakpoint => exact absurd rfl hr.2
      | _ => exact absurd (by simp [Peripheral]) hperipheral
    exact ⟨⟨hs.coherent.writeSink r value, (params_writeSink r value s).trans hs.params,
      congrArg Option.isSome hfree.ended⟩, hfree⟩
  acknowledge _ := ⟨by decide, by decide⟩

theorem calm_atRest {p : Parameters} (hlooks : max p.latency 3 ≤ c.looks) :
    Calm c p (State.AtRest p) StartsNoRun where
  upholds := upholds_atRest p
  params _ hs := hs.params
  coherent _ hs := hs.coherent
  resting _ hs := hs.resting
  patient := hlooks

theorem calm_unhindered {p : Parameters} (hlooks : max p.latency 3 ≤ c.looks) :
    Calm c p (Unhindered p) HaltsNothing where
  upholds := upholds_unhindered p
  params _ hs := hs.params
  coherent _ hs := hs.coherent
  resting _ hs := hs.resting
  patient := hlooks

theorem mayTransfer_startsNoRun : MayTransfer StartsNoRun where
  data := startsNoRun_of_ne (by decide)
  opens _ h _ := .inl (opensTransfer h)
  token := startsNoRun_of_ne (by decide) 1
  flags point := startsNoRun_of_ne (by cases point <;> decide)

theorem mayTransfer_haltsNothing : MayTransfer HaltsNothing where
  data _ := ⟨by decide, by decide⟩
  opens _ _ := ⟨by decide, by decide⟩
  token := ⟨by decide, by decide⟩
  flags point _ := by cases point <;> exact ⟨by decide, by decide⟩

/-! ### Calls -/

section Answer
variable {I : State → Prop} {reply : α → Reply}

theorem carries_ofOperation {F : Driver → Operation α} (h : Operation.Concurs c I F) :
    Carries c I (fun answer => Responsive answer.result)
      (fun d => Answer.ofOperation reply (F d)) :=
  h.map fun _ hx => hx.map reply

theorem carries_ofProcedure {F : Driver → Procedure α} (h : Procedure.Concurs c I F) :
    Carries c I (fun answer => Responsive answer.result)
      (fun d => Answer.ofProcedure reply (F d)) :=
  Carries.map h fun a _ => .ok (reply a)

theorem carries_ofRecording {lent : ρ} {back : ρ → Answer → Answer} {F : Driver → Recording ρ α}
    (h : Recording.Concurs c I F) (hback : ∀ r answer, (back r answer).result = answer.result) :
    Carries c I (fun answer => Responsive answer.result)
      (fun d => Answer.ofRecording reply lent back (F d)) :=
  (h lent).map fun x hx => by
    rw [hback]
    exact hx.map reply

end Answer

end Driver

/-- Calls that come to an end on an engine at rest. A multiplication must not be halted on its way,
other than by the breakpoint that a trace arms; and nobody waits for a halt. -/
def Call.Proceeds (s : State) : Call → Prop
  | .awaitHalt => False
  | .multiply .. => s.sequencer.Unarmed ∧ s.sequencer.haltPending = false
  | .multiplyTraced .. => s.sequencer.UnarmedBeyond
  | _ => True

namespace Driver
open State

theorem concur_perform (hs : s.Coherent) (hresting : s.multiplying = false)
    (hlooks : max s.params.latency 3 ≤ c.looks) {call : Call} (hcall : call.Proceeds s) :
    Concur c (fun d => call.perform d) s fun answer _ => Responsive answer.result := by
  have h := calm_atRest (c := c) hlooks
  have hmay := mayTransfer_startsNoRun
  have hrest {F : Driver → Procedure Answer}
      (hF : Carries c (State.AtRest s.params) (fun answer => Responsive answer.result) F) :
      Concur c F s fun answer _ => Responsive answer.result :=
    (hF s ⟨hs, rfl, hresting⟩).mono fun _ _ ht => ht.1
  have hfree {r : Sink} (hr : r ≠ .control) (word : UInt32) := startsNoRun_of_ne hr word
  have hsettled {r : Sink} (hr : r ≠ .control) (word : UInt32) :
      Operation.Concurs c (State.AtRest s.params) (fun d => d.writeSettled r word) :=
    h.writeSettled (hfree hr word)
  have htrng (word : UInt32) :
      Operation.Concurs c (State.AtRest s.params) (fun d => d.controlTrng word) :=
    h.writeEntropy (hfree (by decide) word)
  have hanswer : Procedure.Concurs c (State.AtRest s.params) answer := h.field .status _
  cases call with
  | awaitHalt => exact hcall.elim
  | multiply a k =>
    have hunhindered : Unhindered s.params s :=
      ⟨⟨hs, rfl, hresting⟩, ⟨Option.isSome_eq_false_iff.mp hresting |> Option.isNone_iff_eq_none.mp,
        hcall.1, hcall.2⟩⟩
    exact (carries_ofOperation ((calm_unhindered (c := c) hlooks).multiply mayTransfer_haltsNothing
      ⟨by decide, by decide⟩ a k) s hunhindered).mono fun _ _ ht => ht.1
  | multiplyTraced a k trace =>
    simp only [Call.perform]
    refine (carries_ofRecording (concurs_multiplyTraced hlooks hcall a k) ?_ s
      ⟨.refl hs, hresting⟩).mono fun _ _ ht => ht.1
    exact fun _ _ => rfl
  | reset => exact hrest (carries_ofOperation (h.reset (hfree (by decide) 1)))
  | configureEntropy =>
    exact hrest (carries_ofOperation (h.configureEntropy (hfree (by decide))))
  | status => exact hrest (carries_ofProcedure (h.read .status))
  | capabilities => exact hrest (carries_ofProcedure (h.read .capabilities))
  | isDebug => exact hrest (carries_ofProcedure (h.field .capabilities _))
  | version => exact hrest (carries_ofProcedure (h.field .version _))
  | size => exact hrest (carries_ofProcedure h.size)
  | numberBytes => exact hrest (carries_ofProcedure h.numberBytes)
  | setSize bits => exact hrest (carries_ofOperation (h.setSize _ (hfree (by decide))))
  | setCurve a b p q =>
    exact hrest (carries_ofOperation ((Operation.Concurs.notify _).bind fun _ =>
      (h.setSize _ (hfree (by decide))).bind fun _ => (h.writeNumber hmay p _).bind fun _ =>
        (h.writeNumber hmay a _).bind fun _ => (h.writeNumber hmay b _).bind fun _ =>
          h.writeNumber hmay q _))
  | limitScalar bits => exact hrest (carries_ofOperation (h.limitScalar bits (hfree (by decide) _)))
  | isInfinite point => exact hrest (carries_ofOperation (h.isInfinite point))
  | flagInfinite point | unflagInfinite point =>
    exact hrest (carries_ofOperation (h.writeSettled (hmay.flags point _)))
  | writeNumber bytes destination =>
    exact hrest (carries_ofOperation (h.writeNumber hmay bytes destination))
  | readNumber buffer register =>
    simp only [Call.perform]
    refine hrest (carries_ofRecording (h.readNumberInto hmay register) ?_)
    exact fun _ _ => rfl
  | readPoint point => exact hrest (carries_ofOperation (h.readPoint hmay point))
  | readPointInto point buffers =>
    simp only [Call.perform]
    refine hrest (carries_ofRecording (h.readPointInto hmay point) ?_)
    exact fun _ _ => rfl
  | add a b =>
    exact hrest (carries_ofOperation ((h.operateTwo hmay (startsNoRun_operate (by decide)) a b).bind
      fun _ => h.readPoint hmay .r1))
  | double a | negate a =>
    exact hrest (carries_ofOperation ((h.operateOne hmay (startsNoRun_operate (by decide)) a).bind
      fun _ => h.readPoint hmay .r1))
  | isOnCurve a =>
    exact hrest (carries_ofOperation ((h.operateOne hmay (startsNoRun_operate (by decide)) a).bind
      fun _ => .lift hanswer))
  | equal a b | opposite a b =>
    exact hrest (carries_ofOperation ((h.operateTwo hmay (startsNoRun_operate (by decide)) a b).bind
      fun _ => .lift hanswer))
  | enableBlinding bits =>
    exact hrest (carries_ofOperation (h.enableBlinding bits (hfree (by decide))))
  | enableShuffling => exact hrest (carries_ofOperation (h.enableShuffling (hfree (by decide) 1)))
  | enableZremask period =>
    exact hrest (carries_ofOperation (h.enableZremask period (hfree (by decide))))
  | enableIrq | disableBlinding | disableShuffling | disableZremask =>
    exact hrest (carries_ofOperation (hsettled (by decide) _))
  | setXyShuffle enable | setAxiMask enable | setTokenMask enable =>
    exact hrest (carries_ofOperation (h.toggle enable (hfree (by decide))))
  | setBreakpoint | removeBreakpoint =>
    exact hrest (carries_ofOperation (h.writeBreakpoint _ (hfree (by decide) _)))
  | halt | resume | runOpcodes | armTrigger | disarmTrigger | setTriggerUp | setTriggerDown
  | resetCounters => exact hrest (carries_ofOperation (h.writeDebug (hfree (by decide) _)))
  | ladderFlags | operationTime | limbWidth | rawFillTime =>
    exact hrest (carries_ofOperation (h.readDebug _))
  | debugSnapshot | opcodeCount | opcodeSize | rawSize | shuffleWidth | rawFifo =>
    exact hrest (carries_ofOperation (h.debugField _ _))
  | patchMicrocode address opcodes =>
    exact hrest (carries_ofOperation
      (h.patchMicrocode address opcodes (hfree (by decide)) (hfree (by decide))))
  | writeLimb address limb =>
    exact hrest (carries_ofOperation
      (h.writeLimb address limb (hfree (by decide) _) (hfree (by decide) _)))
  | readLimb address => exact hrest (carries_ofOperation (h.readLimb (hfree (by decide) _)))
  | configureTrng debias accessTime idle =>
    exact hrest (carries_ofOperation (h.writeEntropy (hfree (by decide) _)))
  | resetTrngModes | disablePostproc | bypassTrng | disableRawRead | resetRawFifo
  | resetNumberFifos => exact hrest (carries_ofOperation (htrng _))
  | readRawBit address =>
    exact hrest (carries_ofOperation ((htrng _).bind fun _ =>
      (Operation.Concurs.lift (h.read .rawBit)).bind fun _ => .pure _))
  | waitingCounts => exact hrest (carries_ofOperation h.waitingCounts)
  | entropyCounters => exact hrest (carries_ofOperation h.entropyCounters)

/-- A reset brings any engine to rest, one whose multiplication is halted as well. -/
theorem concur_reset (hs : s.Coherent) (hlooks : max s.params.latency 3 ≤ c.looks) :
    Concur c (fun d => d.reset.run) s fun x t => x = .ok () ∧ Unhindered s.params t := by
  have hreset : Unhindered s.params (s.writeSink .softReset (1 : UInt32).toUInt64) :=
    ⟨⟨hs.writeSink _ _, rfl, rfl⟩, ⟨rfl, rfl, rfl⟩⟩
  refine (Concur.notify .softReset (Q := fun _ t => t = s) rfl).lift fun _ t ht => ?_
  subst ht
  exact (Concur.write .softReset 1 (Q := fun _ => Unhindered t.params) hreset).lift
    fun _ u hu => (calm_unhindered hlooks).concur_waitIdle hu

theorem concur_startUp (hs : s.Coherent) (hlooks : max s.params.latency 3 ≤ c.looks) :
    Concur c (fun d => d.startUp.run) s fun x t => Responsive x ∧ Unhindered s.params t := by
  have hconfigure : Operation.Concurs c (Unhindered s.params) configureEntropy :=
    (calm_unhindered hlooks).configureEntropy fun _ => ⟨by decide, by decide⟩
  exact (concur_reset hs hlooks).operation (fun _ t ht => hconfigure t ht.2)
    fun _ _ he => nomatch he.1

end Driver

/-! ### How often a wait looks -/

/-- The access is a look at the status. -/
def Access.isLook : Access → Bool
  | .read _ offset _ => offset == Source.status.offset
  | .write .. => false

theorem Access.ReadsFrom.isLook {access : Access} {r : Source} (h : access.ReadsFrom r) :
    access.isLook = decide (r = .status) := by
  cases access with
  | write => exact h.elim
  | read size offset answer =>
    rw [Access.isLook, show offset = r.offset from h, Bool.eq_iff_iff, beq_iff_eq,
      decide_eq_true_eq]
    exact ⟨Source.eq_of_offset, congrArg Source.offset⟩

namespace Procedure

/-- Wherever it starts, the procedure looks at the status so many times at most. -/
def LooksAtMost (n : Nat) (p : Procedure α) : Prop :=
  Yields bus (fun _ log => log.countP Access.isLook ≤ n) p

namespace LooksAtMost
variable {β : Type} {m n : Nat}

theorem mono {p : Procedure α} (h : LooksAtMost m p) (hle : m ≤ n) : LooksAtMost n p :=
  Yields.mono h fun _ _ hlog => Nat.le_trans hlog hle

theorem pure (a : α) : LooksAtMost 0 (pure a) := Yields.pure (Nat.le_refl 0)

theorem bind {p : Procedure α} {f : α → Procedure β} (h : LooksAtMost m p)
    (hf : ∀ a, LooksAtMost n (f a)) : LooksAtMost (m + n) (p >>= f) := by
  refine Yields.bind h (fun a log hlog => Yields.mono (hf a) fun _ rest hrest => ?_)
    fun log hlog => ?_
  · rw [List.countP_append]
    exact Nat.add_le_add hlog hrest
  · exact Nat.le_trans hlog (Nat.le_add_right m n)

theorem read (d : Driver) (r : Source) : LooksAtMost 1 (d.read r) := by
  refine (Driver.yields_read r).mono fun _ log ⟨access, hlog, _⟩ => ?_
  rw [hlog]
  exact List.countP_le_length

/-- Nothing but the status is looked at for a look at the status. -/
theorem read_of_ne (d : Driver) {r : Source} (hr : r ≠ .status) : LooksAtMost 0 (d.read r) := by
  refine (Driver.yields_read r).mono fun _ log ⟨access, hlog, hreads, _⟩ => ?_
  rw [hlog, List.countP_singleton, hreads.isLook, decide_eq_false hr]
  exact Nat.le_refl 0

/-- A wait that gives up looks no more often than it checks. -/
theorem pollUntil {d : Driver} {limit : Nat} (hlimit : d.config.pollLimit = some limit)
    {check : Procedure Bool} (hcheck : LooksAtMost 1 check) :
    LooksAtMost limit (d.pollUntil check).run := by
  have hpoll (count : Nat) :
      LooksAtMost count (Driver.poll (throw .unresponsive) check count).run := by
    induction count with
    | zero => exact pure _
    | succ count ih =>
      have hturn : (Driver.poll (throw .unresponsive) check (count + 1)).run =
          check >>= fun ready => (if ready then Pure.pure ()
            else Driver.poll (throw .unresponsive) check count).run :=
        Operation.run_lift_bind _ _
      rw [hturn, Nat.add_comm]
      refine hcheck.bind fun ready => ?_
      split
      · exact (pure _).mono (Nat.zero_le count)
      · exact ih
  rw [Driver.pollUntil, hlimit]
  exact hpoll limit

end LooksAtMost

end Procedure

namespace Driver

/-- All that the driver waits for, by the check that it repeats. -/
def polled (d : Driver) : List (Procedure Bool) :=
  [d.isIdle, d.hasEnoughRandom, d.isHalted, d.isHaltedOrOver, d.limbIsReady]

/-- No check looks at the status more than once. -/
theorem looksAtMost_check (d : Driver) : ∀ check ∈ d.polled, LooksAtMost 1 check := by
  have hstatus {f : UInt32 → Bool} : LooksAtMost 1 (do let word ← d.status; pure (f word)) :=
    (LooksAtMost.read d .status).bind fun _ => .pure _
  have hfield {r : Source} (hr : r ≠ .status) {f : UInt32 → Bool} :
      LooksAtMost 0 (do let word ← d.read r; pure (f word)) :=
    (LooksAtMost.read_of_ne d hr).bind fun _ => .pure _
  have hhalted : LooksAtMost 0 d.isHalted := hfield (by decide)
  have hover : LooksAtMost 1 d.isHaltedOrOver := by
    refine hhalted.bind (n := 1) fun halted => ?_
    split
    · exact (LooksAtMost.pure _).mono (Nat.zero_le 1)
    · exact hstatus
  intro check hcheck
  simp only [polled, List.mem_cons, List.not_mem_nil, or_false] at hcheck
  rcases hcheck with rfl | rfl | rfl | rfl | rfl
  · exact hstatus
  · exact hstatus
  · exact hhalted.mono (Nat.zero_le 1)
  · exact hover
  · exact (hfield (by decide)).mono (Nat.zero_le 1)

end Driver

/-- Waiting from `s`, a driver of the crew looks at the status once more than it has to, at most. -/
def Crew.WaitsBriefly (c : Crew) (check : Driver → Procedure Bool) (s : State) : Prop :=
  ∃ turns, ∀ d, c.Has turns d →
    ((d.pollUntil (check d)).run.accesses bus s).countP Access.isLook ≤ c.looks + 1

/-- Drivers that concur on a wait look as often as the one of them that is the first to give up. -/
theorem Procedure.Concur.waitsBriefly {check : Driver → Procedure Bool}
    {Q : Except DriverError Unit → State → Prop}
    (h : Concur c (fun d => (d.pollUntil (check d)).run) s Q)
    (hcheck : ∀ d, check d ∈ d.polled) : c.WaitsBriefly check s := by
  obtain ⟨turns, _, _, log, -, hperforms⟩ := h
  let hasty : Driver := ⟨{ width := c.width, pollLimit := some (c.looks + 1) }, turns⟩
  have hmember : c.Has turns hasty := by
    refine ⟨rfl, Nat.le_refl turns, fun checks hchecks => ?_⟩
    cases hchecks
    exact Nat.lt_succ_self c.looks
  have hlooks := LooksAtMost.pollUntil (d := hasty) rfl (hasty.looksAtMost_check _ (hcheck hasty)) s
  refine ⟨turns, fun d hd => ?_⟩
  rw [(hperforms d hd).2, ← (hperforms hasty hmember).2]
  exact hlooks

namespace Driver
open State

/-- The drivers of a word width that wait at least as long as the engine may need, or for ever. -/
def patient (width : WordWidth) (s : State) : Crew := ⟨width, max s.params.latency 3⟩

/-- **Every wait comes to an end.** On a reachable engine on which no multiplication is in progress,
every call returns or fails, except for a wait for a halt, and for a multiplication that breakpoints
or a halt would stop on its way. A reset and the start-up do so on every reachable engine, and leave
no multiplication in progress, no breakpoint and no halt. Drivers that never give up on a wait and
those that do after more than `max latency 3` looks concur: they return the same, leave the engine
in the same state and make the same accesses, so none of them has given up. No wait looks more
often than the limit, if there is one; as `max latency 3 + 1` is a limit that cuts no wait short,
that is how often any wait looks at most. The last two parts say so of the waits themselves, from
every state in which a call may come to one. -/
theorem perform_terminates (s : State) (width : WordWidth) (hs : Reachable s) :
    (s.multiplying = false → ∀ call : Call, call.Proceeds s →
      Concur (patient width s) (fun d => call.perform d) s
        fun answer _ => answer.result ≠ .error .unresponsive) ∧
    Concur (patient width s) (fun d => Call.reset.perform d) s
      (fun answer t => answer.result = .ok .done ∧ t.sequencer.Free) ∧
    Concur (patient width s) (fun d => d.startUp.run) s
      (fun x t => x ≠ .error .unresponsive ∧ t.sequencer.Free) ∧
    (∀ (d : Driver) (limit : Nat), d.config.pollLimit = some limit → ∀ check ∈ d.polled,
      LooksAtMost limit (d.pollUntil check).run) ∧
    (s.multiplying = false → (patient width s).WaitsBriefly isIdle s ∧
      (patient width s).WaitsBriefly hasEnoughRandom s) ∧
    (s.params.debug = true → (patient width s).WaitsBriefly isHaltedOrOver s) := by
  have hcoherent := hs.coherent
  have hlooks : max s.params.latency 3 ≤ (patient width s).looks := Nat.le_refl _
  refine ⟨fun hresting call hcall => concur_perform hcoherent hresting hlooks hcall, ?_, ?_,
    fun d limit hlimit check hcheck => .pollUntil hlimit (d.looksAtMost_check check hcheck),
    fun hresting => ⟨?_, ?_⟩, fun hdebug => ?_⟩
  · exact (concur_reset hcoherent hlooks).map fun x _ ht => ⟨by rw [ht.1]; rfl, ht.2.free⟩
  · exact (concur_startUp hcoherent hlooks).mono fun _ _ ht => ⟨ht.1, ht.2.free⟩
  · exact ((calm_atRest hlooks).concur_waitIdle ⟨hcoherent, rfl, hresting⟩).waitsBriefly
      fun d => by simp [polled]
  · exact ((calm_atRest hlooks).waitEnoughRandom s ⟨hcoherent, rfl, hresting⟩).waitsBriefly
      fun d => by simp [polled]
  · exact (concur_pollHaltedOrOver hdebug (.refl hcoherent)).waitsBriefly fun d => by simp [polled]

/-- A multiplication on the small engine, and a reset of one on which a breakpoint has halted it. -/
theorem perform_terminates_curve97 :
    Reachable curve97 ∧ curve97.multiplying = false ∧
      (Call.multiply ⟨[3], [6]⟩ [21]).Proceeds curve97 ∧
      Concur (patient .narrow curve97) (fun d => (Call.multiply ⟨[3], [6]⟩ [21]).perform d) curve97
        (fun answer _ => answer.result ≠ .error .unresponsive) ∧
      Reachable caught97 ∧ caught97.multiplying = true ∧
      Concur (patient .wide caught97) (fun d => Call.reset.perform d) caught97
        (fun answer t => answer.result = .ok .done ∧ t.sequencer.Free) := by
  have hproceeds : (Call.multiply ⟨[3], [6]⟩ [21]).Proceeds curve97 := ⟨rfl, rfl⟩
  obtain ⟨hcalls, -⟩ := perform_terminates curve97 .narrow reachable_curve97
  obtain ⟨-, hreset, -⟩ := perform_terminates caught97 .wide reachable_caught97
  exact ⟨reachable_curve97, rfl, hproceeds, hcalls rfl _ hproceeds, reachable_caught97,
    by decide +kernel, hreset⟩

end Driver

end CurveEngine
