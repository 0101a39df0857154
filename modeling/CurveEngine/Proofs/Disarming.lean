import CurveEngine.Proofs.Dialogue

/-! The breakpoint of a traced multiplication is disarmed, unless the engine stays busy.

A traced multiplication arms its breakpoint, waits for an idle engine, starts it, follows it and
releases it. However following ends, the release stores to the breakpoint again, to disarm it. But
the wait in between stands before all that: if it gives up the call ends there, and the breakpoint
stays armed (`multiplyTraced_disarms`, `multiplyTraced_stays_armed`). Loading the operands before,
and reading the result after, make no store to it at all. -/
namespace CurveEngine
open Register Procedure Device

variable {σ α β ρ : Type} {bus : Bus σ}

/-! ### Stores to the breakpoint -/

/-- A store that arms the breakpoint of a traced multiplication, or disarms it. -/
def Access.Switches (armed : Bool) (access : Access) : Prop :=
  ∃ word, access.Sends .breakpoint word ∧ Register.Breakpoint.enable.test word = armed ∧
    Register.Breakpoint.id.get word = Driver.traceBreakpoint

abbrev Access.Arms : Access → Prop := Access.Switches true

abbrev Access.Disarms : Access → Prop := Access.Switches false

namespace Access
variable {access : Access}

theorem Disarms.not_arms (h : access.Disarms) : ¬ access.Arms := by
  rintro ⟨word, harms, harmed, -⟩
  obtain ⟨word', hdisarms, hdisarmed, -⟩ := h
  obtain ⟨-, rfl⟩ := harms.unique hdisarms
  rw [harmed] at hdisarmed
  cases hdisarmed

theorem ReadsFrom.not_arms {r : Source} (h : access.ReadsFrom r) : ¬ access.Arms := by
  rintro ⟨_, harms, -⟩
  exact h.not_writesTo _ harms.writesTo

theorem Sends.not_arms {r : Sink} {word : UInt32} (h : access.Sends r word) (hr : r ≠ .breakpoint) :
    ¬ access.Arms := by
  rintro ⟨_, harms, -⟩
  exact hr (h.unique harms).1

theorem Busy.not_arms (h : access.Busy) : ¬ access.Arms := by
  obtain ⟨_, hgets, -⟩ := h
  exact hgets.readsFrom.not_arms

end Access

theorem not_arms_read (size : AccessSize) (offset : UInt32) (answer : Except BusFault UInt64) :
    ¬ (Access.read size offset answer).Arms := by
  rintro ⟨_, harms, -⟩
  exact harms

theorem Driver.foreign_arms : Driver.Foreign Access.Arms where
  read := not_arms_read
  write hr _ _ hsends := hsends.not_arms (by rintro rfl; exact absurd hr (by decide))

/-- A store that arms the breakpoint is followed by one that disarms it. -/
def ComesDisarmed (_ : List Access) (access : Access) (after : List Access) : Prop :=
  access.Arms → ∃ disarm ∈ after, disarm.Disarms

theorem throughout_of_not_arms {P : List Access → Access → List Access → Prop} {log : List Access}
    (h : ∀ access ∈ log, ¬ access.Arms) :
    Throughout (fun before access after => access.Arms → P before access after) log :=
  fun _ access _ hlog harms => absurd harms (h access (by simp [hlog]))

/-- A log in which the breakpoint is disarmed, and never stays armed. -/
structure EndsDisarmed (log : List Access) : Prop where
  disarms : ∃ disarm ∈ log, disarm.Disarms
  throughout : Throughout ComesDisarmed log

namespace EndsDisarmed
variable {log log' : List Access}

/-- Whatever comes before is disarmed with the rest. -/
theorem prepend (h : EndsDisarmed log') (log : List Access) : EndsDisarmed (log ++ log') := by
  obtain ⟨disarm, hmem, hdisarm⟩ := h.disarms
  refine ⟨⟨disarm, List.mem_append_right log hmem, hdisarm⟩, ?_⟩
  exact throughout_append (fun _ _ _ _ _ => ⟨disarm, List.mem_append_right _ hmem, hdisarm⟩)
    h.throughout fun _ _ _ hP => hP

theorem append (h : EndsDisarmed log) (h' : ∀ access ∈ log', ¬ access.Arms) :
    EndsDisarmed (log ++ log') := by
  obtain ⟨disarm, hmem, hdisarm⟩ := h.disarms
  refine ⟨⟨disarm, List.mem_append_left log' hmem, hdisarm⟩, ?_⟩
  refine h.throughout.append ?_ ?_ fun _ _ _ hP => hP
  · exact throughout_of_not_arms h'
  · intro before access after hP harms
    obtain ⟨later, hlater, hdisarms⟩ := hP harms
    exact ⟨later, List.mem_append_left log' hlater, hdisarms⟩

end EndsDisarmed

namespace Driver
variable {d : Driver}

/-! ### Giving up -/

/-- The driver gives up: each of the looks that it is allowed has shown a busy engine. -/
structure GivesUp (d : Driver) (x : Except DriverError α) (looks : List Access) : Prop where
  throws : x = .error .unresponsive
  limit : d.config.pollLimit = some looks.length
  busy : ∀ look ∈ looks, look.Busy

theorem GivesUp.of_error {e : DriverError} {looks : List Access}
    (h : d.GivesUp (.error e : Except DriverError α) looks) :
    d.GivesUp (.error e : Except DriverError β) looks :=
  ⟨congrArg Except.error (Except.error.inj h.throws), h.limit, h.busy⟩

theorem yields_poll_throws {E : DriverError → Prop} {exhausted : Operation Unit}
    (h : Yields bus (fun x log => log = [] ∧ ∀ e, x = some (.error e) → E e) exhausted.run)
    (count : Nat) :
    Yields bus (fun x log => ∀ e, x = some (.error e) →
      E e ∧ log.length = count ∧ ∀ look ∈ log, look.Busy) (poll exhausted d.isIdle count).run := by
  induction count with
  | zero =>
    refine h.mono fun x log hx e he => ?_
    obtain ⟨rfl, hthrows⟩ := hx
    exact ⟨hthrows e he, rfl, by simp⟩
  | succ count ih =>
    refine Operation.yields_lift_bind yields_isIdle (fun b log hlog => ?_) fun _ _ => nofun
    obtain ⟨look, rfl, -, hb⟩ := hlog
    cases b with
    | true => exact Yields.pure nofun
    | false =>
      refine ih.mono fun x rest hrest e he => ?_
      obtain ⟨hthrows, hlength, hbusy⟩ := hrest e he
      exact ⟨hthrows, by simp [hlength], by simpa using ⟨hb false rfl, hbusy⟩⟩

/-- A wait for an idle engine throws only when it gives up. -/
theorem yields_waitIdle_givesUp :
    Yields bus (fun x log => ∀ e, x = some (.error e) →
      d.GivesUp (.error e : Except DriverError Unit) log) d.waitIdle.run := by
  unfold waitIdle pollUntil
  split
  · rename_i limit hlimit
    have hexhausted : Yields bus (fun x log => log = [] ∧ ∀ e, x = some (.error e) → e = .unresponsive)
        (throw .unresponsive : Operation Unit).run := fun _ => ⟨rfl, by rintro _ ⟨⟩; rfl⟩
    refine (yields_poll_throws hexhausted limit).mono fun x log hlog e he => ?_
    obtain ⟨rfl, rfl, hbusy⟩ := hlog e he
    exact ⟨rfl, hlimit, hbusy⟩
  · have hspent : Yields bus (fun x log => log = [] ∧ ∀ e, x = some (.error e) → False)
        (ExceptT.lift .spent : Operation Unit).run := fun _ => ⟨rfl, fun _ he => by cases he⟩
    exact (yields_poll_throws hspent d.fuel).mono fun x log hlog e he => (hlog e he).1.elim

/-! ### Releasing -/

/-- Whenever the driver asks, the bus shows an engine for debugging. -/
def ShowsDebug (d : Driver) (bus : Bus σ) : Prop :=
  ∀ s value t, bus.read d.accessSize Source.capabilities.offset s = (.ok value, t) →
    Capabilities.debug.test (State.onBus d.accessSize value).toUInt32 = true

theorem ShowsDebug.isDebug (h : d.ShowsDebug bus) :
    Finishes bus (fun debug _ => debug = true) d.isDebug := by
  have hvalue : Finishes bus (fun value _ => Capabilities.debug.test value.toUInt32 = true)
      (d.readWord .capabilities) := by
    intro s value hvalue
    rw [readWord_eq] at hvalue
    rcases hread : bus.read d.accessSize Source.capabilities.offset s with ⟨answer, t⟩
    simp only [run, hread] at hvalue
    cases answer with
    | ok value => exact Option.some_inj.mp hvalue ▸ h s value t hread
    | error fault => cases hvalue
  have hword : Finishes bus (fun word _ => Capabilities.debug.test word = true)
      (d.read .capabilities) := hvalue.bind fun _ _ hdebug => .pure hdebug
  exact hword.bind fun _ _ hdebug => .pure hdebug

theorem ShowsDebug.ensureDebug (h : d.ShowsDebug bus) :
    Finishes bus (fun y _ => y = .ok ()) d.ensureDebug.run := by
  rw [Driver.ensureDebug, Operation.run_lift_bind]
  refine h.isDebug.bind fun debug _ hdebug => ?_
  rw [if_pos hdebug]
  exact .pure rfl

/-- On an engine for debugging, a breakpoint that there is can be stored to. -/
theorem finishes_writeBreakpoint (h : d.ShowsDebug bus) (id word : UInt32)
    (hid : id < breakpointCount) :
    Finishes bus (fun y log => y = .ok () ∧ ∃ looks store, log = looks ++ [store] ∧
      (∀ look ∈ looks, ¬ look.Arms) ∧ store.Sends .breakpoint word)
      (d.writeBreakpoint id word).run := by
  rw [writeBreakpoint, ExceptT.run_bind]
  refine (h.ensureDebug.and (.of_avoids (avoids_ensureDebug not_arms_read))).bind
    fun y looks hlooks => ?_
  obtain ⟨rfl, hlooks⟩ := hlooks
  dsimp only
  rw [if_neg (UInt32.not_le.mpr hid)]
  show Finishes bus _ (Except.ok <$> d.write .breakpoint word)
  rw [← bind_pure_comp]
  refine (Finishes.of_yields (yields_write .breakpoint word)).bind fun _ log hlog => .pure ?_
  obtain ⟨store, rfl, hsends, -⟩ := hlog
  exact ⟨rfl, looks, store, by rw [List.append_nil], hlooks, hsends⟩

/-- Wherever it starts, a procedure that is done has disarmed the breakpoint. -/
def Closes (bus : Bus σ) (p : Procedure α) : Prop := Finishes bus (fun _ log => EndsDisarmed log) p

namespace Closes

theorem after (p : Procedure α) {f : α → Procedure β} (hf : ∀ a, Closes bus (f a)) :
    Closes bus (p >>= f) :=
  Finishes.bind (Q := fun _ _ => True) (fun _ _ _ => trivial) fun a log _ =>
    (hf a).mono fun _ _ hrest => hrest.prepend log

theorem before {p : Procedure α} {f : α → Procedure β} (h : Closes bus p)
    (hf : ∀ a, Procedure.Avoids bus Access.Arms (f a)) : Closes bus (p >>= f) :=
  Finishes.bind h fun a _ hlog => (Finishes.of_avoids (hf a)).mono fun _ _ hrest =>
    hlog.append hrest

end Closes

/-- However it ends, a release has disarmed the breakpoint. -/
theorem closes_release (h : d.ShowsDebug bus) : Closes bus d.release.run := by
  have hresume : Operation.Avoids bus Access.Arms d.resume :=
    (avoids_ensureDebug not_arms_read).bind fun _ =>
      .lift (avoids_write fun _ hsends => hsends.not_arms (by decide))
  have hrest : Operation.Avoids bus Access.Arms (do d.resume; d.settle) :=
    hresume.bind fun _ => foreign_arms.settle
  rw [release, ExceptT.run_bind]
  refine (finishes_writeBreakpoint h traceBreakpoint _ (by decide)).bind fun y log hlog => ?_
  obtain ⟨rfl, looks, store, rfl, -, hsends⟩ := hlog
  have hdisarms : store.Disarms := ⟨_, hsends, by decide, by decide⟩
  have hdisarmed : EndsDisarmed [store] :=
    ⟨⟨store, by simp, hdisarms⟩, throughout_of_not_arms (by simpa using hdisarms.not_arms)⟩
  exact (Finishes.of_avoids hrest).mono fun _ _ harms => (hdisarmed.prepend looks).append harms

/-! ### The traced run -/

/-- What a traced multiplication that ends with `x` owes for a store that arms its breakpoint: a
store that disarms it, or, if nothing but the wait has come after it, that it has given up. -/
def Covered (d : Driver) (x : Except DriverError α) (_ : List Access) (access : Access)
    (after : List Access) : Prop :=
  access.Arms → (∃ disarm ∈ after, disarm.Disarms) ∨ d.GivesUp x after

theorem finishes_startAndFollow (h : d.ShowsDebug bus) (layout : LimbLayout) (t : Trace) :
    Finishes bus (fun y log => EndsDisarmed log ∨ d.GivesUp y.1 log)
      ((d.startAndFollow layout).on t) := by
  rw [startAndFollow, Recording.on_lift_bind]
  refine (Finishes.of_yields yields_waitIdle_givesUp).bind fun x log hlog => ?_
  cases x with
  | error e =>
    refine .pure (.inr ?_)
    rw [List.append_nil]
    exact (hlog e rfl).of_error
  | ok _ =>
    simp only [Recording.on_procedure_bind, followAndRelease_on]
    -- whatever following the run does, the release comes after it
    have hcloses : Closes bus (d.write .control (Command.operate .multiply).word >>= fun _ =>
        (d.followRun layout).on t >>= fun x => d.release.run >>= fun released =>
          notify (.tracedDone x.2.stepCount) >>= fun _ =>
            pure (x.1.bind fun _ => released, x.2)) :=
      .after _ fun _ => .after _ fun _ => (closes_release h).before fun _ =>
        (Procedure.Avoids.notify _).bind fun _ => .pure _
    exact hcloses.mono fun _ _ hrest => .inl (hrest.prepend log)

end Driver

namespace Recording
variable {d : Driver}

/-- Wherever it starts, and on whatever record, what arms the breakpoint is covered. -/
def Covers (bus : Bus σ) (d : Driver) (op : Recording ρ α) : Prop :=
  ∀ r, Finishes bus (fun y log => Throughout (d.Covered y.1) log) (op.on r)

namespace Covers

theorem of_avoids {op : Recording ρ α} (h : Avoids bus Access.Arms op) : Covers bus d op :=
  fun r => (Finishes.of_avoids (h r)).mono fun _ _ => throughout_of_not_arms

/-- What comes before without arming the breakpoint changes nothing. -/
theorem after {op : Recording ρ α} {f : α → Recording ρ β} (h : Avoids bus Access.Arms op)
    (hf : ∀ a, Covers bus d (f a)) : Covers bus d (op >>= f) := by
  intro r
  rw [on, ExceptT.run_bind, StateT.run_bind]
  refine (Finishes.of_avoids (h r)).bind fun x log hlog => ?_
  obtain ⟨x, q⟩ := x
  cases x with
  | error e =>
    refine .pure ?_
    rw [List.append_nil]
    exact throughout_of_not_arms hlog
  | ok a =>
    refine (hf a q).mono fun y rest hrest => ?_
    refine throughout_append (fun before access after hsplit harms => ?_) hrest fun _ _ _ hP => hP
    exact absurd harms (hlog access (by simp [hsplit]))

/-- If the first part returns it has disarmed the breakpoint, and what follows leaves it so. -/
theorem before {op : Recording ρ α} {f : α → Recording ρ β} (h : Covers bus d op)
    (hf : ∀ a, Avoids bus Access.Arms (f a)) : Covers bus d (op >>= f) := by
  intro r
  rw [on, ExceptT.run_bind, StateT.run_bind]
  refine (h r).bind fun x log hlog => ?_
  obtain ⟨x, q⟩ := x
  cases x with
  | error e =>
    refine .pure ?_
    rw [List.append_nil]
    intro before access after hsplit harms
    exact (hlog before access after hsplit harms).imp id Driver.GivesUp.of_error
  | ok a =>
    refine (Finishes.of_avoids (hf a q)).mono fun y rest hrest => ?_
    refine throughout_append (fun before access after hsplit harms => ?_)
      (throughout_of_not_arms hrest) fun _ _ _ hP => hP
    rcases hlog before access after hsplit harms with ⟨disarm, hmem, hdisarm⟩ | hgives
    · exact .inl ⟨disarm, List.mem_append_left _ hmem, hdisarm⟩
    · cases hgives.throws

end Covers

end Recording

namespace Driver
variable {d : Driver}

/-- A traced run from the arming of its breakpoint on. -/
theorem covers_armed (h : d.ShowsDebug bus) (address : UInt32) (layout : LimbLayout) :
    Recording.Covers bus d (do
      d.setBreakpoint traceBreakpoint address 0 .idle
      d.startAndFollow layout : Tracing Unit) := by
  intro t
  rw [Recording.on_lift_bind]
  refine (finishes_writeBreakpoint h traceBreakpoint _ (by decide)).bind fun x log hlog => ?_
  obtain ⟨rfl, looks, arm, rfl, hlooks, -⟩ := hlog
  refine (finishes_startAndFollow h layout t).mono fun y rest hrest => ?_
  rcases hrest with hdisarmed | hgives
  · intro before access after hsplit harms
    exact .inl ((hdisarmed.prepend (looks ++ [arm])).throughout before access after hsplit harms)
  · rw [List.append_assoc]
    refine throughout_append (fun before access after hsplit harms => ?_) ?_ fun _ _ _ hP => hP
    · exact absurd harms (hlooks access (by simp [hsplit]))
    · intro before access after hsplit harms
      cases before with
      | nil =>
        obtain ⟨-, rfl⟩ := List.cons_eq_cons.mp hsplit
        exact .inr hgives
      | cons first before =>
        obtain ⟨-, rfl⟩ := List.cons_eq_cons.mp hsplit
        exact absurd harms (hgives.busy access (by simp)).not_arms

theorem covers_traceRun (h : d.ShowsDebug bus) : Recording.Covers bus d d.traceRun := by
  have hwidth : Operation.Avoids bus Access.Arms d.limbWidth :=
    (avoids_ensureDebug not_arms_read).bind fun _ => .lift (avoids_read not_arms_read _)
  refine .after (.lift (avoids_ensureDebug not_arms_read)) fun _ =>
    .after (.procedure (avoids_size not_arms_read)) fun size => .after (.lift hwidth) fun width => ?_
  dsimp only
  split
  · exact .of_avoids (.throw _)
  · exact .after (.modify _) fun _ => .after .get fun t => covers_armed h _ _

/-! ### Loading and collecting -/

namespace Foreign
variable {P : Access → Prop} (h : Foreign P)
include h

theorem receiveWords (count : Nat) : Recording.Avoids bus P (d.receiveWords count) := by
  have hword : Operation.Avoids bus P d.receiveWord :=
    (avoids_waitIdle h.read).bind fun _ => (Operation.Avoids.lift (avoids_readWord h.read _)).bind
      fun _ => h.settle.bind fun _ => .pure _
  induction count with
  | zero => exact .pure ()
  | succ count ih =>
    exact (Recording.Avoids.lift hword).bind fun _ => (Recording.Avoids.modify _).bind fun _ => ih

theorem readInto {command : Command} (hopens : State.OpensTransfer command.word) :
    Recording.Avoids bus P (d.readInto command) := by
  intro buffer
  have hwords : Recording.Avoids bus P (d.readWords command buffer.length) :=
    (Recording.Avoids.lift (avoids_transferWords h.read _)).bind fun _ =>
      (Recording.Avoids.lift (h.writeSettled (by decide) fun _ => hopens)).bind fun _ =>
        h.receiveWords _
  exact (hwords []).bind fun _ => .pure _

/-- A settled write to a register other than the control register. -/
theorem settled {r : Sink} (hr : r ∈ handing) (hne : r ≠ .control) (word : UInt32) :
    Operation.Avoids bus P (d.writeSettled r word) := h.writeSettled hr fun heq => absurd heq hne

theorem fetchToken : Operation.Avoids bus P d.fetchToken := by
  have hopens : State.OpensTransfer (Command.readToken Number.p.address).word := opensTransfer nofun
  have hread (len : Nat) : Operation.Avoids bus P (d.readBytes (.readToken Number.p.address) len) :=
    (h.readInto hopens _).bind fun _ => .pure _
  exact (h.settled (by decide) (by decide) 1).bind fun _ =>
    (Operation.Avoids.lift (avoids_numberBytes h.read)).bind hread

theorem restoreFlags (flags : PointFlags) : Operation.Avoids bus P (d.restoreFlags flags) :=
  (h.settled (by decide) (by decide) _).bind fun _ => h.settled (by decide) (by decide) _

theorem loadMultiplication (point : Coordinates) (k : Bytes) :
    Operation.Avoids bus P (d.loadMultiplication point k) := by
  have hpoint : Operation.Avoids bus P (d.writePoint .r1 point) :=
    (h.writeNumber _ _).bind fun _ => h.writeNumber _ _
  exact h.saveFlags.bind fun flags => h.fetchToken.bind fun _ => (h.writeNumber _ _).bind fun _ =>
    hpoint.bind fun _ => (h.restoreFlags flags).bind fun _ => .pure _

theorem readPointInto (point : PointRegister) :
    Recording.Avoids bus P (d.readPointInto point) := by
  have hopens (register : Number) : State.OpensTransfer (Command.readNumber register.address).word :=
    opensTransfer nofun
  have hfront (register : Number) (len : Nat) (buffer : Bytes) :
      Procedure.Avoids bus P ((d.readFront register len).on buffer) :=
    (h.readInto (hopens register) _).bind fun _ => .pure _
  have hending (ending : Except DriverError Unit) :
      Recording.Avoids bus P (ofExcept ending : Recording Coordinates Unit) := by
    cases ending with
    | ok _ => exact .pure _
    | error e => exact .throw e
  refine (Recording.Avoids.procedure (avoids_numberBytes h.read)).bind fun len =>
    Recording.Avoids.get.bind fun buffers => ?_
  split
  · exact .throw _
  · exact (Recording.Avoids.procedure (hfront _ _ _)).bind fun x =>
      (Recording.Avoids.set _).bind fun _ => (hending _).bind fun _ =>
        (Recording.Avoids.procedure (hfront _ _ _)).bind fun y =>
          (Recording.Avoids.set _).bind fun _ => (hending _).bind fun _ => .pure _

theorem collectResult (token : Bytes) : Operation.Avoids bus P (d.collectResult token) := by
  have hunmask {γ : Type} (x : Except DriverError γ) :
      Operation.Avoids bus P (ofExcept x : Operation γ) := by
    cases x with
    | ok _ => exact .pure _
    | error e => exact .throw e
  have hcoordinates : Operation.Avoids bus P (d.readCoordinates .r1) :=
    (Operation.Avoids.lift (avoids_numberBytes h.read)).bind fun _ =>
      (Operation.Avoids.lift (h.readPointInto _ _)).bind fun _ => (hunmask _).bind fun _ => .pure _
  have hinfinite : Operation.Avoids bus P (d.isInfinite .r1) :=
    (avoids_waitIdle h.read).bind fun _ =>
      (Operation.Avoids.lift (avoids_read h.read _)).bind fun _ => .pure _
  have hpoint : Operation.Avoids bus P (d.readPoint .r1) :=
    hcoordinates.bind fun _ => hinfinite.bind fun _ => .pure _
  exact hpoint.bind fun _ => (hunmask _).bind fun _ => (hunmask _).bind fun _ => .pure _

end Foreign

/-- **A traced multiplication disarms its breakpoint, unless it gives up before it has started.** On a
bus that shows an engine for debugging, whatever else it answers, whatever the poll limit and the
trace: when the call ends, with a result or an error, each store that has armed the breakpoint is
followed by one that disarms it. The one exception is a call that gives up waiting for the engine
right after it has armed the breakpoint, and throws that. -/
theorem multiplyTraced_disarms (bus : Bus σ) (d : Driver) (h : d.ShowsDebug bus)
    (point : Coordinates) (k : Bytes) (trace trace' : Trace) (s t : σ)
    (x : Except DriverError PointAnswer)
    (hends : Ends bus ((d.multiplyTraced point k).on trace) s (x, trace') t) :
    Throughout (d.Covered x) (((d.multiplyTraced point k).on trace).accesses bus s) := by
  have hcovers : Recording.Covers bus d (d.multiplyTraced point k) :=
    .after (.procedure (.notify _)) fun _ => .after (.lift (avoids_ensureDebug not_arms_read))
      fun _ => .after (.lift (foreign_arms.loadMultiplication _ _)) fun _ =>
        (covers_traceRun h).before fun _ => .lift (foreign_arms.collectResult _)
  have hrun : (((d.multiplyTraced point k).on trace).run bus s).1.result? = some (x, trace') := by
    rw [show _ = _ from hends]
    rfl
  exact hcovers trace s (x, trace') hrun

end Driver

/-! ### An engine that becomes busy -/

/-- A bus to an engine for debugging that is idle at its first looks at the status, so many of
them, and busy from then on. -/
def Bus.tiring : Bus Nat where
  read _ offset looks :=
    match Source.ofOffset? offset with
    | some .status => (.ok (if looks = 0 then 1 else 0x400), looks - 1)
    | some .capabilities => (.ok 1, looks)
    | some .primeSize | some .limbWidth => (.ok 32, looks)
    | _ => (.ok 0, looks)
  write _ _ _ looks := (.ok (), looks)
  hear _ looks := looks

namespace Driver

/-- A small traced multiplication, by a driver that looks at the status once. -/
def glancedRun : Procedure (Except DriverError PointAnswer × Trace) :=
  ((⟨{ pollLimit := some 1 }, 0⟩ : Driver).multiplyTraced ⟨[5], [6]⟩ [7]).on
    (.new ⟨none, none, .standard⟩)

theorem showsDebug_tiring : (⟨{ pollLimit := some 1 }, 0⟩ : Driver).ShowsDebug .tiring := by
  rintro s value t ⟨⟩
  decide

/-- An engine that refuses to start is released all the same. -/
theorem multiplyTraced_disarms_refused :
    ∃ before arm after, glancedRun.accesses .tiring 100 = before ++ arm :: after ∧ arm.Arms ∧
      ∃ disarm ∈ after, disarm.Disarms := by
  have hends : ∃ trace' t, Ends .tiring glancedRun 100 (.error .unexpectedHalt, trace') t :=
    ⟨_, _, rfl⟩
  have hfrom : (glancedRun.accesses .tiring 100).drop 58 =
      .write .word Sink.breakpoint.offset 1 (.ok ()) :: (glancedRun.accesses .tiring 100).drop 59 := by
    rfl
  have hsplit := (List.take_append_drop 58 (glancedRun.accesses .tiring 100)).symm
  rw [hfrom] at hsplit
  have harms : (Access.write .word Sink.breakpoint.offset 1 (.ok ())).Arms :=
    ⟨1, ⟨rfl, rfl⟩, by decide, by decide⟩
  obtain ⟨trace', t, hends⟩ := hends
  refine ⟨_, _, _, hsplit, harms, ?_⟩
  rcases multiplyTraced_disarms .tiring _ showsDebug_tiring _ _ _ trace' 100 t _ hends _ _ _ hsplit
    harms with hdisarmed | hgives
  · exact hdisarmed
  · cases hgives.throws

/-- **A call that gives up right after it has armed the breakpoint leaves it armed.** -/
theorem multiplyTraced_stays_armed :
    (⟨{ pollLimit := some 1 }, 0⟩ : Driver).ShowsDebug .tiring ∧
      (∃ trace' t, Ends .tiring glancedRun 36 (.error .unresponsive, trace') t) ∧
      ∃ before arm after, glancedRun.accesses .tiring 36 = before ++ arm :: after ∧ arm.Arms ∧
        ∀ access ∈ after, ¬ access.Disarms := by
  have hlast : (glancedRun.accesses .tiring 36).drop 58 =
      [.write .word Sink.breakpoint.offset 1 (.ok ()), .read .word Source.status.offset (.ok 1)] := by
    rfl
  have hsplit := (List.take_append_drop 58 (glancedRun.accesses .tiring 36)).symm
  rw [hlast] at hsplit
  refine ⟨showsDebug_tiring, ⟨_, _, rfl⟩, _, _, _, hsplit, ⟨1, ⟨rfl, rfl⟩, by decide, by decide⟩, ?_⟩
  rintro access hin ⟨_, hdisarms, -⟩
  obtain rfl := List.mem_singleton.mp hin
  exact hdisarms

end Driver

end CurveEngine
