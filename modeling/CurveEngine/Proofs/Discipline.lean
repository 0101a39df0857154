import CurveEngine.Proofs.Operands
import CurveEngine.Proofs.TracedRun

/-! The steps that the operations of a driver are made of.

Every operation keeps to one discipline about what it reads and writes and when it waits for
the engine. `Disciplined` is that discipline as a grammar: a procedure is disciplined if it is
put together from certain steps, and its failure, if its result carries one, ends it. Some
registers may be read or written at any time; others are written to an idle engine only, which
is then waited for and checked for errors. A few steps stay in one piece, since what they do
depends on what they did before: the transfers of numbers, a look at the status of an idle
engine, and a traced multiplication from the arming of its breakpoint on. A transfer is a step
of a call and is disciplined in itself, in a scope of its own.

What holds of every step, and of a sequence if it holds of its parts, holds of all that a
driver does, by induction on the grammar. -/
namespace CurveEngine
open Register Procedure

variable {α β : Type}

/-- The failure that a result carries. -/
def failureOf : Except DriverError α → Option DriverError
  | .ok _ => none
  | .error e => some e

/-- Whether the engine has latched the errors, and not the driver refused or given up. -/
def DriverError.isHardware : DriverError → Bool
  | .hardware _ => true
  | _ => false

/-! ### Registers -/

namespace Register

/-- Registers that may be read at any time. -/
def Source.isPlain : Source → Bool
  | .status | .readData | .waiting _ => false
  | _ => true

theorem Source.ne_status_of_isPlain {r : Source} (h : r.isPlain = true) : r ≠ .status := by
  rintro rfl
  cases h

/-- Registers that are written to an idle engine only. -/
def Sink.guarded : List Sink :=
  [.control, .writeData, .r0Null, .r1Null, .primeSize, .blinding, .shuffle, .zremask, .token, .irq,
    .smallScalar, .trngControl, .trngConfig, .xyShuffle, .axiMask, .tokenMask]

/-- Registers after whose writes the engine is checked for errors: those of the random number
generator are not among them. -/
def Sink.checked : List Sink :=
  [.control, .writeData, .r0Null, .r1Null, .primeSize, .blinding, .shuffle, .zremask, .token, .irq,
    .smallScalar, .xyShuffle, .axiMask, .tokenMask]

theorem Sink.guarded_of_checked {r : Sink} (h : r ∈ checked) : r ∈ guarded := by
  revert h
  cases r <;> decide

/-- Registers that may be written at any time. -/
def Sink.isFree (r : Sink) : Bool := r ∉ guarded && r ≠ .errorAck

theorem Sink.isFree_iff {r : Sink} : r.isFree = true ↔ r ∉ guarded ∧ r ≠ .errorAck := by
  simp only [isFree, Bool.and_eq_true, decide_eq_true_eq]

theorem Sink.ne_control_of_isFree {r : Sink} (h : r.isFree = true) : r ≠ .control := by
  rintro rfl
  cases h

end Register

/-! ### Calls -/

namespace Call

/-- Whether a call sets the prime size. -/
def setsSize : Call → Bool
  | .setSize _ | .setCurve .. => true
  | _ => false

/-- Whether a call blinds scalars. -/
def blinds : Call → Bool
  | .enableBlinding _ => true
  | _ => false

/-- The writes that a call settles, those of a transfer apart. -/
def Settles (call : Call) (word : UInt32) : Sink → Prop
  | .control => call.isTraced = false ∧ ∃ operation, call.operation? = some operation ∧
      word = (Command.operate operation).word
  | .primeSize => call.setsSize = true
  | .blinding => word = 0 ∨ call.blinds = true
  | .shuffle => call = .enableShuffling ∧ word = 1 ∨ call = .disableShuffling ∧ word = 0
  | .r0Null | .r1Null | .zremask | .token | .irq | .smallScalar
  | .xyShuffle | .axiMask | .tokenMask => True
  | _ => False

theorem Settles.mem_checked {call : Call} {r : Sink} {word : UInt32} (h : call.Settles word r) :
    r ∈ Sink.checked := by
  cases r <;> first | exact h.elim | decide

end Call

/-- What a step is a part of. -/
inductive Scope where
  /-- A call, but for its transfers and for the traced part of a multiplication. -/
  | calling (call : Call)
  /-- A transfer of a number. -/
  | transferring
  /-- The traced part of a multiplication. -/
  | following

/-- Whether a step belongs to a call as a whole. -/
def Scope.isCall : Scope → Bool
  | .calling _ => true
  | _ => false

/-- The registers that may be read at a time of one's own choice. The status and the counts of
waiting random numbers are left to the calls that ask for them. -/
def Scope.Reads (r : Source) : Scope → Prop
  | .calling call => r.isPlain = true ∨ call = .status ∧ r = .status ∨
      call = .waitingCounts ∧ ∃ channel, r = .waiting channel
  | _ => r.isPlain = true

theorem Scope.reads_of_isPlain {r : Source} (h : r.isPlain = true) (scope : Scope) :
    scope.Reads r := by
  cases scope with
  | calling call => exact .inl h
  | _ => exact h

theorem Scope.Reads.ne_readData {scope : Scope} {r : Source} (h : scope.Reads r) :
    r ≠ .readData := by
  rintro rfl
  cases scope with
  | calling call =>
    rcases h with h | ⟨-, h⟩ | ⟨-, _, h⟩
    · cases h
    · cases h
    · cases h
  | transferring => cases h
  | following => cases h

/-- What a status word is read for, if that does not change while an engine gets ready. -/
def Lasting (f : UInt32 → α) : Prop :=
  ∃ g : Bool → Bool → Bool → Bool → α, ∀ word, f word =
    g (Status.multiplying.test word) (Status.yes.test word) (Status.r0Null.test word)
      (Status.r1Null.test word)

/-! ### The grammar -/

namespace Driver

/-- The accesses that are made to an idle engine, which is then settled. -/
inductive Enclosable (d : Driver) : {α : Type} → Procedure α → Prop
  | write {r : Sink} (h : r ∈ Sink.checked) (word : UInt32) : Enclosable d (d.write r word)
  | send (word : UInt64) : Enclosable d (d.writeWord .writeData word)
  | receive : Enclosable d (d.readWord .readData)

/-- An access to an idle engine, which is then settled. -/
def enclosed (d : Driver) (access : Procedure α) : Operation α := do
  d.waitIdle
  let a ← access
  d.settle
  pure a

/-- Operations of a call that leave the engine idle. -/
inductive Resting (d : Driver) (call : Call) : Operation Unit → Prop
  | waitIdle : Resting d call d.waitIdle
  | writeSettled {r : Sink} {word : UInt32} (h : call.Settles word r) :
    Resting d call (d.writeSettled r word)

end Driver

namespace Procedure

/-- The procedure keeps to the discipline of the driver; `failure` is the failure that a result
carries. -/
inductive Disciplined (d : Driver) :
    Scope → {α : Type} → (α → Option DriverError) → Procedure α → Prop
  /-- Nothing is left to do. The driver makes up no error of the engine's. -/
  | done {scope : Scope} {α : Type} {failure : α → Option DriverError} (a : α)
      (h : ∀ e, failure a = some e → e.isHardware = false) : Disciplined d scope failure (pure a)
  | spent {scope : Scope} {α : Type} {failure : α → Option DriverError} :
      Disciplined d scope failure .spent
  | notify {scope : Scope} (notice : Notice) :
      Disciplined d scope (fun _ => none) (notify notice)
  | read {scope : Scope} {r : Source} (h : scope.Reads r) :
      Disciplined d scope (fun _ => none) (d.read r)
  | write {scope : Scope} {r : Sink} {word : UInt32} (h : r.isFree = true) :
      Disciplined d scope (fun _ => none) (d.write r word)
  | rest {call : Call} {op : Operation Unit} (h : d.Resting call op) :
      Disciplined d (.calling call) failureOf op.run
  /-- A look at the status of an engine that has been left idle. -/
  | look {call : Call} {op : Operation Unit} (h : d.Resting call op) {α : Type} {f : UInt32 → α}
      (hf : Lasting f) : Disciplined d (.calling call) failureOf
        (do op; let word ← d.status; pure (f word) : Operation α).run
  /-- A look at the status of an engine in the middle of something. -/
  | glance {scope : Scope} (h : scope.isCall = false) {α : Type} (f : UInt32 → α)
      (hf : scope = .following → Lasting f) : Disciplined d scope (fun _ => none)
      (do let word ← d.status; pure (f word))
  | settle : Disciplined d .following failureOf d.settle.run
  | enclosed {α : Type} {access : Procedure α} (h : d.Enclosable access) :
      Disciplined d .transferring failureOf (d.enclosed access).run
  | transmit {call : Call} (destination : Destination) (words : List UInt64)
      (parts : Disciplined d .transferring failureOf
        (do d.openWrite destination; words.forM d.sendWord : Operation Unit).run) :
      Disciplined d (.calling call) failureOf
        (do d.openWrite destination; words.forM d.sendWord : Operation Unit).run
  | receive {call : Call} {command : Command} (h : Driver.Fetches command) (count : Nat)
      (received : List UInt64)
      (parts : Disciplined d .transferring (fun x => failureOf x.1)
        ((do d.writeSettled .control command.word; d.receiveWords count :
          Recording (List UInt64) Unit).on received)) :
      Disciplined d (.calling call) (fun x => failureOf x.1)
        ((do d.writeSettled .control command.word; d.receiveWords count :
          Recording (List UInt64) Unit).on received)
  /-- A write to the random number generator. -/
  | entropy {call : Call} {r : Sink} (h : r = .trngControl ∨ r = .trngConfig) (word : UInt32) :
      Disciplined d (.calling call) failureOf
        (do d.waitIdle; d.write r word; d.waitIdle : Operation Unit).run
  /-- The traced part of a multiplication, from the arming of its breakpoint on. -/
  | pursue {call : Call} (h : call.isTraced = true) (address : UInt32) (layout : LimbLayout)
      (t : Trace)
      (arm : Disciplined d (.calling call) failureOf
        (d.setBreakpoint Driver.traceBreakpoint address 0 .idle).run)
      (follow : Disciplined d .following (fun x => failureOf x.1) ((d.followRun layout).on t))
      (release : Disciplined d .following failureOf d.release.run) :
      Disciplined d (.calling call) (fun x => failureOf x.1)
        ((do d.setBreakpoint Driver.traceBreakpoint address 0 .idle; d.startAndFollow layout :
          Driver.Tracing Unit).on t)
  /-- A sequence, which goes on only if its first part has not failed. -/
  | bind {scope : Scope} {α β : Type} {failure : α → Option DriverError}
      {failure' : β → Option DriverError} {p : Procedure α} {f : α → Procedure β}
      (hp : Disciplined d scope failure p)
      (hf : ∀ a, failure a = none → Disciplined d scope failure' (f a))
      (fails : ∀ a e, failure a = some e → ∃ b, f a = pure b ∧ failure' b = some e) :
      Disciplined d scope failure' (p >>= f)

namespace Disciplined
variable {d : Driver} {scope : Scope} {failure : α → Option DriverError}
  {failure' : β → Option DriverError} {p : Procedure α}

/-- A sequence whose first part does not fail. -/
theorem andThen {f : α → Procedure β} (hp : Disciplined d scope (fun _ => none) p)
    (hf : ∀ a, Disciplined d scope failure' (f a)) : Disciplined d scope failure' (p >>= f) :=
  hp.bind (fun a _ => hf a) nofun

/-- What is made of a result keeps its failure. -/
theorem map {g : α → β} (hp : Disciplined d scope failure p)
    (hg : ∀ a, failure' (g a) = failure a) :
    Disciplined d scope failure' (p >>= fun a => pure (g a)) := by
  refine hp.bind (fun a ha => .done _ fun e he => ?_) fun a e ha => ⟨g a, rfl, (hg a).trans ha⟩
  rw [hg, ha] at he
  cases he

end Disciplined

end Procedure

/-! ### Operations -/

namespace Operation

/-- The operation keeps to the discipline of the driver. -/
def Disciplined (d : Driver) (scope : Scope) (op : Operation α) : Prop :=
  Procedure.Disciplined d scope failureOf op.run

namespace Disciplined
variable {d : Driver} {scope : Scope}

theorem pure (a : α) : Disciplined d scope (pure a) := Procedure.Disciplined.done _ nofun

theorem throw {error : DriverError} (h : error.isHardware = false) :
    Disciplined d scope (throw error : Operation α) :=
  Procedure.Disciplined.done _ fun _ he => Option.some_inj.mp he ▸ h

theorem bind {op : Operation α} {f : α → Operation β} (hop : Disciplined d scope op)
    (hf : ∀ a, Disciplined d scope (f a)) : Disciplined d scope (op >>= f) := by
  rw [Disciplined, ExceptT.run_bind]
  refine Procedure.Disciplined.bind hop (fun x hx => ?_) fun x e hx => ?_
  · cases x with
    | ok a => exact hf a
    | error e => cases hx
  · cases x with
    | ok a => cases hx
    | error e' => exact ⟨.error e', rfl, hx⟩

theorem lift {p : Procedure α} (hp : Procedure.Disciplined d scope (fun _ => none) p) :
    Disciplined d scope (liftM p : Operation α) := by
  show Procedure.Disciplined d scope failureOf (Except.ok <$> p)
  rw [← bind_pure_comp]
  exact hp.map fun _ => rfl

theorem notify (notice : Notice) :
    Disciplined d scope (liftM (notify notice) : Operation Unit) := lift (.notify notice)

theorem ofExcept {x : Except DriverError α} (h : ∀ e, x = .error e → e.isHardware = false) :
    Disciplined d scope (ofExcept x : Operation α) := by
  cases x with
  | ok a => exact pure a
  | error e => exact throw (h e rfl)

theorem forM {f : α → Operation Unit} (xs : List α) (h : ∀ x, Disciplined d scope (f x)) :
    Disciplined d scope (xs.forM f) := by
  induction xs with
  | nil => exact pure ()
  | cons x xs ih => exact (h x).bind fun _ => ih

theorem pollUntil {check : Procedure Bool}
    (hcheck : Procedure.Disciplined d scope (fun _ => none) check) :
    Disciplined d scope (d.pollUntil check) := by
  have hpoll {exhausted : Operation Unit} (h : Disciplined d scope exhausted) (count : Nat) :
      Disciplined d scope (Driver.poll exhausted check count) := by
    induction count with
    | zero => exact h
    | succ count ih =>
      refine (lift hcheck).bind fun ready => ?_
      cases ready with
      | true => exact pure ()
      | false => exact ih
  unfold Driver.pollUntil
  split
  · exact hpoll (throw rfl) _
  · exact hpoll (lift .spent) _

end Disciplined

end Operation

/-! ### Recordings -/

namespace Recording
variable {ρ : Type}

/-- The recording keeps to the discipline of the driver, on whatever record. -/
def Disciplined (d : Driver) (scope : Scope) (op : Recording ρ α) : Prop :=
  ∀ r, Procedure.Disciplined d scope (fun x => failureOf x.1) (op.on r)

namespace Disciplined
variable {d : Driver} {scope : Scope}

theorem pure (a : α) : Disciplined d scope (pure a : Recording ρ α) :=
  fun r => Procedure.Disciplined.done (Except.ok a, r) nofun

theorem throw {error : DriverError} (h : error.isHardware = false) :
    Disciplined d scope (throw error : Recording ρ α) :=
  fun r => Procedure.Disciplined.done (Except.error error, r)
    fun _ he => Option.some_inj.mp he ▸ h

theorem bind {op : Recording ρ α} {f : α → Recording ρ β} (hop : Disciplined d scope op)
    (hf : ∀ a, Disciplined d scope (f a)) : Disciplined d scope (op >>= f) := by
  intro r
  rw [on, ExceptT.run_bind, StateT.run_bind]
  refine (hop r).bind (fun x hx => ?_) fun x e hx => ?_
  · obtain ⟨x, q⟩ := x
    cases x with
    | ok a => exact hf a q
    | error e => cases hx
  · obtain ⟨x, q⟩ := x
    cases x with
    | ok a => cases hx
    | error e' => exact ⟨(.error e', q), rfl, hx⟩

theorem lift {op : Operation α} (hop : Operation.Disciplined d scope op) :
    Disciplined d scope (liftM op : Recording ρ α) :=
  fun r => Procedure.Disciplined.map (g := fun x => (x, r)) hop fun _ => rfl

theorem procedure {p : Procedure α} (hp : Procedure.Disciplined d scope (fun _ => none) p) :
    Disciplined d scope (liftM p : Recording ρ α) := lift (.lift hp)

theorem get : Disciplined d scope (get : Recording ρ ρ) :=
  fun r => Procedure.Disciplined.done (Except.ok r, r) nofun

theorem set (x : ρ) : Disciplined d scope (set x : Recording ρ PUnit) :=
  fun _ => Procedure.Disciplined.done (Except.ok _, x) nofun

theorem modify (f : ρ → ρ) : Disciplined d scope (modify f : Recording ρ Unit) :=
  fun r => Procedure.Disciplined.done (Except.ok (), f r) nofun

theorem spent : Disciplined d scope
    (ExceptT.lift (StateT.lift .spent) : Recording ρ α) :=
  fun _ => Procedure.Disciplined.spent

end Disciplined

end Recording

end CurveEngine
