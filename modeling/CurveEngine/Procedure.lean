import CurveEngine.Bus
import CurveEngine.Error
import CurveEngine.Notice

/-! What a driver does, access by access.

A `Procedure α` is a finite description of a dialogue with an engine: load an offset
and go on with the answer, store a value, give notice, or be done with a result. It
names no bus, so the same procedure can be run against a model, against scripted
answers, or against any function that answers loads. A loop without a bound of its own
is given fuel; a procedure whose fuel ends is `spent`, which is neither a result nor a
failure.

An `Operation α` is a procedure that may fail with a `DriverError`, a `Recording σ α` one
that also keeps a record of type `σ`. `run` performs a procedure on a bus; a faulting
access ends it with the fault. `run_bind` says that sequencing procedures is running one
after the other. -/
namespace CurveEngine

inductive Procedure (α : Type) where
  | done (result : α)
  | load (size : AccessSize) (offset : UInt32) (next : UInt64 → Procedure α)
  | store (size : AccessSize) (offset : UInt32) (value : UInt64) (next : Unit → Procedure α)
  | note (notice : Notice) (next : Unit → Procedure α)
  | spent

namespace Procedure

def bind {α β : Type} : Procedure α → (α → Procedure β) → Procedure β
  | .done a, f => f a
  | .load size offset next, f => .load size offset fun v => (next v).bind f
  | .store size offset value next, f => .store size offset value fun u => (next u).bind f
  | .note notice next, f => .note notice fun u => (next u).bind f
  | .spent, _ => .spent

instance : Monad Procedure where
  pure := Procedure.done
  bind := Procedure.bind

theorem bind_done {α : Type} (p : Procedure α) : p.bind .done = p := by
  induction p with
  | done | spent => rfl
  | load size offset next ih => simp only [bind, ih]
  | store size offset value next ih => simp only [bind, ih]
  | note notice next ih => simp only [bind, ih]

theorem bind_assoc {α β γ : Type} (p : Procedure α) (f : α → Procedure β)
    (g : β → Procedure γ) : (p.bind f).bind g = p.bind fun a => (f a).bind g := by
  induction p with
  | done | spent => rfl
  | load size offset next ih => simp only [bind, ih]
  | store size offset value next ih => simp only [bind, ih]
  | note notice next ih => simp only [bind, ih]

instance : LawfulMonad Procedure :=
  LawfulMonad.mk' Procedure bind_done (fun _ _ => rfl) bind_assoc

/-! ### Single accesses -/

def loadWord (size : AccessSize) (offset : UInt32) : Procedure UInt64 :=
  .load size offset .done

def storeWord (size : AccessSize) (offset : UInt32) (value : UInt64) : Procedure Unit :=
  .store size offset value .done

def notify (notice : Notice) : Procedure Unit := .note notice .done

end Procedure

/-! ### Running -/

/-- Something that answers accesses and hears notices. -/
structure Bus (σ : Type) where
  read : AccessSize → UInt32 → σ → Except BusFault UInt64 × σ
  write : AccessSize → UInt32 → UInt64 → σ → Except BusFault Unit × σ
  hear : Notice → σ → σ

/-- A refused access of a running procedure. -/
inductive Refusal where
  | read (offset : UInt32) (fault : BusFault)
  | write (offset : UInt32) (value : UInt64) (fault : BusFault)
  deriving Repr, DecidableEq

def Refusal.message : Refusal → String
  | .read offset fault =>
    "IPECC bus read of " ++ Hex.padded 3 offset.toNat ++ " faulted: " ++ fault.name
  | .write offset value fault =>
    "IPECC bus write of " ++ Hex.literal value.toNat ++ " to " ++
      Hex.padded 3 offset.toNat ++ " faulted: " ++ fault.name

/-- How the run of a procedure ends. -/
inductive Outcome (α : Type) where
  | done (result : α)
  /-- The bus refused an access. -/
  | refused (refusal : Refusal)
  /-- The fuel of an unbounded loop ended. -/
  | spent
  deriving Repr, DecidableEq

namespace Procedure

/-- Performs a procedure on a bus. -/
def run {σ α : Type} (bus : Bus σ) : Procedure α → σ → Outcome α × σ
  | .done a, s => (.done a, s)
  | .load size offset next, s =>
    match bus.read size offset s with
    | (.ok v, s) => (next v).run bus s
    | (.error fault, s) => (.refused (.read offset fault), s)
  | .store size offset value next, s =>
    match bus.write size offset value s with
    | (.ok _, s) => (next ()).run bus s
    | (.error fault, s) => (.refused (.write offset value fault), s)
  | .note notice next, s => (next ()).run bus (bus.hear notice s)
  | .spent, s => (.spent, s)

theorem run_bind {σ α β : Type} (bus : Bus σ) (p : Procedure α) (f : α → Procedure β) (s : σ) :
    (p.bind f).run bus s =
      match p.run bus s with
      | (.done a, t) => (f a).run bus t
      | (.refused r, t) => (.refused r, t)
      | (.spent, t) => (.spent, t) := by
  induction p generalizing s with
  | done | spent => rfl
  | load size offset next ih =>
    simp only [bind, run]
    split
    · exact ih ..
    · rfl
  | store size offset value next ih =>
    simp only [bind, run]
    split
    · exact ih ..
    · rfl
  | note notice next ih => exact ih ..

end Procedure

/-! ### Failing and recording -/

/-- A procedure that may fail. -/
abbrev Operation := ExceptT DriverError Procedure

/-- An operation that writes to a record on the way. What it has written stays when it
fails. -/
abbrev Recording (σ : Type) := ExceptT DriverError (StateT σ Procedure)

namespace Recording
variable {σ α : Type}

/-- An operation that leaves the record alone. -/
instance : MonadLift Operation (Recording σ) where
  monadLift op := ExceptT.mk fun record => do
    let result ← op.run
    pure (result, record)

/-- Performs a recording on a given record; the record comes back with the result. -/
def on (op : Recording σ α) (record : σ) : Procedure (Except DriverError α × σ) :=
  op.run.run record

/-- Goes on after a failure, with the failure as the result. -/
def attempt (op : Recording σ α) : Recording σ (Except DriverError α) := ExceptT.lift op.run

end Recording

end CurveEngine
