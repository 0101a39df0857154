import CurveEngine.Proofs.Running

/-! Two procedures that make the same accesses.

Two procedures go `Alongside` if each access and each notice of the one is an access or a notice
of the other, whatever is answered, and the results that they are done with are related. On any
bus they then end alike, and the bus cannot tell them apart (`Alongside.run`). Two recordings go
alongside under a relation of records if, begun on related records, they make the same accesses,
come to the same result and leave related records. -/
namespace CurveEngine
open Procedure

variable {α β γ δ σ : Type}

/-! ### Outcomes -/

/-- Two runs end alike, with related results where they are done. -/
inductive Outcome.Agree (S : α → β → Prop) : Outcome α → Outcome β → Prop where
  | done {a : α} {b : β} (h : S a b) : Agree S (.done a) (.done b)
  | refused (refusal : Refusal) : Agree S (.refused refusal) (.refused refusal)
  | spent : Agree S .spent .spent

namespace Outcome.Agree
variable {S T : α → β → Prop} {x : Outcome α} {y : Outcome β}

theorem mono (h : Agree S x y) (hST : ∀ a b, S a b → T a b) : Agree T x y := by
  cases h with
  | done h => exact .done (hST _ _ h)
  | refused refusal => exact .refused refusal
  | spent => exact .spent

/-- Where one of two runs is done, so is the other. -/
theorem done_right {b : β} (h : Agree S x (.done b)) : ∃ a, x = .done a ∧ S a b := by
  cases h with
  | done h => exact ⟨_, rfl, h⟩

end Outcome.Agree

/-! ### Procedures -/

namespace Procedure

/-- Two procedures make the same accesses, and their results are related. -/
inductive Alongside (S : α → β → Prop) : Procedure α → Procedure β → Prop where
  | done {a : α} {b : β} (h : S a b) : Alongside S (.done a) (.done b)
  | load {next : UInt64 → Procedure α} {next' : UInt64 → Procedure β} (size : AccessSize)
      (offset : UInt32) (h : ∀ value, Alongside S (next value) (next' value)) :
      Alongside S (.load size offset next) (.load size offset next')
  | store {next : Unit → Procedure α} {next' : Unit → Procedure β} (size : AccessSize)
      (offset : UInt32) (value : UInt64) (h : Alongside S (next ()) (next' ())) :
      Alongside S (.store size offset value next) (.store size offset value next')
  | note {next : Unit → Procedure α} {next' : Unit → Procedure β} (notice : Notice)
      (h : Alongside S (next ()) (next' ())) :
      Alongside S (.note notice next) (.note notice next')
  | spent : Alongside S .spent .spent

namespace Alongside
variable {S : α → β → Prop} {T : γ → δ → Prop} {p : Procedure α} {q : Procedure β}

/-- A procedure goes alongside itself. -/
theorem refl (p : Procedure α) : Alongside Eq p p := by
  induction p with
  | done a => exact .done rfl
  | load size offset next ih => exact .load size offset ih
  | store size offset value next ih => exact .store size offset value (ih ())
  | note notice next ih => exact .note notice (ih ())
  | spent => exact .spent

theorem bind {f : α → Procedure γ} {g : β → Procedure δ} (h : Alongside S p q)
    (hf : ∀ a b, S a b → Alongside T (f a) (g b)) : Alongside T (p >>= f) (q >>= g) := by
  show Alongside T (p.bind f) (q.bind g)
  induction h with
  | done h => exact hf _ _ h
  | load size offset _ ih => exact .load size offset ih
  | store size offset value _ ih => exact .store size offset value ih
  | note notice _ ih => exact .note notice ih
  | spent => exact .spent

/-- On any bus, procedures that go alongside end alike, and leave the bus in the same state. -/
theorem run (h : Alongside S p q) (bus : Bus σ) (s : σ) :
    Outcome.Agree S (p.run bus s).1 (q.run bus s).1 ∧ (p.run bus s).2 = (q.run bus s).2 := by
  induction h generalizing s with
  | done h => exact ⟨.done h, rfl⟩
  | spent => exact ⟨.spent, rfl⟩
  | load size offset _ ih =>
    simp only [Procedure.run]
    split
    · exact ih _ _
    · exact ⟨.refused _, rfl⟩
  | store size offset value _ ih =>
    simp only [Procedure.run]
    split
    · exact ih _
    · exact ⟨.refused _, rfl⟩
  | note notice _ ih => exact ih _

end Alongside

end Procedure

/-! ### Recordings -/

namespace Recording
variable {ρ : Type} {R : ρ → ρ → Prop}

/-- From related records, two recordings make the same accesses, come to the same result and leave
related records. -/
def Alongside (R : ρ → ρ → Prop) (op op' : Recording ρ α) : Prop :=
  ∀ r r', R r r' → Procedure.Alongside (fun x y => x.1 = y.1 ∧ R x.2 y.2) (op.on r) (op'.on r')

namespace Alongside

theorem pure (a : α) : Alongside R (pure a) (pure a) := fun _ _ h => .done ⟨rfl, h⟩

theorem throw (error : DriverError) :
    Alongside R (throw error : Recording ρ α) (throw error) := fun _ _ h => .done ⟨rfl, h⟩

theorem ofExcept (x : Except DriverError α) :
    Alongside R (ofExcept x : Recording ρ α) (ofExcept x) := by
  cases x with
  | ok a => exact .pure a
  | error e => exact .throw e

theorem spent : Alongside R (ExceptT.lift (StateT.lift .spent) : Recording ρ α)
    (ExceptT.lift (StateT.lift .spent)) := fun _ _ _ => .spent

theorem modify {f g : ρ → ρ} (h : ∀ r r', R r r' → R (f r) (g r')) :
    Alongside R (modify f : Recording ρ Unit) (modify g) := fun r r' hr => .done ⟨rfl, h r r' hr⟩

theorem bind {op op' : Recording ρ α} {f g : α → Recording ρ β} (h : Alongside R op op')
    (hf : ∀ a, Alongside R (f a) (g a)) : Alongside R (op >>= f) (op' >>= g) := by
  intro r r' hr
  rw [on, on, ExceptT.run_bind, ExceptT.run_bind, StateT.run_bind, StateT.run_bind]
  refine (h r r' hr).bind ?_
  rintro ⟨x, q⟩ ⟨y, q'⟩ ⟨rfl, hq⟩
  cases x with
  | ok a => exact hf a q q' hq
  | error e => exact .done ⟨rfl, hq⟩

/-- What follows a look at the records may depend on what is alike in them. -/
theorem get {f g : ρ → Recording ρ α} (h : ∀ r r', R r r' → Alongside R (f r) (g r')) :
    Alongside R (get >>= f) (get >>= g) := fun r r' hr => h r r' hr r r' hr

/-- An operation makes its accesses whatever the record. -/
theorem lift (op : Operation α) : Alongside R (liftM op : Recording ρ α) (liftM op) := by
  intro r r' hr
  refine (Procedure.Alongside.refl op.run).bind ?_
  rintro x _ rfl
  exact .done ⟨rfl, hr⟩

theorem procedure (p : Procedure α) : Alongside R (liftM p : Recording ρ α) (liftM p) :=
  lift (liftM p)

theorem attempt {op op' : Recording ρ α} (h : Alongside R op op') :
    Alongside R op.attempt op'.attempt := by
  intro r r' hr
  refine (h r r' hr).bind ?_
  rintro ⟨x, q⟩ ⟨y, q'⟩ ⟨rfl, hq⟩
  exact .done ⟨rfl, hq⟩

end Alongside

end Recording

end CurveEngine
