import CurveEngine.Proofs.Access

/-! Two procedures run side by side.

Two runs go `Abreast` if they end alike and leave related states; two procedures are in
`Lockstep` under a relation if they go abreast from any two states that it relates. The
relation is an invariant of both runs: a sequence is in lockstep if its parts are, whatever
ends it on the way, a result, an error or a refused access. With one procedure on both
sides and a relation that holds of equal states only (`Both`), lockstep says what the
procedure keeps, failing or not (`Procedure.Lockstep.keeps`). -/
namespace CurveEngine
open Procedure Device

variable {α β : Type} {R : State → State → Prop}

namespace Procedure

/-- Run from `s` and from `t`, two procedures end alike, and in related states. -/
def Abreast (R : State → State → Prop) (p : Procedure α) (s : State) (q : Procedure α)
    (t : State) : Prop :=
  ∃ x u v, p.run bus s = (x, u) ∧ q.run bus t = (x, v) ∧ R u v

/-- Two procedures go abreast from related states. -/
def Lockstep (R : State → State → Prop) (p q : Procedure α) : Prop :=
  ∀ s t, R s t → Abreast R p s q t

theorem Abreast.of_ends {p q : Procedure α} {s t u v : State} {a : α} (hp : Ends bus p s a u)
    (hq : Ends bus q t a v) (h : R u v) : Abreast R p s q t := ⟨_, u, v, hp, hq, h⟩

theorem Abreast.mono {R' : State → State → Prop} {p q : Procedure α} {s t : State}
    (h : Abreast R p s q t) (hR : ∀ u v, R u v → R' u v) : Abreast R' p s q t := by
  obtain ⟨x, u, v, hp, hq, hr⟩ := h
  exact ⟨x, u, v, hp, hq, hR u v hr⟩

/-- Where one of two procedures that go abreast is done, so is the other. -/
theorem Abreast.ends {p q : Procedure α} {s t u : State} {a : α} (h : Abreast R p s q t)
    (hp : Ends bus p s a u) : ∃ v, Ends bus q t a v ∧ R u v := by
  obtain ⟨x, w, v, hs, ht, hr⟩ := h
  unfold Ends at hp
  rw [hs, Prod.mk.injEq] at hp
  obtain ⟨rfl, rfl⟩ := hp
  exact ⟨v, ht, hr⟩

/-- What follows goes on from where two procedures are done. -/
theorem Abreast.bind {p q : Procedure α} {f g : α → Procedure β} {s t : State}
    (h : Abreast R p s q t)
    (hf : ∀ a u v, Ends bus p s a u → Ends bus q t a v → R u v → Abreast R (f a) u (g a) v) :
    Abreast R (p >>= f) s (q >>= g) t := by
  obtain ⟨x, u, v, hp, hq, hr⟩ := h
  have hleft : (p >>= f).run bus s = _ := run_bind bus p f s
  have hright : (q >>= g).run bus t = _ := run_bind bus q g t
  rw [hp] at hleft
  rw [hq] at hright
  cases x with
  | done a =>
    obtain ⟨y, w, w', hw, hw', hr'⟩ := hf a u v hp hq hr
    exact ⟨y, w, w', hleft.trans hw, hright.trans hw', hr'⟩
  | refused refusal => exact ⟨_, u, v, hleft, hright, hr⟩
  | spent => exact ⟨_, u, v, hleft, hright, hr⟩

/-- The first parts of two sequences may end in results of their own. -/
theorem Abreast.of_ends_bind {γ : Type} {p q : Procedure γ} {f g : γ → Procedure α}
    {s t u v : State} {a b : γ} (hp : Ends bus p s a u) (hq : Ends bus q t b v)
    (h : Abreast R (f a) u (g b) v) : Abreast R (p >>= f) s (q >>= g) t := by
  obtain ⟨x, w, w', hw, hw', hr⟩ := h
  have hleft : (p >>= f).run bus s = _ := run_bind bus p f s
  have hright : (q >>= g).run bus t = _ := run_bind bus q g t
  rw [show p.run bus s = _ from hp] at hleft
  rw [show q.run bus t = _ from hq] at hright
  exact ⟨x, w, w', hleft.trans hw, hright.trans hw', hr⟩

namespace Lockstep

theorem pure (a : α) : Lockstep R (pure a) (pure a) :=
  fun s t h => ⟨.done a, s, t, rfl, rfl, h⟩

theorem spent : Lockstep R (.spent : Procedure α) .spent :=
  fun s t h => ⟨.spent, s, t, rfl, rfl, h⟩

theorem notify (notice : Notice) : Lockstep R (notify notice) (notify notice) :=
  fun s t h => ⟨.done (), s, t, rfl, rfl, h⟩

theorem bind {p q : Procedure α} {f g : α → Procedure β} (h : Lockstep R p q)
    (hf : ∀ a, Lockstep R (f a) (g a)) : Lockstep R (p >>= f) (q >>= g) :=
  fun s t hr => (h s t hr).bind fun a u v _ _ hr' => hf a u v hr'

theorem map (f : α → β) {p q : Procedure α} (h : Lockstep R p q) :
    Lockstep R (f <$> p) (f <$> q) := by
  rw [← bind_pure_comp, ← bind_pure_comp]
  exact h.bind fun a => pure (f a)

/-- What a procedure keeps when it is in lockstep with itself. -/
theorem keeps {I : State → Prop} {p : Procedure α}
    (h : Lockstep (fun s t => s = t ∧ I s) p p) {s t : State} {a : α} (hs : I s)
    (hp : Ends bus p s a t) : I t := by
  obtain ⟨v, -, -, hv⟩ := (h s s ⟨rfl, hs⟩).ends hp
  exact hv

end Lockstep

end Procedure

/-! ### Operations -/

namespace Operation

/-- Two operations go abreast, whether they return or throw. -/
def Lockstep (R : State → State → Prop) (op op' : Operation α) : Prop :=
  Procedure.Lockstep R op.run op'.run

/-- What follows an operation that returns goes on from there. -/
theorem abreast_bind {op op' : Operation α} {f f' : α → Operation β} {s t : State}
    (h : Abreast R op.run s op'.run t)
    (hf : ∀ a u v, Returns bus op s a u → Returns bus op' t a v → R u v →
      Abreast R (f a).run u (f' a).run v) :
    Abreast R (op >>= f).run s (op' >>= f').run t := by
  rw [ExceptT.run_bind, ExceptT.run_bind]
  refine h.bind fun x u v hu hv hr => ?_
  cases x with
  | ok a => exact hf a u v hu hv hr
  | error e => exact Procedure.Lockstep.pure _ u v hr

/-- The first parts of two sequences may return values of their own. -/
theorem abreast_of_returns {γ : Type} {op op' : Operation γ} {f f' : γ → Operation α}
    {s t u v : State} {a b : γ} (hop : Returns bus op s a u) (hop' : Returns bus op' t b v)
    (h : Abreast R (f a).run u (f' b).run v) :
    Abreast R (op >>= f).run s (op' >>= f').run t := by
  rw [ExceptT.run_bind, ExceptT.run_bind]
  exact Abreast.of_ends_bind hop hop' h

namespace Lockstep

theorem pure (a : α) : Lockstep R (pure a) (pure a) := Procedure.Lockstep.pure (Except.ok a)

theorem throw (error : DriverError) : Lockstep R (throw error : Operation α) (throw error) :=
  Procedure.Lockstep.pure (Except.error error)

theorem bind {op op' : Operation α} {f f' : α → Operation β} (h : Lockstep R op op')
    (hf : ∀ a, Lockstep R (f a) (f' a)) : Lockstep R (op >>= f) (op' >>= f') :=
  fun s t hr => abreast_bind (h s t hr) fun a u v _ _ hr' => hf a u v hr'

theorem lift {p q : Procedure α} (h : Procedure.Lockstep R p q) :
    Lockstep R (liftM p : Operation α) (liftM q) := h.map Except.ok

theorem notify (notice : Notice) :
    Lockstep R (liftM (notify notice) : Operation Unit) (liftM (Procedure.notify notice)) :=
  lift (.notify notice)

theorem ofExcept (x : Except DriverError α) : Lockstep R (ofExcept x) (ofExcept x) := by
  cases x with
  | ok a => exact pure a
  | error e => exact throw e

theorem forM {f f' : α → Operation Unit} (xs : List α) (h : ∀ x ∈ xs, Lockstep R (f x) (f' x)) :
    Lockstep R (xs.forM f) (xs.forM f') := by
  induction xs with
  | nil => exact pure ()
  | cons x xs ih =>
    exact (h x List.mem_cons_self).bind fun _ => ih fun y hy => h y (List.mem_cons_of_mem _ hy)

/-- Polls with one number of checks go abreast. -/
theorem poll {exhausted exhausted' : Operation Unit} {check check' : Procedure Bool}
    (hexhausted : Lockstep R exhausted exhausted') (hcheck : Procedure.Lockstep R check check')
    (count : Nat) :
    Lockstep R (Driver.poll exhausted check count) (Driver.poll exhausted' check' count) := by
  induction count with
  | zero => exact hexhausted
  | succ count ih =>
    refine (lift hcheck).bind fun ready => ?_
    cases ready with
    | true => exact pure ()
    | false => exact ih

end Lockstep

end Operation

/-! ### Recordings -/

namespace Recording
variable {ρ : Type}

/-- Two recordings go abreast, on whatever record. -/
def Lockstep (R : State → State → Prop) (op op' : Recording ρ α) : Prop :=
  ∀ r, Procedure.Lockstep R (op.on r) (op'.on r)

/-- What follows a recording that returns goes on from there. -/
theorem abreast_bind {op op' : Recording ρ α} {f f' : α → Recording ρ β} {r : ρ} {s t : State}
    (h : Abreast R (op.on r) s (op'.on r) t)
    (hf : ∀ a q u v, Returns bus op r s a q u → Returns bus op' r t a q v → R u v →
      Abreast R ((f a).on q) u ((f' a).on q) v) :
    Abreast R ((op >>= f).on r) s ((op' >>= f').on r) t := by
  rw [on, on, ExceptT.run_bind, ExceptT.run_bind, StateT.run_bind, StateT.run_bind]
  refine h.bind fun x u v hu hv hr => ?_
  obtain ⟨x, q⟩ := x
  cases x with
  | ok a => exact hf a q u v hu hv hr
  | error e => exact Procedure.Lockstep.pure _ u v hr

namespace Lockstep

theorem pure (a : α) : Lockstep R (pure a : Recording ρ α) (pure a) :=
  fun r => Procedure.Lockstep.pure (Except.ok a, r)

theorem throw (error : DriverError) :
    Lockstep R (throw error : Recording ρ α) (throw error) :=
  fun r => Procedure.Lockstep.pure (Except.error error, r)

theorem bind {op op' : Recording ρ α} {f f' : α → Recording ρ β} (h : Lockstep R op op')
    (hf : ∀ a, Lockstep R (f a) (f' a)) : Lockstep R (op >>= f) (op' >>= f') :=
  fun r s t hr => abreast_bind (h r s t hr) fun a q u v _ _ hr' => hf a q u v hr'

theorem lift {op op' : Operation α} (h : Operation.Lockstep R op op') :
    Lockstep R (liftM op : Recording ρ α) (liftM op') :=
  fun r => Procedure.Lockstep.bind h fun x => .pure (x, r)

theorem procedure {p q : Procedure α} (h : Procedure.Lockstep R p q) :
    Lockstep R (liftM p : Recording ρ α) (liftM q) := lift (.lift h)

theorem get : Lockstep R (get : Recording ρ ρ) get :=
  fun r => Procedure.Lockstep.pure (Except.ok r, r)

theorem set (x : ρ) : Lockstep R (set x : Recording ρ PUnit) (set x) :=
  fun _ => Procedure.Lockstep.pure (Except.ok _, x)

theorem modify (f : ρ → ρ) : Lockstep R (modify f : Recording ρ Unit) (modify f) :=
  fun r => Procedure.Lockstep.pure (Except.ok (), f r)

theorem ofExcept (x : Except DriverError α) :
    Lockstep R (ofExcept x : Recording ρ α) (ofExcept x) := by
  cases x with
  | ok a => exact pure a
  | error e => exact throw e

theorem spent : Lockstep R (ExceptT.lift (StateT.lift .spent) : Recording ρ α)
    (ExceptT.lift (StateT.lift .spent)) :=
  fun _ s t h => ⟨.spent, s, t, rfl, rfl, h⟩

theorem attempt {op op' : Recording ρ α} (h : Lockstep R op op') :
    Lockstep R op.attempt op'.attempt :=
  fun r => (h r).map fun p : Except DriverError α × ρ =>
    ((Except.ok p.1, p.2) : Except DriverError (Except DriverError α) × ρ)

end Lockstep

end Recording

end CurveEngine
