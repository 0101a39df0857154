import CurveEngine.Procedure

/-! How a procedure, an operation and a recording come to an end.

`Ends` says that a procedure, run on a bus from a state, is done with a result in a
further state. An operation that is done either `Returns` a value or `Throws` an error,
and a recording does so with a record beside it. Each relation is read along the text of
a procedure: a sequence ends if and only if its first part ends and the rest ends from
there (`ends_bind`, `returns_bind`, `throws_bind`). -/
namespace CurveEngine

variable {σ α β : Type} {bus : Bus σ}

namespace Procedure

/-- Run from `s`, the procedure is done with `a` in `t`. -/
def Ends (bus : Bus σ) (p : Procedure α) (s : σ) (a : α) (t : σ) : Prop :=
  p.run bus s = (.done a, t)

theorem ends_pure (a b : α) (s t : σ) : Ends bus (pure a) s b t ↔ b = a ∧ t = s := by
  show (Outcome.done a, s) = (Outcome.done b, t) ↔ _
  rw [Prod.mk.injEq, Outcome.done.injEq]
  exact and_congr eq_comm eq_comm

theorem ends_bind (p : Procedure α) (f : α → Procedure β) (s u : σ) (b : β) :
    Ends bus (p >>= f) s b u ↔ ∃ a t, Ends bus p s a t ∧ Ends bus (f a) t b u := by
  show (p.bind f).run bus s = _ ↔ _
  rw [run_bind]
  simp only [Ends]
  constructor
  · intro h
    split at h
    · rename_i a t hp
      exact ⟨a, t, hp, h⟩
    · cases h
    · cases h
  · rintro ⟨a, t, hp, hf⟩
    rw [hp]
    exact hf

theorem ends_map (f : α → β) (p : Procedure α) (s u : σ) (b : β) :
    Ends bus (f <$> p) s b u ↔ ∃ a, Ends bus p s a u ∧ b = f a := by
  rw [← bind_pure_comp, ends_bind]
  simp only [ends_pure]
  constructor
  · rintro ⟨a, t, hp, rfl, rfl⟩
    exact ⟨a, hp, rfl⟩
  · rintro ⟨a, hp, rfl⟩
    exact ⟨a, u, hp, rfl, rfl⟩

theorem ends_notify (notice : Notice) (s t : σ) (a : Unit) :
    Ends bus (notify notice) s a t ↔ t = bus.hear notice s := by
  show (Outcome.done (), bus.hear notice s) = (Outcome.done a, t) ↔ _
  rw [Prod.mk.injEq]
  exact ⟨fun h => h.2.symm, fun h => ⟨rfl, h.symm⟩⟩

/-- A procedure is done in one way only. -/
theorem Ends.unique {p : Procedure α} {s t t' : σ} {a a' : α} (h : Ends bus p s a t)
    (h' : Ends bus p s a' t') : a' = a ∧ t' = t := by
  unfold Ends at h h'
  rw [h, Prod.mk.injEq, Outcome.done.injEq] at h'
  exact ⟨h'.1.symm, h'.2.symm⟩

/-- What every answer of the bus preserves, every procedure preserves. -/
theorem run_preserves {I : σ → Prop}
    (read : ∀ size offset s, I s → I (bus.read size offset s).2)
    (write : ∀ size offset value s, I s → I (bus.write size offset value s).2)
    (hear : ∀ notice s, I s → I (bus.hear notice s)) (p : Procedure α) {s : σ} (h : I s) :
    I (p.run bus s).2 := by
  induction p generalizing s with
  | done | spent => exact h
  | load size offset next ih =>
    have hread := read size offset s h
    simp only [run]
    split
    · rename_i hanswer
      rw [hanswer] at hread
      exact ih _ hread
    · rename_i hanswer
      rwa [hanswer] at hread
  | store size offset value next ih =>
    have hwrite := write size offset value s h
    simp only [run]
    split
    · rename_i hanswer
      rw [hanswer] at hwrite
      exact ih _ hwrite
    · rename_i hanswer
      rwa [hanswer] at hwrite
  | note notice next ih => exact ih () (hear notice s h)

end Procedure

open Procedure

/-! ### Operations -/

namespace Operation

/-- Run from `s`, the operation is done with the value `a` in `t`. -/
def Returns (bus : Bus σ) (op : Operation α) (s : σ) (a : α) (t : σ) : Prop :=
  Ends bus op.run s (.ok a) t

/-- Run from `s`, the operation is done with the error in `t`. -/
def Throws (bus : Bus σ) (op : Operation α) (s : σ) (error : DriverError) (t : σ) : Prop :=
  Ends bus op.run s (.error error) t

theorem returns_pure (a b : α) (s t : σ) :
    Returns bus (pure a) s b t ↔ b = a ∧ t = s := by
  show Ends bus (pure (Except.ok a)) s _ t ↔ _
  rw [ends_pure, Except.ok.injEq]

theorem not_returns_throw (error : DriverError) (s t : σ) (a : α) :
    ¬ Returns bus (throw error) s a t := fun h => nomatch (ends_pure _ _ s t).mp h

theorem throws_throw (error error' : DriverError) (s t : σ) :
    Throws bus (throw error : Operation α) s error' t ↔ error' = error ∧ t = s := by
  show Ends bus (pure (Except.error error)) s _ t ↔ _
  rw [ends_pure, Except.error.injEq]

theorem ends_run_bind (op : Operation α) (f : α → Operation β) (s u : σ)
    (r : Except DriverError β) :
    Ends bus (op >>= f).run s r u ↔
      (∃ a t, Returns bus op s a t ∧ Ends bus (f a).run t r u) ∨
        ∃ error, Throws bus op s error u ∧ r = .error error := by
  rw [ExceptT.run_bind, ends_bind]
  constructor
  · rintro ⟨x, t, hop, hrest⟩
    cases x with
    | ok a => exact .inl ⟨a, t, hop, hrest⟩
    | error e =>
      obtain ⟨rfl, rfl⟩ := (ends_pure _ _ _ _).mp hrest
      exact .inr ⟨e, hop, rfl⟩
  · rintro (⟨a, t, hop, hrest⟩ | ⟨e, hop, rfl⟩)
    · exact ⟨.ok a, t, hop, hrest⟩
    · exact ⟨.error e, u, hop, (ends_pure _ _ _ _).mpr ⟨rfl, rfl⟩⟩

theorem returns_bind (op : Operation α) (f : α → Operation β) (s u : σ) (b : β) :
    Returns bus (op >>= f) s b u ↔ ∃ a t, Returns bus op s a t ∧ Returns bus (f a) t b u := by
  refine (ends_run_bind op f s u _).trans ⟨?_, .inl⟩
  rintro (h | ⟨e, -, h⟩)
  · exact h
  · cases h

theorem throws_bind (op : Operation α) (f : α → Operation β) (s u : σ) (error : DriverError) :
    Throws bus (op >>= f) s error u ↔
      Throws bus op s error u ∨ ∃ a t, Returns bus op s a t ∧ Throws bus (f a) t error u := by
  refine (ends_run_bind op f s u _).trans ⟨?_, ?_⟩
  · rintro (h | ⟨e, h, he⟩)
    · exact .inr h
    · cases he
      exact .inl h
  · rintro (h | h)
    · exact .inr ⟨error, h, rfl⟩
    · exact .inl h

/-- What the first part of a sequence throws, the sequence throws. -/
theorem Throws.bind {op : Operation α} {f : α → Operation β} {s t : σ} {error : DriverError}
    (h : Throws bus op s error t) : Throws bus (op >>= f) s error t :=
  (throws_bind op f s t error).mpr (.inl h)

/-- What the rest of a sequence throws, the sequence throws. -/
theorem Returns.throws {op : Operation α} {f : α → Operation β} {s t u : σ} {a : α}
    {error : DriverError} (h : Returns bus op s a t) (h' : Throws bus (f a) t error u) :
    Throws bus (op >>= f) s error u :=
  (throws_bind op f s u error).mpr (.inr ⟨a, t, h, h'⟩)

theorem run_lift_bind (p : Procedure α) (f : α → Operation β) :
    ((liftM p : Operation α) >>= f).run = p >>= fun a => (f a).run := by
  show (p >>= fun a => pure (Except.ok a)) >>= _ = _
  rw [LawfulMonad.bind_assoc]
  rfl

theorem returns_lift (p : Procedure α) (s t : σ) (a : α) :
    Returns bus (liftM p : Operation α) s a t ↔ Ends bus p s a t := by
  show Ends bus (Except.ok <$> p) s (.ok a) t ↔ _
  rw [ends_map]
  constructor
  · rintro ⟨b, h, hb⟩
    cases hb
    exact h
  · exact fun h => ⟨a, h, rfl⟩

theorem returns_notify (notice : Notice) (s : σ) :
    Returns bus (liftM (notify notice) : Operation Unit) s () (bus.hear notice s) :=
  (returns_lift _ _ _ _).mpr ((ends_notify _ _ _ _).mpr rfl)

theorem not_throws_lift (p : Procedure α) (s t : σ) (error : DriverError) :
    ¬ Throws bus (liftM p : Operation α) s error t := by
  intro h
  obtain ⟨a, -, ha⟩ := (ends_map Except.ok p s t _).mp h
  cases ha

theorem returns_ofExcept (x : Except DriverError α) (s t : σ) (a : α) :
    Returns bus (ofExcept x : Operation α) s a t ↔ x = .ok a ∧ t = s := by
  cases x with
  | ok b =>
    rw [Except.ok.injEq]
    exact (returns_pure b a s t).trans (and_congr_left' eq_comm)
  | error e =>
    refine ⟨fun h => (not_returns_throw e s t a h).elim, fun h => nomatch h.1⟩

theorem Returns.unique {op : Operation α} {s t t' : σ} {a a' : α} (h : Returns bus op s a t)
    (h' : Returns bus op s a' t') : a' = a ∧ t' = t := by
  obtain ⟨ha, ht⟩ := Ends.unique h h'
  exact ⟨Except.ok.inj ha, ht⟩

/-- An operation does not both return and throw. -/
theorem Returns.not_throws {op : Operation α} {s t t' : σ} {a : α} {error : DriverError}
    (h : Returns bus op s a t) : ¬ Throws bus op s error t' :=
  fun h' => nomatch (Ends.unique h h').1

/-- After what an operation returns, the rest of a sequence is left. -/
theorem Returns.ends_run_bind {op : Operation α} {f : α → Operation β} {s t u : σ} {a : α}
    {r : Except DriverError β} (h : Returns bus op s a t) :
    Ends bus (op >>= f).run s r u ↔ Ends bus (f a).run t r u := by
  rw [Operation.ends_run_bind]
  constructor
  · rintro (⟨b, v, hb, hrest⟩ | ⟨e, he, -⟩)
    · obtain ⟨rfl, rfl⟩ := h.unique hb
      exact hrest
    · exact absurd he h.not_throws
  · exact fun hrest => .inl ⟨a, t, h, hrest⟩

/-- A sequence of operations, one for each element of a list. -/
theorem returns_forM_cons (f : α → Operation Unit) (x : α) (xs : List α) (s u : σ) :
    Returns bus ((x :: xs).forM f) s () u ↔
      ∃ t, Returns bus (f x) s () t ∧ Returns bus (xs.forM f) t () u := by
  show Returns bus (f x >>= fun _ => xs.forM f) s () u ↔ _
  rw [returns_bind]
  exact ⟨fun ⟨_, t, h⟩ => ⟨t, h⟩, fun ⟨t, h⟩ => ⟨(), t, h⟩⟩

theorem returns_forM_nil (f : α → Operation Unit) (s t : σ) :
    Returns bus (([] : List α).forM f) s () t ↔ t = s := by
  show Returns bus (pure ()) s () t ↔ _
  rw [returns_pure]
  exact ⟨fun h => h.2, fun h => ⟨rfl, h⟩⟩

end Operation

/-! ### Recordings -/

namespace Recording
variable {ρ : Type}

/-- Run from `s` on the record `r`, the recording is done with the value `a` in `t`, and
the record is `r'`. -/
def Returns (bus : Bus σ) (op : Recording ρ α) (r : ρ) (s : σ) (a : α) (r' : ρ) (t : σ) : Prop :=
  Ends bus (op.on r) s (.ok a, r') t

/-- Run from `s` on the record `r`, the recording is done with the error in `t`, and the
record is `r'`. -/
def Throws (bus : Bus σ) (op : Recording ρ α) (r : ρ) (s : σ) (error : DriverError) (r' : ρ)
    (t : σ) : Prop :=
  Ends bus (op.on r) s (.error error, r') t

theorem returns_pure (a b : α) (r r' : ρ) (s t : σ) :
    Returns bus (pure a : Recording ρ α) r s b r' t ↔ b = a ∧ r' = r ∧ t = s := by
  show Ends bus (pure (Except.ok a, r)) s _ t ↔ _
  rw [ends_pure, Prod.mk.injEq, Except.ok.injEq, and_assoc]

theorem not_returns_throw (error : DriverError) (r r' : ρ) (s t : σ) (a : α) :
    ¬ Returns bus (throw error : Recording ρ α) r s a r' t := by
  intro h
  have := (ends_pure (Except.error error, r) (Except.ok a, r') s t).mp h
  cases this.1

theorem throws_throw (error error' : DriverError) (r r' : ρ) (s t : σ) :
    Throws bus (throw error : Recording ρ α) r s error' r' t ↔
      error' = error ∧ r' = r ∧ t = s := by
  show Ends bus (pure (Except.error error, r)) s _ t ↔ _
  rw [ends_pure, Prod.mk.injEq, Except.error.injEq, and_assoc]

theorem ends_on_bind (op : Recording ρ α) (f : α → Recording ρ β) (r r'' : ρ) (s u : σ)
    (x : Except DriverError β) :
    Ends bus ((op >>= f).on r) s (x, r'') u ↔
      (∃ a r' t, Returns bus op r s a r' t ∧ Ends bus ((f a).on r') t (x, r'') u) ∨
        ∃ error, Throws bus op r s error r'' u ∧ x = .error error := by
  rw [on, ExceptT.run_bind, StateT.run_bind, ends_bind]
  constructor
  · rintro ⟨⟨y, r'⟩, t, hop, hrest⟩
    cases y with
    | ok a => exact .inl ⟨a, r', t, hop, hrest⟩
    | error e =>
      have := (ends_pure (Except.error e, r') (x, r'') t u).mp hrest
      simp only [Prod.mk.injEq] at this
      obtain ⟨⟨rfl, rfl⟩, rfl⟩ := this
      exact .inr ⟨e, hop, rfl⟩
  · rintro (⟨a, r', t, hop, hrest⟩ | ⟨e, hop, rfl⟩)
    · exact ⟨(.ok a, r'), t, hop, hrest⟩
    · exact ⟨(.error e, r''), u, hop,
        (ends_pure (Except.error e, r'') (Except.error e, r'') u u).mpr ⟨rfl, rfl⟩⟩

theorem returns_bind (op : Recording ρ α) (f : α → Recording ρ β) (r r'' : ρ) (s u : σ) (b : β) :
    Returns bus (op >>= f) r s b r'' u ↔
      ∃ a r' t, Returns bus op r s a r' t ∧ Returns bus (f a) r' t b r'' u := by
  refine (ends_on_bind op f r r'' s u _).trans ⟨?_, .inl⟩
  rintro (h | ⟨e, -, h⟩)
  · exact h
  · cases h

theorem throws_bind (op : Recording ρ α) (f : α → Recording ρ β) (r r'' : ρ) (s u : σ)
    (error : DriverError) :
    Throws bus (op >>= f) r s error r'' u ↔
      Throws bus op r s error r'' u ∨
        ∃ a r' t, Returns bus op r s a r' t ∧ Throws bus (f a) r' t error r'' u := by
  refine (ends_on_bind op f r r'' s u _).trans ⟨?_, ?_⟩
  · rintro (h | ⟨e, h, he⟩)
    · exact .inr h
    · cases he
      exact .inl h
  · rintro (h | h)
    · exact .inr ⟨error, h, rfl⟩
    · exact .inl h

/-- What a sequence returns, its last part does. -/
theorem Returns.of_bind {op : Recording ρ α} {f : α → Recording ρ β} {r r'' : ρ} {s u : σ} {b : β}
    (h : Returns bus (op >>= f) r s b r'' u) : ∃ a r' t, Returns bus (f a) r' t b r'' u := by
  obtain ⟨a, r', t, -, hrest⟩ := (returns_bind op f r r'' s u b).mp h
  exact ⟨a, r', t, hrest⟩

/-- A sequence that ends in a failure does not return. -/
theorem not_returns_bind_throw (op : Recording ρ α) (error : DriverError) (r r' : ρ) (s t : σ)
    (b : β) : ¬ Returns bus (op >>= fun _ => (throw error : Recording ρ β)) r s b r' t := by
  rw [returns_bind]
  rintro ⟨a, r'', u, -, h⟩
  exact not_returns_throw error r'' r' u t b h

/-- What the first part of a sequence throws, the sequence throws. -/
theorem Throws.bind {op : Recording ρ α} {f : α → Recording ρ β} {r r' : ρ} {s t : σ}
    {error : DriverError} (h : Throws bus op r s error r' t) :
    Throws bus (op >>= f) r s error r' t :=
  (throws_bind op f r r' s t error).mpr (.inl h)

/-- What the rest of a sequence throws, the sequence throws. -/
theorem Returns.throws {op : Recording ρ α} {f : α → Recording ρ β} {r r' r'' : ρ} {s t u : σ}
    {a : α} {error : DriverError} (h : Returns bus op r s a r' t)
    (h' : Throws bus (f a) r' t error r'' u) : Throws bus (op >>= f) r s error r'' u :=
  (throws_bind op f r r'' s u error).mpr (.inr ⟨a, r', t, h, h'⟩)

/-- After a recording that returns, the rest of a sequence is left. -/
theorem Returns.ends_on_bind {op : Recording ρ α} {f : α → Recording ρ β} {r r' r'' : ρ}
    {s t u : σ} {a : α} {x : Except DriverError β} (h : Returns bus op r s a r' t) :
    Ends bus ((op >>= f).on r) s (x, r'') u ↔ Ends bus ((f a).on r') t (x, r'') u := by
  rw [Recording.ends_on_bind]
  constructor
  · rintro (⟨b, q, w, hb, hrest⟩ | ⟨error, hthrows, -⟩)
    · obtain ⟨hvalue, rfl⟩ := h.unique hb
      simp only [Prod.mk.injEq, Except.ok.injEq] at hvalue
      obtain ⟨rfl, rfl⟩ := hvalue
      exact hrest
    · have hvalue := (h.unique hthrows).1
      simp only [Prod.mk.injEq, reduceCtorEq, false_and] at hvalue
  · exact fun hrest => .inl ⟨a, r', t, h, hrest⟩

theorem ends_on_lift (op : Operation α) (r r' : ρ) (s t : σ) (x : Except DriverError α) :
    Ends bus ((liftM op : Recording ρ α).on r) s (x, r') t ↔ r' = r ∧ Ends bus op.run s x t := by
  show Ends bus (op.run >>= fun result => pure (result, r)) s (x, r') t ↔ _
  rw [ends_bind]
  constructor
  · rintro ⟨y, u, hop, hrest⟩
    have := (ends_pure (y, r) (x, r') u t).mp hrest
    simp only [Prod.mk.injEq] at this
    obtain ⟨⟨rfl, rfl⟩, rfl⟩ := this
    exact ⟨rfl, hop⟩
  · rintro ⟨rfl, hop⟩
    exact ⟨x, t, hop, (ends_pure (x, r') (x, r') t t).mpr ⟨rfl, rfl⟩⟩

theorem on_lift_bind (op : Operation α) (f : α → Recording ρ β) (r : ρ) :
    ((liftM op : Recording ρ α) >>= f).on r = op.run >>= fun
      | .error e => pure (.error e, r)
      | .ok a => (f a).on r := by
  show ((op.run >>= fun x => pure (x, r)) >>= fun p => _) = _
  rw [LawfulMonad.bind_assoc]
  congr 1
  funext x
  cases x <;> rfl

theorem on_procedure_bind (p : Procedure α) (f : α → Recording ρ β) (r : ρ) :
    ((liftM p : Recording ρ α) >>= f).on r = p >>= fun a => (f a).on r := by
  show ((p >>= fun a => pure (Except.ok a)) >>= fun x => pure (x, r)) >>= _ = _
  rw [LawfulMonad.bind_assoc, LawfulMonad.bind_assoc]
  rfl

theorem on_attempt_bind (op : Recording ρ α) (f : Except DriverError α → Recording ρ β) (r : ρ) :
    (op.attempt >>= f).on r = op.on r >>= fun x => (f x.1).on x.2 := by
  show ((fun x : Except DriverError α × ρ => (Except.ok x.1, x.2)) <$> op.on r) >>= _ = _
  rw [← bind_pure_comp, LawfulMonad.bind_assoc]
  rfl

theorem returns_lift (op : Operation α) (r r' : ρ) (s t : σ) (a : α) :
    Returns bus (liftM op : Recording ρ α) r s a r' t ↔
      r' = r ∧ Operation.Returns bus op s a t := ends_on_lift op r r' s t _

theorem throws_lift (op : Operation α) (r r' : ρ) (s t : σ) (error : DriverError) :
    Throws bus (liftM op : Recording ρ α) r s error r' t ↔
      r' = r ∧ Operation.Throws bus op s error t := ends_on_lift op r r' s t _

theorem Returns.lift {op : Operation α} {s t : σ} {a : α} (h : Operation.Returns bus op s a t)
    (r : ρ) : Returns bus (liftM op : Recording ρ α) r s a r t :=
  (returns_lift op r r s t a).mpr ⟨rfl, h⟩

theorem Throws.lift {op : Operation α} {s t : σ} {error : DriverError}
    (h : Operation.Throws bus op s error t) (r : ρ) :
    Throws bus (liftM op : Recording ρ α) r s error r t :=
  (throws_lift op r r s t error).mpr ⟨rfl, h⟩

theorem returns_procedure (p : Procedure α) (r r' : ρ) (s t : σ) (a : α) :
    Returns bus (liftM p : Recording ρ α) r s a r' t ↔ r' = r ∧ Ends bus p s a t := by
  show Returns bus (liftM (liftM p : Operation α) : Recording ρ α) r s a r' t ↔ _
  rw [returns_lift, Operation.returns_lift]

theorem returns_notify (notice : Notice) (r : ρ) (s : σ) :
    Returns bus (liftM (notify notice) : Recording ρ Unit) r s () r (bus.hear notice s) :=
  (returns_procedure _ _ _ _ _ _).mpr ⟨rfl, (ends_notify _ _ _ _).mpr rfl⟩

theorem not_throws_procedure (p : Procedure α) (r r' : ρ) (s t : σ) (error : DriverError) :
    ¬ Throws bus (liftM p : Recording ρ α) r s error r' t := by
  intro h
  exact Operation.not_throws_lift p s t error ((throws_lift (liftM p) r r' s t error).mp h).2

theorem ends_on_ofExcept (x y : Except DriverError α) (r r' : ρ) (s t : σ) :
    Ends bus ((ofExcept y : Recording ρ α).on r) s (x, r') t ↔ x = y ∧ r' = r ∧ t = s := by
  have hpure : (ofExcept y : Recording ρ α).on r = pure (y, r) := by
    cases y <;> rfl
  rw [hpure, ends_pure, Prod.mk.injEq, and_assoc]

theorem returns_ofExcept (x : Except DriverError α) (r r' : ρ) (s t : σ) (a : α) :
    Returns bus (ofExcept x : Recording ρ α) r s a r' t ↔ x = .ok a ∧ r' = r ∧ t = s := by
  cases x with
  | ok b =>
    rw [Except.ok.injEq]
    exact (returns_pure b a r r' s t).trans (and_congr_left' eq_comm)
  | error e => exact ⟨fun h => (not_returns_throw e r r' s t a h).elim, fun h => nomatch h.1⟩

theorem returns_set (x r r' : ρ) (s t : σ) (a : PUnit) :
    Returns bus (set x : Recording ρ PUnit) r s a r' t ↔ r' = x ∧ t = s := by
  show Ends bus (pure (Except.ok _, x)) s _ t ↔ _
  rw [ends_pure, Prod.mk.injEq]
  exact ⟨fun h => ⟨h.1.2, h.2⟩, fun h => ⟨⟨rfl, h.1⟩, h.2⟩⟩

theorem returns_modify (f : ρ → ρ) (r r' : ρ) (s t : σ) (a : Unit) :
    Returns bus (modify f : Recording ρ Unit) r s a r' t ↔ r' = f r ∧ t = s := by
  show Ends bus (pure (Except.ok (), f r)) s _ t ↔ _
  rw [ends_pure, Prod.mk.injEq]
  exact ⟨fun h => ⟨h.1.2, h.2⟩, fun h => ⟨⟨rfl, h.1⟩, h.2⟩⟩

theorem not_throws_get (r r' : ρ) (s t : σ) (error : DriverError) :
    ¬ Throws bus (get : Recording ρ ρ) r s error r' t := by
  intro h
  have hpure := (ends_pure (Except.ok r, r) (Except.error error, r') s t).mp h
  cases hpure.1

theorem returns_get (r r' : ρ) (s t : σ) (a : ρ) :
    Returns bus (get : Recording ρ ρ) r s a r' t ↔ a = r ∧ r' = r ∧ t = s := by
  show Ends bus (pure (Except.ok r, r)) s _ t ↔ _
  rw [ends_pure, Prod.mk.injEq, Except.ok.injEq, and_assoc]

/-- After a failure the recording goes on, with the failure as the result. -/
theorem returns_attempt (op : Recording ρ α) (r r' : ρ) (s t : σ) (x : Except DriverError α) :
    Returns bus op.attempt r s x r' t ↔ Ends bus (op.on r) s (x, r') t := by
  show Ends bus ((fun p : Except DriverError α × ρ => (Except.ok p.1, p.2)) <$> op.on r) s
    (.ok x, r') t ↔ _
  rw [ends_map]
  constructor
  · rintro ⟨⟨y, r''⟩, h, hy⟩
    simp only [Prod.mk.injEq, Except.ok.injEq] at hy
    obtain ⟨rfl, rfl⟩ := hy
    exact h
  · exact fun h => ⟨(x, r'), h, rfl⟩

theorem not_throws_attempt (op : Recording ρ α) (r r' : ρ) (s t : σ) (error : DriverError) :
    ¬ Throws bus op.attempt r s error r' t := by
  intro h
  obtain ⟨a, -, ha⟩ := (ends_map
    (fun p : Except DriverError α × ρ => ((Except.ok p.1, p.2) : Except DriverError _ × ρ))
    (op.on r) s t _).mp h
  cases ha

end Recording

end CurveEngine
