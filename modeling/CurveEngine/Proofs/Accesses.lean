import CurveEngine.Bus.Monitor
import CurveEngine.Proofs.Settling
import CurveEngine.Driver.Number

/-! The accesses that a procedure makes.

A run on a bus makes its accesses in order, up to one that the bus refuses. Whether one of
them has a property is read along the text of a procedure, as its end is (`makes_bind`). A
procedure may also avoid such accesses wherever it starts: reading and waiting store nothing,
and a transfer of a number sends no command but its own. -/
namespace CurveEngine
open Procedure

variable {σ α β : Type} {bus : Bus σ} {P : Access → Prop}

namespace Procedure

/-- The accesses that a procedure makes on a bus, in order. -/
def accesses (bus : Bus σ) : Procedure α → σ → List Access
  | .done _, _ => []
  | .load size offset next, s =>
    match bus.read size offset s with
    | (.ok v, s) => .read size offset (.ok v) :: (next v).accesses bus s
    | (.error fault, _) => [.read size offset (.error fault)]
  | .store size offset value next, s =>
    match bus.write size offset value s with
    | (.ok u, s) => .write size offset value (.ok u) :: (next ()).accesses bus s
    | (.error fault, _) => [.write size offset value (.error fault)]
  | .note notice next, s => (next ()).accesses bus (bus.hear notice s)
  | .spent, _ => []

theorem accesses_bind (p : Procedure α) (f : α → Procedure β) (s : σ) :
    (p.bind f).accesses bus s = p.accesses bus s ++
      match p.run bus s with
      | (.done a, t) => (f a).accesses bus t
      | _ => [] := by
  induction p generalizing s with
  | done => rfl
  | spent => rfl
  | load size offset next ih =>
    rcases hanswer : bus.read size offset s with ⟨answer, t⟩
    cases answer with
    | ok v => simp only [bind, accesses, run, hanswer, ih, List.cons_append]
    | error fault => simp only [bind, accesses, run, hanswer, List.append_nil]
  | store size offset value next ih =>
    rcases hanswer : bus.write size offset value s with ⟨answer, t⟩
    cases answer with
    | ok u => simp only [bind, accesses, run, hanswer, ih, List.cons_append]
    | error fault => simp only [bind, accesses, run, hanswer, List.append_nil]
  | note notice next ih => exact ih ..

/-- Run from `s`, the procedure makes an access with a property. -/
def Makes (bus : Bus σ) (P : Access → Prop) (p : Procedure α) (s : σ) : Prop :=
  ∃ access ∈ p.accesses bus s, P access

theorem makes_bind (p : Procedure α) (f : α → Procedure β) (s : σ) :
    Makes bus P (p >>= f) s ↔
      Makes bus P p s ∨ ∃ a t, Ends bus p s a t ∧ Makes bus P (f a) t := by
  have hbind : (p >>= f).accesses bus s = _ := accesses_bind p f s
  simp only [Makes, hbind, List.mem_append, or_and_right, exists_or]
  refine or_congr_right ?_
  unfold Ends
  constructor
  · rintro ⟨access, haccess, hP⟩
    split at haccess
    · rename_i a t hrun
      exact ⟨a, t, hrun, access, haccess, hP⟩
    · cases haccess
  · rintro ⟨a, t, hrun, access, haccess, hP⟩
    rw [hrun]
    exact ⟨access, haccess, hP⟩

theorem not_makes_pure (a : α) (s : σ) : ¬ Makes bus P (pure a) s := by
  rintro ⟨_, h, -⟩
  cases h

theorem makes_storeWord (size : AccessSize) (offset : UInt32) (value : UInt64) (s : σ) :
    Makes bus P (storeWord size offset value) s ↔
      P (.write size offset value (bus.write size offset value s).1) := by
  have haccess : (storeWord size offset value).accesses bus s =
      [.write size offset value (bus.write size offset value s).1] := by
    unfold storeWord accesses
    split
    · rename_i hwrite
      rw [hwrite]
      rfl
    · rename_i hwrite
      rw [hwrite]
  rw [Makes, haccess]
  simp only [List.mem_singleton, exists_eq_left]

/-- Wherever it starts, the procedure makes no access with a property. -/
def Avoids (bus : Bus σ) (P : Access → Prop) (p : Procedure α) : Prop := ∀ s, ¬ Makes bus P p s

namespace Avoids

theorem pure (a : α) : Avoids bus P (pure a) := not_makes_pure a

theorem notify (notice : Notice) : Avoids bus P (notify notice) := by
  rintro s ⟨_, h, -⟩
  cases h

theorem spent : Avoids bus P (.spent : Procedure α) := by
  rintro s ⟨_, h, -⟩
  cases h

theorem bind {p : Procedure α} {f : α → Procedure β} (h : Avoids bus P p)
    (hf : ∀ a, Avoids bus P (f a)) : Avoids bus P (p >>= f) := by
  intro s hmakes
  rcases (makes_bind p f s).mp hmakes with hp | ⟨a, t, -, hrest⟩
  · exact h s hp
  · exact hf a t hrest

theorem map (f : α → β) {p : Procedure α} (h : Avoids bus P p) : Avoids bus P (f <$> p) := by
  rw [← bind_pure_comp]
  exact h.bind fun a => pure (f a)

theorem loadWord {size : AccessSize} {offset : UInt32}
    (h : ∀ answer, ¬ P (.read size offset answer)) : Avoids bus P (loadWord size offset) := by
  rintro s ⟨access, haccess, hP⟩
  unfold Procedure.loadWord accesses at haccess
  split at haccess
  · obtain rfl | hnone := List.mem_cons.mp haccess
    · exact h _ hP
    · cases hnone
  · obtain rfl := List.mem_singleton.mp haccess
    exact h _ hP

end Avoids

end Procedure

/-! ### Operations -/

namespace Operation

/-- A sequence makes what its first part makes, and what comes after that if it returns. -/
theorem makes_seq (op : Operation α) (f : α → Operation β) (s : σ) :
    Makes bus P (op >>= f).run s ↔
      Makes bus P op.run s ∨ ∃ a t, Returns bus op s a t ∧ Makes bus P (f a).run t := by
  rw [ExceptT.run_bind, makes_bind]
  refine or_congr_right ⟨?_, ?_⟩
  · rintro ⟨x, t, hop, hrest⟩
    cases x with
    | ok a => exact ⟨a, t, hop, hrest⟩
    | error e => exact absurd hrest (not_makes_pure _ _)
  · rintro ⟨a, t, hop, hrest⟩
    exact ⟨.ok a, t, hop, hrest⟩

/-- What comes after an operation that returns is made by the sequence. -/
theorem Returns.makes {op : Operation α} {f : α → Operation β} {s t : σ} {a : α}
    (h : Returns bus op s a t) (hf : Makes bus P (f a).run t) :
    Makes bus P (op >>= f).run s := (makes_seq op f s).mpr (.inr ⟨a, t, h, hf⟩)

/-- What the first part makes, the sequence makes. -/
theorem makes_bind_left {op : Operation α} (f : α → Operation β) {s : σ}
    (h : Makes bus P op.run s) : Makes bus P (op >>= f).run s := (makes_seq op f s).mpr (.inl h)

/-- Nothing comes after an operation that throws. -/
theorem Throws.makes_bind_iff {op : Operation α} {f : α → Operation β} {s t : σ}
    {error : DriverError} (h : Throws bus op s error t) :
    Makes bus P (op >>= f).run s ↔ Makes bus P op.run s := by
  rw [makes_seq]
  refine or_iff_left ?_
  rintro ⟨a, u, hop, -⟩
  exact hop.not_throws h

theorem makes_lift (p : Procedure α) (s : σ) :
    Makes bus P (liftM p : Operation α).run s ↔ Makes bus P p s := by
  show Makes bus P (Except.ok <$> p) s ↔ _
  rw [← bind_pure_comp, makes_bind]
  refine or_iff_left ?_
  rintro ⟨a, t, -, hrest⟩
  exact not_makes_pure _ _ hrest

/-- Wherever it starts, the operation makes no access with a property. -/
def Avoids (bus : Bus σ) (P : Access → Prop) (op : Operation α) : Prop :=
  Procedure.Avoids bus P op.run

namespace Avoids

theorem pure (a : α) : Avoids bus P (pure a) := Procedure.Avoids.pure (Except.ok a)

theorem throw (error : DriverError) : Avoids bus P (throw error : Operation α) :=
  Procedure.Avoids.pure (Except.error error)

theorem bind {op : Operation α} {f : α → Operation β} (h : Avoids bus P op)
    (hf : ∀ a, Avoids bus P (f a)) : Avoids bus P (op >>= f) := by
  rw [Avoids, ExceptT.run_bind]
  refine Procedure.Avoids.bind h fun x => ?_
  cases x with
  | ok a => exact hf a
  | error e => exact Procedure.Avoids.pure _

theorem lift {p : Procedure α} (h : Procedure.Avoids bus P p) :
    Avoids bus P (liftM p : Operation α) := h.map Except.ok

/-- What a sequence makes, it makes after a first part that avoids it. -/
theorem not_makes_bind {op : Operation α} {f : α → Operation β} {s : σ} (h : Avoids bus P op)
    (hf : ∀ a t, Returns bus op s a t → ¬ Makes bus P (f a).run t) :
    ¬ Makes bus P (op >>= f).run s := by
  rw [makes_seq]
  rintro (hop | ⟨a, t, hop, hrest⟩)
  · exact h s hop
  · exact hf a t hop hrest

theorem forM {f : α → Operation Unit} (xs : List α) (h : ∀ x, Avoids bus P (f x)) :
    Avoids bus P (xs.forM f) := by
  induction xs with
  | nil => exact pure ()
  | cons x xs ih => exact (h x).bind fun _ => ih

theorem poll {exhausted : Operation Unit} {check : Procedure Bool}
    (hexhausted : Avoids bus P exhausted) (hcheck : Procedure.Avoids bus P check) (count : Nat) :
    Avoids bus P (Driver.poll exhausted check count) := by
  induction count with
  | zero => exact hexhausted
  | succ count ih =>
    refine (lift hcheck).bind fun ready => ?_
    cases ready with
    | true => exact pure ()
    | false => exact ih

end Avoids

end Operation

namespace Recording
variable {ρ : Type}

theorem Returns.makes {op : Recording ρ α} {f : α → Recording ρ β} {r r' : ρ} {s t : σ} {a : α}
    (h : Returns bus op r s a r' t) (hf : Makes bus P ((f a).on r') t) :
    Makes bus P ((op >>= f).on r) s := by
  rw [on, ExceptT.run_bind, StateT.run_bind]
  exact (makes_bind _ _ s).mpr (.inr ⟨(.ok a, r'), t, h, hf⟩)

theorem makes_bind_left {op : Recording ρ α} (f : α → Recording ρ β) {r : ρ} {s : σ}
    (h : Makes bus P (op.on r) s) : Makes bus P ((op >>= f).on r) s := by
  rw [on, ExceptT.run_bind, StateT.run_bind]
  exact (makes_bind _ _ s).mpr (.inl h)

theorem makes_lift {op : Operation α} {r : ρ} {s : σ} (h : Makes bus P op.run s) :
    Makes bus P ((liftM op : Recording ρ α).on r) s :=
  (makes_bind op.run (fun x => pure (x, r)) s).mpr (.inl h)

theorem makes_procedure {p : Procedure α} {r : ρ} {s : σ} (h : Makes bus P p s) :
    Makes bus P ((liftM p : Recording ρ α).on r) s := makes_lift ((Operation.makes_lift p s).mpr h)

/-- Wherever it starts, and on whatever record, the recording makes no access with a property. -/
def Avoids (bus : Bus σ) (P : Access → Prop) (op : Recording ρ α) : Prop :=
  ∀ r, Procedure.Avoids bus P (op.on r)

namespace Avoids

theorem pure (a : α) : Avoids bus P (pure a : Recording ρ α) := fun r =>
  Procedure.Avoids.pure (Except.ok a, r)

theorem throw (error : DriverError) : Avoids bus P (throw error : Recording ρ α) := fun r =>
  Procedure.Avoids.pure (Except.error error, r)

theorem get : Avoids bus P (get : Recording ρ ρ) := fun r => Procedure.Avoids.pure (Except.ok r, r)

theorem set (x : ρ) : Avoids bus P (set x : Recording ρ PUnit) := fun _ =>
  Procedure.Avoids.pure (Except.ok _, x)

theorem modify (f : ρ → ρ) : Avoids bus P (modify f : Recording ρ Unit) := fun r =>
  Procedure.Avoids.pure (Except.ok (), f r)

theorem bind {op : Recording ρ α} {f : α → Recording ρ β} (h : Avoids bus P op)
    (hf : ∀ a, Avoids bus P (f a)) : Avoids bus P (op >>= f) := by
  intro r
  rw [on, ExceptT.run_bind, StateT.run_bind]
  refine (h r).bind fun x => ?_
  obtain ⟨x, q⟩ := x
  cases x with
  | ok a => exact hf a q
  | error e => exact Procedure.Avoids.pure _

theorem lift {op : Operation α} (h : Operation.Avoids bus P op) :
    Avoids bus P (liftM op : Recording ρ α) := fun _ =>
  Procedure.Avoids.bind h fun _ => .pure _

theorem procedure {p : Procedure α} (h : Procedure.Avoids bus P p) :
    Avoids bus P (liftM p : Recording ρ α) := lift (.lift h)

/-- What a sequence makes, it makes after a first part that avoids it. -/
theorem not_makes_bind {op : Recording ρ α} {f : α → Recording ρ β} {r : ρ} {s : σ}
    (h : Avoids bus P op) (hf : ∀ a r' t, Returns bus op r s a r' t → ¬ Makes bus P ((f a).on r') t) :
    ¬ Makes bus P ((op >>= f).on r) s := by
  rw [on, ExceptT.run_bind, StateT.run_bind, makes_bind]
  rintro (hop | ⟨⟨x, q⟩, t, hop, hrest⟩)
  · exact h r s hop
  · cases x with
    | ok a => exact hf a q t hop hrest
    | error e => exact not_makes_pure _ t hrest

end Avoids

end Recording

/-! ### Accesses to an engine -/

open Register Device

theorem Register.Source.eq_of_offset {r r' : Source} (h : r.offset = r'.offset) : r = r' := by
  have hsource := Source.ofOffset?_offset r
  rw [h, Source.ofOffset?_offset] at hsource
  exact (Option.some_inj.mp hsource).symm

theorem Register.Sink.eq_of_offset {r r' : Sink} (h : r.offset = r'.offset) : r = r' := by
  have hsink := Sink.ofOffset?_offset r
  rw [h, Sink.ofOffset?_offset] at hsink
  exact (Option.some_inj.mp hsink).symm

namespace Access

/-- The access stores something. -/
def IsStore : Access → Prop
  | .read .. => False
  | .write .. => True

/-- The access stores a word to a register, whatever its width. -/
def Sends (r : Sink) (word : UInt32) : Access → Prop
  | .read .. => False
  | .write size offset value _ => offset = r.offset ∧ (State.onBus size value).toUInt32 = word

theorem Sends.unique {access : Access} {r r' : Sink} {word word' : UInt32}
    (h : access.Sends r word) (h' : access.Sends r' word') : r = r' ∧ word = word' := by
  cases access with
  | read => exact h.elim
  | write => exact ⟨Sink.eq_of_offset (h.1.symm.trans h'.1), h.2.symm.trans h'.2⟩

end Access

namespace Driver
open Operation

variable (d : Driver)

theorem makes_writeWord (r r' : Sink) (value : UInt64) (word : UInt32) (s : State) :
    Makes Device.bus (Access.Sends r' word) (d.writeWord r value) s ↔
      r = r' ∧ value.toUInt32 = word := by
  have hoffset : r.offset = r'.offset ↔ r = r' := ⟨Sink.eq_of_offset, congrArg _⟩
  have hnotify (notice : Notice) :
      ¬ Makes Device.bus (Access.Sends r' word) (notify notice) s :=
    Procedure.Avoids.notify notice s
  have hends (notice : Notice) (t : State) :
      Ends Device.bus (notify notice) s () t ↔ t = s := ends_notify notice s t ()
  unfold writeWord
  cases d.config.width with
  | narrow =>
    simp only [makes_bind, hnotify, false_or, hends, makes_storeWord, Access.Sends, State.onBus,
      toUInt32_lowHalf, hoffset]
    constructor
    · rintro ⟨_, _, _, h⟩
      exact h
    · exact fun h => ⟨(), s, rfl, h⟩
  | wide =>
    simp only [makes_bind, hnotify, false_or, hends, makes_storeWord, Access.Sends, State.onBus,
      swapHalves_swapHalves, hoffset]
    constructor
    · rintro ⟨_, _, _, h⟩
      exact h
    · exact fun h => ⟨(), s, rfl, h⟩

/-- A write stores its word to its register, and nothing else. -/
theorem makes_write (r r' : Sink) (word word' : UInt32) (s : State) :
    Makes Device.bus (Access.Sends r' word') (d.write r word) s ↔ r = r' ∧ word = word' := by
  rw [write, makes_writeWord, UInt32.toUInt32_toUInt64]

section Generic
variable {d} {bus : Bus σ}

theorem avoids_pollUntil {check : Procedure Bool} (hcheck : Procedure.Avoids bus P check) :
    Operation.Avoids bus P (d.pollUntil check) := by
  unfold pollUntil
  split
  · exact .poll (.throw _) hcheck _
  · exact .poll (Procedure.Avoids.spent.map Except.ok) hcheck _

theorem avoids_writeWord {r : Sink} {value : UInt64}
    (h : ∀ access : Access, access.Sends r value.toUInt32 → ¬ P access) :
    Procedure.Avoids bus P (d.writeWord r value) := by
  have hnarrow (answer : Except BusFault Unit) :
      Access.Sends r value.toUInt32 (.write .word r.offset (lowHalf value) answer) :=
    ⟨rfl, by rw [State.onBus, toUInt32_lowHalf, toUInt32_lowHalf]⟩
  have hwide (answer : Except BusFault Unit) :
      Access.Sends r value.toUInt32 (.write .doubleWord r.offset (swapHalves value) answer) :=
    ⟨rfl, by rw [State.onBus, swapHalves_swapHalves]⟩
  refine (Procedure.Avoids.notify _).bind fun _ s hmakes => ?_
  cases hwidth : d.config.width with
  | narrow =>
    rw [hwidth] at hmakes
    exact h _ (hnarrow _) ((makes_storeWord _ _ _ s).mp hmakes)
  | wide =>
    rw [hwidth] at hmakes
    exact h _ (hwide _) ((makes_storeWord _ _ _ s).mp hmakes)

theorem avoids_write {r : Sink} {word : UInt32}
    (h : ∀ access : Access, access.Sends r word → ¬ P access) :
    Procedure.Avoids bus P (d.write r word) :=
  avoids_writeWord fun access hsends => h access (UInt32.toUInt32_toUInt64 word ▸ hsends)

variable (hread : ∀ size offset answer, ¬ P (.read size offset answer))
include hread

theorem avoids_readWord (r : Source) : Procedure.Avoids bus P (d.readWord r) := by
  have hreport (value : UInt64) : Procedure.Avoids bus P (do
      notify (.registerRead r.offset value)
      pure value) := (Procedure.Avoids.notify _).bind fun _ => .pure _
  unfold readWord
  cases d.config.width with
  | narrow =>
    exact (Procedure.Avoids.loadWord (hread _ _)).bind fun _ => (Procedure.Avoids.pure _).bind hreport
  | wide =>
    exact (Procedure.Avoids.loadWord (hread _ _)).bind fun _ => (Procedure.Avoids.pure _).bind hreport

theorem avoids_read (r : Source) : Procedure.Avoids bus P (d.read r) :=
  (avoids_readWord hread r).bind fun _ => .pure _

theorem avoids_ensureDebug : Operation.Avoids bus P d.ensureDebug := by
  refine (Operation.Avoids.lift ((avoids_read hread _).bind fun _ => .pure _)).bind fun debug => ?_
  cases debug with
  | true => exact .pure ()
  | false => exact .throw _

theorem avoids_waitIdle : Operation.Avoids bus P d.waitIdle :=
  avoids_pollUntil ((avoids_read hread _).bind fun _ => .pure _)

theorem avoids_waitEnoughRandom : Operation.Avoids bus P d.waitEnoughRandom :=
  avoids_pollUntil ((avoids_read hread _).bind fun _ => .pure _)

theorem avoids_size : Procedure.Avoids bus P d.size := (avoids_read hread _).bind fun _ => .pure _

theorem avoids_numberBytes : Procedure.Avoids bus P d.numberBytes :=
  (avoids_size hread).bind fun _ => .pure _

theorem avoids_transferWords (len : Nat) : Operation.Avoids bus P (d.transferWords len) := by
  refine (Operation.Avoids.lift (avoids_numberBytes hread)).bind fun bytes => ?_
  dsimp only
  split
  · exact .throw _
  · exact .pure _

end Generic

end Driver

end CurveEngine
