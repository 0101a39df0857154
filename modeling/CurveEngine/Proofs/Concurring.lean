import CurveEngine.Proofs.Accesses

/-! Drivers that come to the same end, however long they would wait.

Two drivers of one word width do the same to an engine, access by access, until one of them
gives up on a wait. A `Crew` is a word width and a number of looks at the engine that every wait
may take; a driver that gives up later than that, or never, and that has fuel enough, belongs to
it. Run from a state, the drivers of a crew `Concur` on what they do if all of them are done, with
one result, in one state, and after the same accesses. A wait that ends within the looks of the
crew is one that its drivers concur on (`Concur.pollUntil`), and so is a sequence of parts that
they concur on: the drivers that never give up come to an end there, and those that do have not
given up before. -/
namespace CurveEngine
open Register Procedure Device

variable {α β γ ρ : Type}

/-- Drivers of one word width. -/
structure Crew where
  width : WordWidth
  /-- Looks after which none of them has given up on a wait. -/
  looks : Nat

/-- A driver of the crew, with fuel for a number of turns. It may give up on a wait, but not before
it has looked more often than the crew has to. -/
structure Crew.Has (c : Crew) (turns : Nat) (d : Driver) : Prop where
  width : d.config.width = c.width
  fuel : turns ≤ d.fuel
  limit : ∀ checks, d.config.pollLimit = some checks → c.looks < checks

theorem Crew.Has.mono {c : Crew} {turns turns' : Nat} {d : Driver} (h : c.Has turns' d)
    (hle : turns ≤ turns') : c.Has turns d := ⟨h.width, Nat.le_trans hle h.fuel, h.limit⟩

variable {c : Crew} {s t : State}

namespace Procedure

/-- Run from `s`, the procedure is done with `a` in `t`, after these accesses. -/
def Performs (p : Procedure α) (s : State) (a : α) (t : State) (log : List Access) : Prop :=
  Ends bus p s a t ∧ p.accesses bus s = log

theorem Performs.bind {p : Procedure α} {f : α → Procedure β} {u : State} {a : α} {b : β}
    {log log' : List Access} (h : p.Performs s a t log) (hf : (f a).Performs t b u log') :
    (p >>= f).Performs s b u (log ++ log') := by
  refine ⟨(ends_bind _ _ _ _ _).mpr ⟨a, t, h.1, hf.1⟩, (accesses_bind p f s).trans ?_⟩
  rw [show p.run bus s = _ from h.1, h.2, ← hf.2]

/-- Run from `s`, a procedure is done with one result in one state, after the same accesses,
whichever driver of the crew it belongs to; `Q` holds of the result and the state. -/
def Concur (c : Crew) (F : Driver → Procedure α) (s : State) (Q : α → State → Prop) : Prop :=
  ∃ turns a t log, Q a t ∧ ∀ d, c.Has turns d → (F d).Performs s a t log

namespace Concur
variable {F : Driver → Procedure α} {Q : α → State → Prop}

theorem mono {Q' : α → State → Prop} (h : Concur c F s Q) (hQ : ∀ a t, Q a t → Q' a t) :
    Concur c F s Q' := by
  obtain ⟨turns, a, t, log, ha, hF⟩ := h
  exact ⟨turns, a, t, log, hQ a t ha, hF⟩

/-- Drivers with fuel enough may do it in a different way. -/
theorem congr {F' : Driver → Procedure α} (turns : Nat) (h : Concur c F s Q)
    (hF : ∀ d, c.Has turns d → F' d = F d) : Concur c F' s Q := by
  obtain ⟨turns', a, t, log, ha, hperforms⟩ := h
  refine ⟨max turns turns', a, t, log, ha, fun d hd => ?_⟩
  rw [hF d (hd.mono (Nat.le_max_left _ _))]
  exact hperforms d (hd.mono (Nat.le_max_right _ _))

/-- What depends on the word width alone. -/
theorem of_ends {p : Procedure α} {a : α} (hp : Ends bus p s a t)
    (h : ∀ d : Driver, d.config.width = c.width → F d = p) (ha : Q a t) : Concur c F s Q :=
  ⟨0, a, t, _, ha, fun d hd => by rw [h d hd.width]; exact ⟨hp, rfl⟩⟩

theorem pure {a : α} (ha : Q a s) : Concur c (fun _ => pure a) s Q :=
  of_ends ((ends_pure _ _ _ _).mpr ⟨rfl, rfl⟩) (fun _ _ => rfl) ha

theorem notify (notice : Notice) {Q : Unit → State → Prop} (h : Q () s) :
    Concur c (fun _ => notify notice) s Q :=
  of_ends ((ends_notify _ _ _ _).mpr rfl) (fun _ _ => rfl) h

/-- What follows goes on from the one end of the first part. -/
theorem bind {G : Driver → α → Procedure β} {R : β → State → Prop} (h : Concur c F s Q)
    (hG : ∀ a t, Q a t → Concur c (fun d => G d a) t R) :
    Concur c (fun d => F d >>= G d) s R := by
  obtain ⟨turns, a, t, log, ha, hF⟩ := h
  obtain ⟨turns', b, u, log', hb, hrest⟩ := hG a t ha
  exact ⟨max turns turns', b, u, log ++ log', hb, fun d hd =>
    (hF d (hd.mono (Nat.le_max_left _ _))).bind (hrest d (hd.mono (Nat.le_max_right _ _)))⟩

theorem map {f : α → β} {R : β → State → Prop} (h : Concur c F s Q)
    (hf : ∀ a t, Q a t → R (f a) t) : Concur c (fun d => f <$> F d) s R := by
  simp only [← bind_pure_comp]
  exact h.bind fun a t ha => pure (hf a t ha)

/-! ### Accesses -/

theorem readWord (r : Source) {Q : UInt64 → State → Prop}
    (h : Q ((⟨{ width := c.width }, 0⟩ : Driver).cut (s.readSource r).1) (s.readSource r).2) :
    Concur c (fun d => d.readWord r) s Q := by
  refine of_ends ((Driver.ends_readWord ⟨{ width := c.width }, 0⟩ r _).mpr ⟨rfl, rfl⟩)
    (fun d hd => ?_) h
  simp only [Driver.readWord, hd]

theorem read (r : Source) {Q : UInt32 → State → Prop}
    (h : Q (s.readSource r).1.toUInt32 (s.readSource r).2) : Concur c (fun d => d.read r) s Q := by
  refine (readWord r (Q := fun word t => Q word.toUInt32 t) ?_).bind fun word t hword => pure hword
  rwa [Driver.toUInt32_cut]

theorem status {Q : UInt32 → State → Prop} (h : Q s.readStatus.1 s.readStatus.2) :
    Concur c (fun d => d.status) s Q := by
  refine read .status ?_
  have hsource : s.readSource .status = (s.readStatus.1.toUInt64, s.readStatus.2) := rfl
  rwa [hsource, UInt32.toUInt32_toUInt64]

theorem writeWord (r : Sink) (value : UInt64) {Q : Unit → State → Prop}
    (h : Q () (s.writeSink r ((⟨{ width := c.width }, 0⟩ : Driver).cut value))) :
    Concur c (fun d => d.writeWord r value) s Q := by
  refine of_ends ((Driver.ends_writeWord ⟨{ width := c.width }, 0⟩ r value ()).mpr rfl)
    (fun d hd => ?_) h
  simp only [Driver.writeWord, hd]

theorem write (r : Sink) (word : UInt32) {Q : Unit → State → Prop}
    (h : Q () (s.writeSink r word.toUInt64)) : Concur c (fun d => d.write r word) s Q :=
  writeWord r word.toUInt64 (by rwa [Driver.cut_toUInt64])

theorem isDebug {Q : Bool → State → Prop} (h : Q s.params.debug s) :
    Concur c Driver.isDebug s Q := by
  have hread : Concur c Driver.capabilities s fun word t => word = s.capabilitiesWord ∧ t = s :=
    read .capabilities ⟨UInt32.toUInt32_toUInt64 _, rfl⟩
  refine hread.bind fun word t ⟨hword, ht⟩ => pure ?_
  rw [hword, ht, State.debug_capabilitiesWord]
  exact h

/-! ### Operations and recordings -/

/-- What follows an operation that returns goes on from there; its failure ends the sequence. -/
theorem operation {F : Driver → Operation α} {G : Driver → α → Operation β}
    {Q : Except DriverError α → State → Prop} {R : Except DriverError β → State → Prop}
    (h : Concur c (fun d => (F d).run) s Q)
    (hG : ∀ a t, Q (.ok a) t → Concur c (fun d => (G d a).run) t R)
    (hfail : ∀ e t, Q (.error e) t → R (.error e) t) :
    Concur c (fun d => (F d >>= G d).run) s R := by
  simp only [ExceptT.run_bind]
  refine h.bind fun x t hx => ?_
  cases x with
  | ok a => exact hG a t hx
  | error e => exact pure (hfail e t hx)

theorem lift {G : Driver → α → Operation β} {R : Except DriverError β → State → Prop}
    (h : Concur c F s Q) (hG : ∀ a t, Q a t → Concur c (fun d => (G d a).run) t R) :
    Concur c (fun d => ((liftM (F d) : Operation α) >>= G d).run) s R := by
  simp only [Operation.run_lift_bind]
  exact h.bind hG

theorem ensureDebug {Q : Except DriverError Unit → State → Prop}
    (h : Q (if s.params.debug then .ok () else .error .debugOnly) s) :
    Concur c (fun d => d.ensureDebug.run) s Q := by
  refine (isDebug (Q := fun debug t => debug = s.params.debug ∧ t = s) ⟨rfl, rfl⟩).lift
    fun debug t ⟨hdebug, ht⟩ => ?_
  rw [← hdebug, ← ht] at h
  cases debug with
  | true => exact pure h
  | false => exact pure (a := Except.error DriverError.debugOnly) h

/-- What follows a recording that returns goes on from there, on the record as it is then. -/
theorem recording {F : Driver → Recording ρ α} {G : Driver → α → Recording ρ β} {r : ρ}
    {Q : Except DriverError α × ρ → State → Prop} {R : Except DriverError β × ρ → State → Prop}
    (h : Concur c (fun d => (F d).on r) s Q)
    (hG : ∀ a r' t, Q (.ok a, r') t → Concur c (fun d => (G d a).on r') t R)
    (hfail : ∀ e r' t, Q (.error e, r') t → R (.error e, r') t) :
    Concur c (fun d => (F d >>= G d).on r) s R := by
  simp only [Recording.on, ExceptT.run_bind, StateT.run_bind]
  refine h.bind fun x t hx => ?_
  obtain ⟨x, r'⟩ := x
  cases x with
  | ok a => exact hG a r' t hx
  | error e => exact pure (hfail e r' t hx)

/-- An operation leaves the record alone. -/
theorem recordingLift {F : Driver → Operation α} {G : Driver → α → Recording ρ β} {r : ρ}
    {Q : Except DriverError α → State → Prop} {R : Except DriverError β × ρ → State → Prop}
    (h : Concur c (fun d => (F d).run) s Q)
    (hG : ∀ a t, Q (.ok a) t → Concur c (fun d => (G d a).on r) t R)
    (hfail : ∀ e t, Q (.error e) t → R (.error e, r) t) :
    Concur c (fun d => ((liftM (F d) : Recording ρ α) >>= G d).on r) s R := by
  simp only [Recording.on_lift_bind]
  refine h.bind fun x t hx => ?_
  cases x with
  | ok a => exact hG a t hx
  | error e => exact pure (hfail e t hx)

/-! ### Waiting -/

/-- A wait is over within the looks of the crew if each look in vain brings the end nearer. -/
theorem pollUntil {J : State → Prop} {check : Driver → Procedure Bool} (measure : State → Nat)
    (hcheck : ∀ s, J s → Concur c check s fun ready t =>
      J t ∧ (ready = false → measure t < measure s))
    (hs : J s) (hmeasure : measure s ≤ c.looks) :
    Concur c (fun d => (d.pollUntil (check d)).run) s fun x t => x = .ok () ∧ J t := by
  have hpoll (checks : Nat) : ∀ s, J s → measure s < checks → ∃ turns t log, J t ∧
      ∀ d, c.Has turns d → ∀ exhausted count, checks ≤ count →
        (Driver.poll exhausted (check d) count).run.Performs s (.ok ()) t log := by
    -- the measure pays for the looks in vain, whatever is left of the count
    induction checks with
    | zero => exact fun s _ hless => absurd hless (Nat.not_lt_zero _)
    | succ checks ih =>
      intro s hs hless
      obtain ⟨turns, ready, t, log, ⟨ht, hnear⟩, hlook⟩ := hcheck s hs
      have hturn (exhausted : Operation Unit) (count : Nat) (d : Driver) :
          (Driver.poll exhausted (check d) (count + 1)).run = check d >>= fun ready =>
            (if ready then Pure.pure () else Driver.poll exhausted (check d) count).run :=
        Operation.run_lift_bind _ _
      cases ready with
      | true =>
        refine ⟨turns, t, log ++ [], ht, fun d hd exhausted count hcount => ?_⟩
        obtain ⟨count, rfl⟩ := Nat.exists_eq_succ_of_ne_zero (Nat.ne_zero_of_lt hcount)
        rw [hturn]
        exact (hlook d hd).bind ⟨(ends_pure _ _ _ _).mpr ⟨rfl, rfl⟩, rfl⟩
      | false =>
        obtain ⟨turns', u, log', hu, hrest⟩ :=
          ih t ht (Nat.lt_of_lt_of_le (hnear rfl) (Nat.le_of_lt_succ hless))
        refine ⟨max turns turns', u, log ++ log', hu, fun d hd exhausted count hcount => ?_⟩
        obtain ⟨count, rfl⟩ := Nat.exists_eq_succ_of_ne_zero (Nat.ne_zero_of_lt hcount)
        rw [hturn]
        exact (hlook d (hd.mono (Nat.le_max_left _ _))).bind
          (hrest d (hd.mono (Nat.le_max_right _ _)) _ _ (Nat.le_of_succ_le_succ hcount))
  obtain ⟨turns, t, log, ht, hperforms⟩ :=
    hpoll (c.looks + 1) s hs (Nat.lt_succ_of_le hmeasure)
  refine ⟨max turns (c.looks + 1), .ok (), t, log, ⟨rfl, ht⟩, fun d hd => ?_⟩
  have hmember := hd.mono (Nat.le_max_left turns (c.looks + 1))
  show (d.pollUntil (check d)).run.Performs s (.ok ()) t log
  unfold Driver.pollUntil
  split
  · rename_i checks hlimit
    exact hperforms d hmember _ _ (hd.limit checks hlimit)
  · exact hperforms d hmember _ _ (Nat.le_trans (Nat.le_max_right _ _) hd.fuel)

end Concur

end Procedure

end CurveEngine
