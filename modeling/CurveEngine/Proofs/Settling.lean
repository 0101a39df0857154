import CurveEngine.Proofs.Access
import CurveEngine.Proofs.Alike

/-! Waiting for an engine, and looking for errors.

`Does` is what is said of an operation on an engine: if it returns at all, it returns
this value and leaves a state like this one, whatever the poll limit; and on an engine
that is ready it does return. A sequence of operations does one after the other
(`Does.bind`). Waiting does nothing (`does_waitIdle`), and a settled write does what the
register does (`does_writeSettled`): an error that it latched would have been thrown. -/
namespace CurveEngine.Driver
open Register Procedure Device Operation

variable {α β : Type}

/-- What an operation does to an engine that is like `s`: when it returns, and on an
engine that is ready. -/
structure Does (ready : State → Prop) (op : Operation α) (s : State) (a : α) (s' : State) :
    Prop where
  only : ∀ t b u, t.Alike s → Returns bus op t b u → b = a ∧ u.Alike s'
  returns : ∀ t, t.Alike s → ready t → ∃ u, Returns bus op t a u ∧ ready u

namespace Does
variable {ready : State → Prop} {s s' s'' : State}

theorem pure (a : α) : Does ready (pure a) s a s where
  only t b u ht h := by
    obtain ⟨rfl, rfl⟩ := (returns_pure a b t u).mp h
    exact ⟨rfl, ht⟩
  returns t _ hready := ⟨t, (returns_pure a a t t).mpr ⟨rfl, rfl⟩, hready⟩

theorem bind {op : Operation α} {f : α → Operation β} {a : α} {b : β}
    (h : Does ready op s a s') (hf : Does ready (f a) s' b s'') :
    Does ready (op >>= f) s b s'' where
  only t c v ht hseq := by
    obtain ⟨x, u, hop, hrest⟩ := (returns_bind op f t v c).mp hseq
    obtain ⟨rfl, hu⟩ := h.only t x u ht hop
    exact hf.only u c v hu hrest
  returns t ht hready := by
    obtain ⟨u, hop, hu⟩ := h.returns t ht hready
    obtain ⟨v, hrest, hv⟩ := hf.returns u (h.only t a u ht hop).2 hu
    exact ⟨v, (returns_bind op f t v b).mpr ⟨a, u, hop, hrest⟩, hv⟩

/-- A procedure that is done with the same result wherever it starts. -/
theorem lift {p : Procedure α} {a : α}
    (h : ∀ t, t.Alike s → ∃ u, Ends bus p t a u ∧ u.Alike s' ∧ (ready t → ready u)) :
    Does ready (liftM p) s a s' where
  only t b v ht hlift := by
    obtain ⟨u, hp, hu, -⟩ := h t ht
    obtain ⟨rfl, rfl⟩ := hp.unique ((returns_lift p t v b).mp hlift)
    exact ⟨rfl, hu⟩
  returns t ht hready := by
    obtain ⟨u, hp, -, hkeep⟩ := h t ht
    exact ⟨u, (returns_lift p t u a).mpr hp, hkeep hready⟩

theorem ofExcept {x : Except DriverError α} {a : α} (h : x = .ok a) :
    Does ready (ofExcept x) s a s where
  only t b u ht hx := by
    obtain ⟨hb, rfl⟩ := (returns_ofExcept x t u b).mp hx
    rw [h, Except.ok.injEq] at hb
    exact ⟨hb.symm, ht⟩
  returns t _ hready := ⟨t, (returns_ofExcept x t t a).mpr ⟨h, rfl⟩, hready⟩

end Does

/-- What a recording does to an engine that is like `s`, and to the record. -/
structure Records {ρ : Type} (ready : State → Prop) (op : Recording ρ α) (r : ρ) (s : State)
    (a : α) (r' : ρ) (s' : State) : Prop where
  only : ∀ t b q u, t.Alike s → Recording.Returns bus op r t b q u →
    b = a ∧ q = r' ∧ u.Alike s'
  returns : ∀ t, t.Alike s → ready t → ∃ u, Recording.Returns bus op r t a r' u ∧ ready u

namespace Records
variable {ρ : Type} {ready : State → Prop} {r r' r'' : ρ} {s s' s'' : State}

theorem bind {op : Recording ρ α} {f : α → Recording ρ β} {a : α} {b : β}
    (h : Records ready op r s a r' s') (hf : Records ready (f a) r' s' b r'' s'') :
    Records ready (op >>= f) r s b r'' s'' where
  only t c q v ht hseq := by
    obtain ⟨x, r₁, u, hop, hrest⟩ := (Recording.returns_bind op f r q t v c).mp hseq
    obtain ⟨rfl, rfl, hu⟩ := h.only t x r₁ u ht hop
    exact hf.only u c q v hu hrest
  returns t ht hready := by
    obtain ⟨u, hop, hu⟩ := h.returns t ht hready
    obtain ⟨v, hrest, hv⟩ := hf.returns u (h.only t a r' u ht hop).2.2 hu
    exact ⟨v, (Recording.returns_bind op f r r'' t v b).mpr ⟨a, r', u, hop, hrest⟩, hv⟩

theorem pure (a : α) : Records ready (pure a) r s a r s where
  only t b q u ht h := by
    obtain ⟨rfl, rfl, rfl⟩ := (Recording.returns_pure a b r q t u).mp h
    exact ⟨rfl, rfl, ht⟩
  returns t _ hready := ⟨t, (Recording.returns_pure a a r r t t).mpr ⟨rfl, rfl, rfl⟩, hready⟩

/-- An operation leaves the record alone. -/
theorem lift {op : Operation α} {a : α} (h : Does ready op s a s') :
    Records ready (liftM op) r s a r s' where
  only t b q u ht hop := by
    obtain ⟨rfl, hreturns⟩ := (Recording.returns_lift op r q t u b).mp hop
    obtain ⟨rfl, hu⟩ := h.only t b u ht hreturns
    exact ⟨rfl, rfl, hu⟩
  returns t ht hready := by
    obtain ⟨u, hop, hu⟩ := h.returns t ht hready
    exact ⟨u, (Recording.returns_lift op r r t u a).mpr ⟨rfl, hop⟩, hu⟩

theorem procedure {p : Procedure α} {a : α} (h : Does ready (liftM p) s a s') :
    Records ready (liftM p : Recording ρ α) r s a r s' := lift h

theorem get : Records ready get r s r r s where
  only t b q u ht h := by
    obtain ⟨rfl, rfl, rfl⟩ := (Recording.returns_get r q t u b).mp h
    exact ⟨rfl, rfl, ht⟩
  returns t _ hready := ⟨t, (Recording.returns_get r r t t r).mpr ⟨rfl, rfl, rfl⟩, hready⟩

theorem modify (f : ρ → ρ) : Records ready (modify f) r s () (f r) s where
  only t b q u ht h := by
    obtain ⟨rfl, rfl⟩ := (Recording.returns_modify f r q t u b).mp h
    exact ⟨rfl, rfl, ht⟩
  returns t _ hready := ⟨t, (Recording.returns_modify f r (f r) t t ()).mpr ⟨rfl, rfl⟩, hready⟩

end Records

/-! ### What is left to do -/

/-- A recording on an engine like `s` comes down to another one, on an engine like `s'`. -/
def Leads {ρ : Type} (ready : State → Prop) (op : Recording ρ α) (r : ρ) (s : State)
    (op' : Recording ρ α) (r' : ρ) (s' : State) : Prop :=
  ∀ t, t.Alike s → ready t → ∃ u, u.Alike s' ∧ ready u ∧
    ∀ x q v, Ends bus (op.on r) t (x, q) v ↔ Ends bus (op'.on r') u (x, q) v

namespace Leads
variable {ρ : Type} {ready : State → Prop} {r r' r'' : ρ} {s s' s'' : State}
  {op op' op'' : Recording ρ α}

theorem refl : Leads ready op r s op r s :=
  fun t ht hready => ⟨t, ht, hready, fun _ _ _ => Iff.rfl⟩

theorem trans (h : Leads ready op r s op' r' s') (h' : Leads ready op' r' s' op'' r'' s'') :
    Leads ready op r s op'' r'' s'' := by
  intro t ht hready
  obtain ⟨u, hu, hready, hsame⟩ := h t ht hready
  obtain ⟨v, hv, hready, hsame'⟩ := h' u hu hready
  exact ⟨v, hv, hready, fun x q w => (hsame x q w).trans (hsame' x q w)⟩

end Leads

/-- After what is known of a recording, what follows it is left. -/
theorem Records.leads {ρ : Type} {ready : State → Prop} {r r' : ρ} {s s' : State}
    {op : Recording ρ α} {a : α} (h : Records ready op r s a r' s') (f : α → Recording ρ β) :
    Leads ready (op >>= f) r s (f a) r' s' := by
  intro t ht hready
  obtain ⟨u, hop, hu⟩ := h.returns t ht hready
  exact ⟨u, (h.only t a r' u ht hop).2.2, hu, fun _ _ _ => hop.ends_on_bind⟩

/-! ### Polls -/

section Poll
variable {σ : Type} {bus : Bus σ} {exhausted : Operation Unit} {check : Procedure Bool}

theorem returns_poll_succ (count : Nat) (s t : σ) :
    Returns bus (poll exhausted check (count + 1)) s () t ↔
      ∃ b u, Ends bus check s b u ∧
        if b then t = u else Returns bus (poll exhausted check count) u () t := by
  simp only [poll, returns_bind, returns_lift]
  constructor
  · rintro ⟨b, u, hcheck, hrest⟩
    refine ⟨b, u, hcheck, ?_⟩
    cases b with
    | true => exact ((returns_pure () () u t).mp hrest).2
    | false => exact hrest
  · rintro ⟨b, u, hcheck, hrest⟩
    refine ⟨b, u, hcheck, ?_⟩
    cases b with
    | true => exact (returns_pure () () u t).mpr ⟨rfl, hrest⟩
    | false => exact hrest

/-- A poll that returns has seen its check succeed. -/
theorem poll_only {I : σ → Prop} (hspent : ∀ s t, ¬ Returns bus exhausted s () t)
    (hcheck : ∀ s b t, I s → Ends bus check s b t → I t) {count : Nat} {s t : σ} (hs : I s)
    (h : Returns bus (poll exhausted check count) s () t) :
    ∃ u, I u ∧ Ends bus check u true t := by
  induction count generalizing s with
  | zero => exact absurd h (hspent s t)
  | succ count ih =>
    obtain ⟨b, u, hbit, hrest⟩ := (returns_poll_succ count s t).mp h
    cases b with
    | true =>
      have heq : t = u := hrest
      exact ⟨s, hs, heq ▸ hbit⟩
    | false => exact ih (hcheck s false u hs hbit) hrest

/-- A poll returns if every check that fails brings its success nearer. -/
theorem poll_returns {I : σ → Prop} (measure : σ → Nat)
    (hcheck : ∀ s, I s → ∃ b t, Ends bus check s b t ∧ I t ∧ (b = false → measure t < measure s))
    {count : Nat} {s : σ} (hs : I s) (hcount : measure s < count) :
    ∃ t, Returns bus (poll exhausted check count) s () t ∧ I t := by
  induction count generalizing s with
  | zero => omega
  | succ count ih =>
    obtain ⟨b, u, hbit, hu, hnear⟩ := hcheck s hs
    cases b with
    | true => exact ⟨u, (returns_poll_succ count s u).mpr ⟨true, u, hbit, rfl⟩, hu⟩
    | false =>
      have hless := hnear rfl
      obtain ⟨t, hrest, ht⟩ := ih hu (by omega)
      exact ⟨t, (returns_poll_succ count s t).mpr ⟨false, u, hbit, hrest⟩, ht⟩

end Poll

/-- Checks that a poll makes before it gives up, or before its fuel ends. -/
def checks (d : Driver) : Nat := d.config.pollLimit.getD d.fuel

/-- A poll comes to nothing when its checks are used up. -/
theorem pollUntil_eq (d : Driver) (check : Procedure Bool) :
    ∃ exhausted : Operation Unit,
      (∀ s t, ¬ Returns bus exhausted s () t) ∧
        (∀ s error t, Throws bus exhausted s error t → error = .unresponsive) ∧
          d.pollUntil check = poll exhausted check d.checks := by
  unfold pollUntil checks
  cases d.config.pollLimit with
  | none =>
    refine ⟨ExceptT.lift .spent, fun s t h => ?_, fun s error t h => ?_, rfl⟩
    · exact nomatch h
    · exact nomatch h
  | some limit =>
    refine ⟨throw .unresponsive, fun s t h => ?_, fun s error t h => ?_, rfl⟩
    · exact not_returns_throw _ _ _ _ h
    · exact ((throws_throw _ _ _ _).mp h).1

/-- A poll that returns has made a check. -/
theorem checks_pos {d : Driver} {check : Procedure Bool} {s t : State}
    (h : Returns bus (d.pollUntil check) s () t) : 0 < d.checks := by
  obtain ⟨exhausted, hspent, -, hpoll⟩ := d.pollUntil_eq check
  rw [hpoll] at h
  rcases Nat.eq_zero_or_pos d.checks with hzero | hpos
  · rw [hzero] at h
    exact absurd h (hspent s t)
  · exact hpos

/-- An engine at rest, with a driver patient enough for it. -/
structure Awaitable (d : Driver) (s : State) : Prop where
  coherent : s.Coherent
  resting : s.multiplying = false
  patient : max s.params.latency 3 < d.checks

/-- One that has no error to report either. -/
structure Ready (d : Driver) (s : State) : Prop extends Awaitable d s where
  clear : s.errors = 0

variable {d : Driver} {s s' t : State}

/-- What a driver has to know of a state to wait for it. -/
theorem Ready.frame (h : Ready d s) (ht : t.Coherent)
    (same : (t.errors, t.multiplying, t.params) = (s.errors, s.multiplying, s.params)) :
    Ready d t := by
  simp only [Prod.mk.injEq] at same
  obtain ⟨herrors, hmultiplying, hparams⟩ := same
  exact ⟨⟨ht, hmultiplying.trans h.resting, hparams ▸ h.patient⟩, herrors.trans h.clear⟩

theorem Awaitable.readStatus (h : Awaitable d s) : Awaitable d s.readStatus.2 :=
  ⟨h.coherent.readStatus, h.resting, h.patient⟩

theorem Ready.readStatus (h : Ready d s) : Ready d s.readStatus.2 :=
  h.frame h.coherent.readStatus rfl

/-! ### Waiting -/

theorem ends_isIdle (b : Bool) :
    Ends bus d.isIdle s b t ↔
      b = !(decide (s.busy > 0) || decide (s.init > 0) || s.multiplying) ∧
        t = s.readStatus.2 := by
  simp only [isIdle, ends_bind, ends_status, ends_pure]
  constructor
  · rintro ⟨_, _, ⟨rfl, rfl⟩, rfl, rfl⟩
    exact ⟨by rw [State.busy_readStatus], rfl⟩
  · rintro ⟨rfl, rfl⟩
    exact ⟨_, _, ⟨rfl, rfl⟩, by rw [State.busy_readStatus], rfl⟩

theorem ends_hasEnoughRandom (b : Bool) :
    Ends bus d.hasEnoughRandom s b t ↔ b = (s.warmup == 0) ∧ t = s.readStatus.2 := by
  simp only [hasEnoughRandom, ends_bind, ends_status, ends_pure]
  constructor
  · rintro ⟨_, _, ⟨rfl, rfl⟩, rfl, rfl⟩
    exact ⟨by rw [State.enoughRandom_readStatus], rfl⟩
  · rintro ⟨rfl, rfl⟩
    exact ⟨_, _, ⟨rfl, rfl⟩, by rw [State.enoughRandom_readStatus], rfl⟩

/-- A driver does not get past a multiplication by waiting, nor does it undo one. -/
theorem waitIdle_only (h : Returns bus d.waitIdle s () t) :
    t.Alike s ∧ t.warmup ≤ s.warmup ∧ s.multiplying = false := by
  obtain ⟨exhausted, hspent, -, hpoll⟩ := d.pollUntil_eq d.isIdle
  rw [waitIdle, hpoll] at h
  obtain ⟨u, ⟨hu, hwarmup⟩, hidle⟩ :=
    poll_only (I := fun u => u.Alike s ∧ u.warmup ≤ s.warmup) hspent
    (fun v b w ⟨hv, hless⟩ hcheck => by
      obtain ⟨-, rfl⟩ := (ends_isIdle b).mp hcheck
      exact ⟨v.settled_readStatus.trans hv, Nat.le_trans (Nat.sub_le _ _) hless⟩)
    ⟨.refl s, Nat.le_refl _⟩ h
  obtain ⟨hbit, rfl⟩ := (ends_isIdle true).mp hidle
  refine ⟨u.settled_readStatus.trans hu, Nat.le_trans (Nat.sub_le _ _) hwarmup, ?_⟩
  have hresting : u.multiplying = false := by
    cases hm : u.multiplying with
    | false => rfl
    | true =>
      rw [hm, Bool.or_true] at hbit
      cases hbit
  exact (hu.field State.multiplying fun _ => rfl).symm.trans hresting

theorem waitIdle_ends (hs : Awaitable d s) :
    ∃ t, Returns bus d.waitIdle s () t ∧ Awaitable d t := by
  obtain ⟨exhausted, -, -, hpoll⟩ := d.pollUntil_eq d.isIdle
  rw [waitIdle, hpoll]
  refine poll_returns (fun u => max u.busy u.init) (fun u hu => ?_) hs ?_
  · refine ⟨_, _, (ends_isIdle _).mpr ⟨rfl, rfl⟩, hu.readStatus, fun hbusy => ?_⟩
    show max (u.busy - 1) (u.init - 1) < max u.busy u.init
    simp only [hu.resting, Bool.or_false, Bool.not_eq_false', Bool.or_eq_true,
      decide_eq_true_eq] at hbusy
    omega
  · have hbusy := hs.coherent.busy_le
    have hinit : s.init ≤ 2 := hs.coherent.init_le
    have hpatient := hs.patient
    omega

theorem waitIdle_returns (hs : Ready d s) : ∃ t, Returns bus d.waitIdle s () t ∧ Ready d t := by
  obtain ⟨t, hwait, ht⟩ := waitIdle_ends hs.toAwaitable
  exact ⟨t, hwait, ht, ((waitIdle_only hwait).1.field State.errors fun _ => rfl).trans hs.clear⟩

theorem does_waitIdle (s : State) : Does (Ready d) d.waitIdle s () s where
  only _ _ _ ht h := ⟨rfl, (waitIdle_only h).1.trans ht⟩
  returns _ _ ht := waitIdle_returns ht

theorem waitEnoughRandom_only (h : Returns bus d.waitEnoughRandom s () t) :
    t.Alike s ∧ t.warmup = 0 := by
  obtain ⟨exhausted, hspent, -, hpoll⟩ := d.pollUntil_eq d.hasEnoughRandom
  rw [waitEnoughRandom, hpoll] at h
  obtain ⟨u, hu, hready⟩ := poll_only (I := fun u => u.Alike s) hspent
    (fun v b w hv hcheck => by
      obtain ⟨-, rfl⟩ := (ends_hasEnoughRandom b).mp hcheck
      exact v.settled_readStatus.trans hv) (.refl s) h
  obtain ⟨hbit, rfl⟩ := (ends_hasEnoughRandom true).mp hready
  refine ⟨u.settled_readStatus.trans hu, ?_⟩
  show u.warmup - 1 = 0
  have hzero : u.warmup = 0 := beq_iff_eq.mp hbit.symm
  omega

/-- An engine warms up while a patient driver waits, whatever else it does. -/
theorem waitEnoughRandom_ends (hs : s.Coherent) (hpatient : max s.params.latency 3 < d.checks) :
    ∃ t, Returns bus d.waitEnoughRandom s () t := by
  obtain ⟨exhausted, -, -, hpoll⟩ := d.pollUntil_eq d.hasEnoughRandom
  rw [waitEnoughRandom, hpoll]
  have hreturns : ∃ t, Returns bus (poll exhausted d.hasEnoughRandom d.checks) s () t ∧ True := by
    refine poll_returns (I := fun _ => True) (fun u : State => u.warmup) (fun u _ => ?_) trivial ?_
    · refine ⟨_, _, (ends_hasEnoughRandom _).mpr ⟨rfl, rfl⟩, trivial, fun hwarm => ?_⟩
      show u.warmup - 1 < u.warmup
      have hpos : u.warmup ≠ 0 := by simpa using hwarm
      omega
    · have hwarmup : s.warmup ≤ 3 := hs.warmup_le
      omega
  obtain ⟨t, ht, -⟩ := hreturns
  exact ⟨t, ht⟩

theorem waitEnoughRandom_returns (hs : Ready d s) :
    ∃ t, Returns bus d.waitEnoughRandom s () t ∧ Ready d t := by
  obtain ⟨t, ht⟩ := waitEnoughRandom_ends hs.coherent hs.patient
  have halike := (waitEnoughRandom_only ht).1
  exact ⟨t, ht, hs.frame (Ends.coherent ht hs.coherent)
    (halike.field (fun u => (u.errors, u.multiplying, u.params)) fun _ => rfl)⟩

/-! ### Settling -/

theorem checkErrors_only (h : Returns bus d.checkErrors s () t) :
    t = s.readStatus.2 ∧ Status.errors.get s.readStatus.1 = 0 := by
  simp only [checkErrors, returns_bind, returns_lift, ends_status] at h
  obtain ⟨_, _, ⟨rfl, rfl⟩, hrest⟩ := h
  split at hrest
  · rename_i hclear
    exact ⟨((returns_pure _ _ _ _).mp hrest).2, hclear⟩
  · simp only [returns_bind] at hrest
    obtain ⟨_, _, -, _, _, -, hthrow⟩ := hrest
    exact absurd hthrow (not_returns_throw _ _ _ _)

theorem settle_only (h : Returns bus d.settle s () t) :
    t.Alike s ∧ t.warmup ≤ s.warmup ∧ s.multiplying = false ∧
      (s.Coherent → s.errors = 0) := by
  obtain ⟨_, u, hwait, hcheck⟩ := (returns_bind _ _ _ _ _).mp h
  obtain ⟨halike, hwarmup, hresting⟩ := waitIdle_only hwait
  obtain ⟨rfl, hclear⟩ := checkErrors_only hcheck
  refine ⟨u.settled_readStatus.trans halike, Nat.le_trans (Nat.sub_le _ _) hwarmup, hresting,
    fun hs => ?_⟩
  rw [State.errors_readStatus u (Ends.coherent hwait hs)] at hclear
  rw [← hclear]
  exact (halike.field State.errors fun _ => rfl).symm

theorem checkErrors_returns (hs : Ready d s) :
    ∃ t, Returns bus d.checkErrors s () t ∧ Ready d t := by
  refine ⟨s.readStatus.2, ?_, hs.readStatus⟩
  simp only [checkErrors, returns_bind, returns_lift, ends_status]
  refine ⟨_, _, ⟨rfl, rfl⟩, ?_⟩
  rw [State.errors_readStatus s hs.coherent, if_pos hs.clear]
  exact (returns_pure _ _ _ _).mpr ⟨rfl, rfl⟩

/-- Errors are reported as they are found. -/
theorem report_returns (latched : UInt32) (s : State) : Returns bus (report latched) s () s := by
  have hall (errors : List HardwareError) :
      Returns bus (errors.forM fun error => (liftM (notify (.latched error)) : Operation Unit)) s ()
        s := by
    induction errors with
    | nil => exact (returns_forM_nil _ _ _).mpr rfl
    | cons error rest ih => exact (returns_forM_cons _ _ _ _ _).mpr ⟨s, returns_notify _ s, ih⟩
  rw [report, returns_bind]
  refine ⟨(), s, hall _, ?_⟩
  split
  · exact (returns_pure _ _ _ _).mpr ⟨rfl, rfl⟩
  · exact returns_notify _ s

/-- What acknowledging its errors makes of a state. -/
def acknowledged (s : State) : State :=
  { s with errors := s.errors &&& ~~~(Latch.ofAckWord (Latch.ackWord s.errors)) }

/-- Errors that the status word shows are acknowledged and thrown. -/
theorem checkErrors_throws {errors : UInt32} (hshown : Status.errors.get s.readStatus.1 = errors)
    (herrors : errors ≠ 0) :
    Throws bus d.checkErrors s (.hardware errors)
      (s.readStatus.2.writeSink .errorAck (Latch.ackWord errors).toUInt64) := by
  have hstatus : Returns bus (liftM d.status : Operation UInt32) s s.readStatus.1 s.readStatus.2 :=
    (returns_lift _ _ _ _).mpr ((ends_status _ _).mpr ⟨rfl, rfl⟩)
  have hwrite : Returns bus (liftM (d.write .errorAck (Latch.ackWord errors)) : Operation Unit)
      s.readStatus.2 () (s.readStatus.2.writeSink .errorAck (Latch.ackWord errors).toUInt64) :=
    (returns_lift _ _ _ _).mpr ((ends_write _ _ _ _).mpr rfl)
  refine hstatus.throws ?_
  simp only [hshown, if_neg herrors]
  exact (report_returns _ _).throws (hwrite.throws ((throws_throw _ _ _ _).mpr ⟨rfl, rfl⟩))

/-- Settling throws the errors that are latched, and acknowledges them. -/
theorem settle_throws (hs : Awaitable d s) (herrors : s.errors ≠ 0) :
    ∃ t, Throws bus d.settle s (.hardware s.errors) t ∧ t.Coherent ∧ t.Alike (acknowledged s) := by
  obtain ⟨u, hwait, hu⟩ := waitIdle_ends hs
  have halike := (waitIdle_only hwait).1
  have hsame : u.errors = s.errors := halike.field State.errors fun _ => rfl
  have hlatched : Status.errors.get u.readStatus.1 = s.errors :=
    (State.errors_readStatus u hu.coherent).trans hsame
  have hthrows := checkErrors_throws (d := d) hlatched herrors
  refine ⟨_, hwait.throws hthrows, hu.coherent.readStatus.writeSink _ _, ?_⟩
  have hread := u.settled_readStatus.trans halike
  have hacknowledged := hread.writeSink .errorAck (Latch.ackWord s.errors).toUInt64 nofun
  rwa [show s.writeSink .errorAck (Latch.ackWord s.errors).toUInt64 = acknowledged s by
    simp only [State.writeSink, UInt32.toUInt32_toUInt64, acknowledged]] at hacknowledged

theorem does_settle (s : State) : Does (Ready d) d.settle s () s where
  only _ _ _ ht h := ⟨rfl, (settle_only h).1.trans ht⟩
  returns t _ ht := by
    obtain ⟨u, hwait, hu⟩ := waitIdle_returns ht
    obtain ⟨v, hcheck, hv⟩ := checkErrors_returns hu
    exact ⟨v, (returns_bind _ _ _ _ _).mpr ⟨(), u, hwait, hcheck⟩, hv⟩

/-- A settled write that returns has been carried out by an engine at rest, which has
come to rest again. -/
theorem writeSettled_only {r : Sink} {word : UInt32} (h : Returns bus (d.writeSettled r word) s () t) :
    ∃ u, Returns bus d.waitIdle s () u ∧ u.Alike s ∧ u.warmup ≤ s.warmup ∧
      u.multiplying = false ∧
      Returns bus d.settle (u.writeSink r word.toUInt64) () t ∧
      t.Alike (u.writeSink r word.toUInt64) ∧ t.multiplying = false ∧
      (s.Coherent → t.errors = 0) := by
  simp only [writeSettled, returns_bind, returns_lift, ends_write] at h
  obtain ⟨_, u, hwait, _, _, rfl, hsettle⟩ := h
  obtain ⟨halike, hwarmup, hresting⟩ := waitIdle_only hwait
  obtain ⟨halike', -, hresting', hclear⟩ := settle_only hsettle
  refine ⟨u, hwait, halike, hwarmup, ?_, hsettle, halike', ?_, fun hs => ?_⟩
  · exact (halike.field State.multiplying fun _ => rfl).trans hresting
  · exact (halike'.field State.multiplying fun _ => rfl).trans hresting'
  · exact (halike'.field State.errors fun _ => rfl).trans
      (hclear ((Ends.coherent hwait hs).writeSink _ _))

theorem writeSettled_returns (r : Sink) (word : UInt32) (hs : Ready d s)
    (same : ∀ u : State, u.Alike s → u.warmup ≤ s.warmup → u.multiplying = false →
      ((u.writeSink r word.toUInt64).errors, (u.writeSink r word.toUInt64).multiplying,
        (u.writeSink r word.toUInt64).params) = (s.errors, s.multiplying, s.params)) :
    ∃ t, Returns bus (d.writeSettled r word) s () t ∧ Ready d t := by
  obtain ⟨u, hwait, hu⟩ := waitIdle_returns hs
  obtain ⟨halike, hwarmup, -⟩ := waitIdle_only hwait
  have hready := hs.frame (hu.coherent.writeSink r word.toUInt64)
    (same u halike hwarmup hu.resting)
  obtain ⟨t, hsettle, ht⟩ := (does_settle _).returns _ (.refl _) hready
  refine ⟨t, ?_, ht⟩
  simp only [writeSettled, returns_bind, returns_lift, ends_write]
  exact ⟨(), u, hwait, (), _, rfl, hsettle⟩

/-- A settled write does what the register does, if that leaves the engine at rest and
without an error. -/
theorem does_writeSettled (r : Sink) (word : UInt32)
    (heffect : ∀ u : State, u.Alike s → u.multiplying = false →
      (u.writeSink r word.toUInt64).Alike s')
    (same : (s'.errors, s'.multiplying, s'.params) = (s.errors, s.multiplying, s.params)) :
    Does (Ready d) (d.writeSettled r word) s () s' where
  only t _ v ht h := by
    obtain ⟨u, -, halike, -, hresting, -, halike', -⟩ := writeSettled_only h
    exact ⟨rfl, halike'.trans (heffect u (halike.trans ht) hresting)⟩
  returns t ht hready := by
    refine writeSettled_returns r word hready fun u hu _ hresting => ?_
    have hwritten := heffect u (hu.trans ht) hresting
    have hsame (v w : State) (h : v.Alike w) :
        (v.errors, v.multiplying, v.params) = (w.errors, w.multiplying, w.params) :=
      h.field (fun v => (v.errors, v.multiplying, v.params)) fun _ => rfl
    rw [hsame _ _ hwritten, same, hsame _ _ ht]

/-- A settled write throws what is latched once it has been carried out, and acknowledges it. -/
theorem writeSettled_latched (r : Sink) (word : UInt32) (hs : Awaitable d s)
    (heffect : ∀ u : State, u.Alike s → u.multiplying = false →
      (u.writeSink r word.toUInt64).Alike s')
    (same : (s'.multiplying, s'.params) = (s.multiplying, s.params)) (hlatched : s'.errors ≠ 0) :
    ∃ t, Throws bus (d.writeSettled r word) s (.hardware s'.errors) t ∧ t.Coherent ∧
      t.Alike (acknowledged s') := by
  obtain ⟨u, hwait, hu⟩ := waitIdle_ends hs
  have hwritten := heffect u (waitIdle_only hwait).1 hu.resting
  have herrors : (u.writeSink r word.toUInt64).errors = s'.errors :=
    hwritten.field State.errors fun _ => rfl
  obtain ⟨hmultiplying, hparams⟩ := Prod.mk.inj same
  have hv : Awaitable d (u.writeSink r word.toUInt64) := by
    refine ⟨hu.coherent.writeSink _ _, ?_, ?_⟩
    · rw [hwritten.field State.multiplying fun _ => rfl, hmultiplying, hs.resting]
    · rw [hwritten.field State.params fun _ => rfl, hparams]
      exact hs.patient
  obtain ⟨t, hthrows, hcoherent, ht⟩ := settle_throws hv (herrors ▸ hlatched)
  have hwrite : Returns bus (liftM (d.write r word) : Operation Unit) u ()
      (u.writeSink r word.toUInt64) := (returns_lift _ _ _ _).mpr ((d.ends_write _ _ _).mpr rfl)
  rw [herrors] at hthrows
  exact ⟨t, hwait.throws (hwrite.throws hthrows), hcoherent,
    ht.trans (hwritten.apply (show State.Timeless acknowledged from fun _ => rfl))⟩

end CurveEngine.Driver
