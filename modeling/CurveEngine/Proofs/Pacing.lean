import CurveEngine.Proofs.Conduct
import CurveEngine.Proofs.Refinement
import CurveEngine.Proofs.Twins
import CurveEngine.Proofs.Untimed

/-! One driver on two engines of different latencies.

The runs differ in how often a driver polls, so they cannot go abreast access by access; but
where a wait is over both engines have come to rest, and then they are level. A run `Accords`
with another if both end alike and, where they are done, leave related states: nothing is said of
engines whose run is spent in the middle of something. Waiting and settling bring near engines
level (`accords_waitIdle`, `accords_settle`), and so does whatever begins and ends with it, the
transfers of numbers and the traced part of a multiplication included. -/
namespace CurveEngine
open Register Procedure Device

variable {α β ρ : Type} {R R' : State → State → Prop} {s t u v : State}

namespace Procedure

/-- Run from `s` and from `t`, a procedure ends alike, and where it is done, in related states. -/
def Accords (R : State → State → Prop) (p : Procedure α) (s t : State) : Prop :=
  ∃ x u v, p.run bus s = (x, u) ∧ p.run bus t = (x, v) ∧ ∀ a, x = .done a → R u v

namespace Accords
variable {p : Procedure α}

theorem of_ends {a : α} (hs : Ends bus p s a u) (ht : Ends bus p t a v) (h : R u v) :
    Accords R p s t := ⟨_, u, v, hs, ht, fun _ _ => h⟩

theorem of_abreast (h : Abreast R p s p t) : Accords R p s t := by
  obtain ⟨x, u, v, hs, ht, hr⟩ := h
  exact ⟨x, u, v, hs, ht, fun _ _ => hr⟩

theorem mono (h : Accords R p s t) (hR : ∀ u v, R u v → R' u v) : Accords R' p s t := by
  obtain ⟨x, u, v, hs, ht, hr⟩ := h
  exact ⟨x, u, v, hs, ht, fun a ha => hR u v (hr a ha)⟩

theorem pure (a : α) (h : R s t) : Accords R (pure a) s t := of_ends rfl rfl h

theorem notify (notice : Notice) (h : R s t) : Accords R (notify notice) s t := of_ends rfl rfl h

theorem spent : Accords R (.spent : Procedure α) s t := ⟨_, s, t, rfl, rfl, nofun⟩

/-- Where a run is done, so is the one that it accords with. -/
theorem ends {a : α} (h : Accords R p s t) (hs : Ends bus p s a u) :
    ∃ v, Ends bus p t a v ∧ R u v := by
  obtain ⟨x, u', v, hs', ht, hr⟩ := h
  unfold Ends at hs
  rw [hs', Prod.mk.injEq] at hs
  obtain ⟨rfl, rfl⟩ := hs
  exact ⟨v, ht, hr a rfl⟩

/-- What is known of the ends otherwise. -/
theorem and (h : Accords R p s t)
    (hends : ∀ a u v, Ends bus p s a u → Ends bus p t a v → R' u v) :
    Accords (fun u v => R u v ∧ R' u v) p s t := by
  obtain ⟨x, u, v, hs, ht, hr⟩ := h
  refine ⟨x, u, v, hs, ht, ?_⟩
  rintro a rfl
  exact ⟨hr a rfl, hends a u v hs ht⟩

/-- What follows goes on from where a procedure is done. -/
theorem bind {f : α → Procedure β} (h : Accords R p s t)
    (hf : ∀ a u v, Ends bus p s a u → Ends bus p t a v → R u v → Accords R' (f a) u v) :
    Accords R' (p >>= f) s t := by
  obtain ⟨x, u, v, hs, ht, hr⟩ := h
  have hleft : (p >>= f).run bus s = _ := run_bind bus p f s
  have hright : (p >>= f).run bus t = _ := run_bind bus p f t
  rw [hs] at hleft
  rw [ht] at hright
  cases x with
  | done a =>
    obtain ⟨y, w, w', hw, hw', hr'⟩ := hf a u v hs ht (hr a rfl)
    exact ⟨y, w, w', hleft.trans hw, hright.trans hw', hr'⟩
  | refused refusal => exact ⟨_, u, v, hleft, hright, nofun⟩
  | spent => exact ⟨_, u, v, hleft, hright, nofun⟩

/-- The first part may end in results of its own, if they make no difference to what follows. -/
theorem of_ends_bind {f : α → Procedure β} {a b : α} (hs : Ends bus p s a u)
    (ht : Ends bus p t b v) (hf : f b = f a) (h : Accords R (f a) u v) :
    Accords R (p >>= f) s t := by
  obtain ⟨x, w, w', hw, hw', hr⟩ := h
  have hleft : (p >>= f).run bus s = _ := run_bind bus p f s
  have hright : (p >>= f).run bus t = _ := run_bind bus p f t
  rw [show p.run bus s = _ from hs] at hleft
  rw [show p.run bus t = _ from ht] at hright
  dsimp only at hright
  rw [hf] at hright
  exact ⟨x, w, w', hleft.trans hw, hright.trans hw', hr⟩

/-! ### Operations -/

/-- What follows an operation that returns goes on from there. -/
theorem operation {op : Operation α} {f : α → Operation β} (h : Accords R op.run s t)
    (hf : ∀ a u v, Operation.Returns bus op s a u → Operation.Returns bus op t a v → R u v →
      Accords R (f a).run u v) : Accords R (op >>= f).run s t := by
  rw [ExceptT.run_bind]
  refine h.bind fun x u v hu hv hr => ?_
  cases x with
  | ok a => exact hf a u v hu hv hr
  | error e => exact pure _ hr

theorem returning {op : Operation α} {f : α → Operation β} {a : α}
    (hs : Operation.Returns bus op s a u) (ht : Operation.Returns bus op t a v)
    (h : Accords R (f a).run u v) : Accords R (op >>= f).run s t := by
  rw [ExceptT.run_bind]
  exact of_ends_bind hs ht rfl h

theorem lift {f : α → Operation β} (h : Accords R p s t)
    (hf : ∀ a u v, Ends bus p s a u → Ends bus p t a v → R u v → Accords R' (f a).run u v) :
    Accords R' ((liftM p : Operation α) >>= f).run s t := by
  rw [Operation.run_lift_bind]
  exact h.bind hf

/-- What follows an operation that returns goes on from there, on the same record. -/
theorem recording {op : Operation α} {f : α → Recording ρ β} {r : ρ} (h : Accords R op.run s t)
    (hf : ∀ a u v, Operation.Returns bus op s a u → Operation.Returns bus op t a v → R u v →
      Accords R ((f a).on r) u v) :
    Accords R (((liftM op : Recording ρ α) >>= f).on r) s t := by
  rw [Recording.on_lift_bind]
  refine h.bind fun x u v hu hv hr => ?_
  cases x with
  | ok a => exact hf a u v hu hv hr
  | error e => exact pure _ hr

end Accords

/-- The parameters of an engine never change. -/
theorem Ends.params {p : Procedure α} {a : α} (h : Ends bus p s a t) : t.params = s.params := by
  have hrun : (p.run bus s).2.params = s.params := by
    refine run_preserves (I := fun u : State => u.params = s.params) (fun size offset u hu => ?_)
      (fun size offset value u hu => ?_) (fun _ _ hu => hu) p rfl
    · show (u.read size offset).2.params = s.params
      unfold State.read
      split
      · exact hu
      · exact (congrArg (fun core => core.2.2.2.1) (State.core_readSource _ u)).trans hu
    · show (u.write size offset value).2.params = s.params
      unfold State.write
      split
      · exact (Driver.params_writeSink _ _ u).trans hu
      · split
        · exact hu
        · exact hu
  rwa [show p.run bus s = _ from h] at hrun

end Procedure

namespace Driver
variable {d : Driver}

/-! ### Attending -/

/-- A driver that is patient enough for its engine. -/
structure Attends (d : Driver) (s : State) : Prop where
  coherent : s.Coherent
  patient : max s.params.latency 3 < d.checks

theorem Attends.ends {p : Procedure α} {a : α} (h : d.Attends s) (hp : Ends bus p s a t) :
    d.Attends t := ⟨Ends.coherent hp h.coherent, hp.params.symm ▸ h.patient⟩

/-- Two related engines that a driver attends. -/
structure Tended (d : Driver) (R : State → State → Prop) (s t : State) : Prop where
  left : d.Attends s
  right : d.Attends t
  related : R s t

theorem Tended.mono (h : d.Tended R s t) (hR : R s t → R' s t) : d.Tended R' s t :=
  ⟨h.left, h.right, hR h.related⟩

theorem Tended.near (h : d.Tended State.Level s t) : d.Tended State.Near s t :=
  h.mono State.Level.near

/-- Engines stay attended, whatever is done to them. -/
theorem Tended.accords {p : Procedure α} (h : d.Tended R s t) (hp : Accords R' p s t) :
    Accords (d.Tended R') p s t := by
  have hattended : Accords (fun u v => R' u v ∧ d.Attends u ∧ d.Attends v) p s t :=
    hp.and fun _ _ _ hu hv => ⟨h.left.ends hu, h.right.ends hv⟩
  exact hattended.mono fun _ _ ⟨hr, hu, hv⟩ => ⟨hu, hv, hr⟩

/-! ### Waiting -/

/-- A poll that looks at nothing but the status lets time pass. -/
theorem pollUntil_near {check : Procedure Bool}
    (hcheck : ∀ u b v, Ends bus check u b v → v = u.readStatus.2)
    (h : Operation.Returns bus (d.pollUntil check) s () t) : t.Near s := by
  obtain ⟨exhausted, hspent, -, hpoll⟩ := d.pollUntil_eq check
  rw [hpoll] at h
  have hlook (u v : State) (b : Bool) (hu : u.Near s) (hends : Ends bus check u b v) : v.Near s := by
    rw [hcheck u b v hends]
    exact u.near_readStatus.trans hu
  obtain ⟨u, hu, hready⟩ := poll_only (I := fun u => u.Near s) hspent
    (fun u b v hu hends => hlook u v b hu hends) (.refl s) h
  exact hlook u t true hu hready

theorem waitIdle_near (h : Operation.Returns bus d.waitIdle s () t) : t.Near s :=
  pollUntil_near (fun _ b _ hends => ((ends_isIdle b).mp hends).2) h

theorem waitEnoughRandom_near (h : Operation.Returns bus d.waitEnoughRandom s () t) : t.Near s :=
  pollUntil_near (fun _ b _ hends => ((ends_hasEnoughRandom b).mp hends).2) h

/-- A driver waits in vain for an engine that multiplies, whatever its latency. -/
theorem accords_waitIdle_running (h : s.Level t) (hrunning : s.multiplying = true) :
    Accords State.Level d.waitIdle.run s t := by
  let Running (u v : State) : Prop := u.Level v ∧ u.multiplying = true ∧ v.multiplying = true
  have hcheck : Lockstep Running d.isIdle d.isIdle := by
    intro u v hrun
    obtain ⟨hlevel, hu, hv⟩ := hrun
    have hbusy {w : State} (hw : w.multiplying = true) : Ends bus d.isIdle w false w.readStatus.2 :=
      (ends_isIdle false).mpr ⟨by rw [hw, Bool.or_true]; rfl, rfl⟩
    have hleft : u.readStatus.2.Level u := u.near_readStatus.running hu
    have hright : v.readStatus.2.Level v := v.near_readStatus.running hv
    exact .of_ends (hbusy hu) (hbusy hv) ⟨(hleft.trans hlevel).trans hright.symm, hu, hv⟩
  have hwait : Operation.Lockstep Running d.waitIdle d.waitIdle := by
    unfold Driver.waitIdle Driver.pollUntil
    split
    · exact .poll (.throw _) hcheck _
    · exact .poll (Procedure.Lockstep.spent.map Except.ok) hcheck _
  have hrunning' : t.multiplying = true := h.near.multiplying_eq.symm.trans hrunning
  exact (Accords.of_abreast (hwait s t ⟨h, hrunning, hrunning'⟩)).mono fun _ _ huv => huv.1

/-- A wait that is over leaves near engines level, and so does one in vain. -/
theorem accords_waitIdle (h : d.Tended State.Near s t) :
    Accords (d.Tended State.Level) d.waitIdle.run s t := by
  refine h.accords ?_
  -- A wait for a multiplication is in vain whatever the latency. Any other is over at a patient
  -- driver, and the last look has then filled the random FIFOs.
  cases hrunning : s.multiplying with
  | true => exact accords_waitIdle_running (h.related.running hrunning) hrunning
  | false =>
    have hresting : t.multiplying = false := h.related.multiplying_eq.symm.trans hrunning
    obtain ⟨u, hu, -⟩ := waitIdle_ends ⟨h.left.coherent, hrunning, h.left.patient⟩
    obtain ⟨v, hv, -⟩ := waitIdle_ends ⟨h.right.coherent, hresting, h.right.patient⟩
    have hnear := (waitIdle_near hu).trans (h.related.trans (waitIdle_near hv).symm)
    exact .of_ends hu hv
      (hnear.level (rested_of_waitIdle hu).1.waiting (rested_of_waitIdle hv).1.waiting)

/-! ### Accesses -/

/-- A register is written alike, but for a scalar that is refused. -/
theorem accords_writeWord (h : d.Tended State.Level s t) {r : Sink} (value : UInt64)
    (hwarm : r = .control → State.OpensScalar (d.cut value).toUInt32 → s.warmup = 0 ∧ t.warmup = 0) :
    Accords (d.Tended State.Level) (d.writeWord r value) s t :=
  h.accords (.of_ends ((d.ends_writeWord r value ()).mpr rfl) ((d.ends_writeWord r value ()).mpr rfl)
    (State.untimed_writeSink h.related r _ hwarm))

theorem accords_write (h : d.Tended State.Level s t) {r : Sink} {word : UInt32}
    (hwarm : r = .control → State.OpensScalar word → s.warmup = 0 ∧ t.warmup = 0) :
    Accords (d.Tended State.Level) (d.write r word) s t := by
  refine accords_writeWord h _ ?_
  rwa [d.cut_toUInt64, UInt32.toUInt32_toUInt64]

/-- A word of a transfer is the same. -/
theorem accords_readData (h : d.Tended State.Level s t) :
    Accords (d.Tended State.Level) (d.readWord .readData) s t := by
  have hs := State.untimed_readSource (r := .readData) nofun s
  have ht := State.untimed_readSource (r := .readData) nofun t
  rw [show s.untimed = t.untimed from h.related, ht, Prod.mk.injEq] at hs
  refine h.accords (.of_ends ((d.ends_readWord .readData _).mpr ⟨rfl, rfl⟩)
    ((d.ends_readWord .readData _).mpr ⟨?_, rfl⟩) hs.2.symm)
  rw [hs.1]

/-- Looks at the status of engines that have been waited for. -/
theorem accords_checkErrors (h : d.Tended State.Level s t) (hs : s.Rested) (ht : t.Rested)
    (hresting : s.multiplying = false) :
    Accords (d.Tended State.Level) d.checkErrors.run s t := by
  have hresting' : t.multiplying = false := h.near.related.multiplying_eq.symm.trans hresting
  have herrors : s.errors = t.errors := State.field_of_untimed h.related State.errors fun _ => rfl
  have hleft : Ends bus d.status s s.readStatus.1 s.readStatus.2 := (ends_status _ _).mpr ⟨rfl, rfl⟩
  have hright : Ends bus d.status t t.readStatus.1 t.readStatus.2 := (ends_status _ _).mpr ⟨rfl, rfl⟩
  have hlooked : d.Tended State.Level s.readStatus.2 t.readStatus.2 := by
    refine ⟨h.left.ends hleft, h.right.ends hright, State.Near.level ?_ ?_ ?_⟩
    · exact s.near_readStatus.trans (h.near.related.trans t.near_readStatus.symm)
    · exact (State.rested_readStatus hs.busy hs.init hresting).waiting
    · exact (State.rested_readStatus ht.busy ht.init hresting').waiting
  have hlatched : Status.errors.get t.readStatus.1 = Status.errors.get s.readStatus.1 := by
    rw [State.errors_readStatus s h.left.coherent, State.errors_readStatus t h.right.coherent, herrors]
  rw [checkErrors, Operation.run_lift_bind]
  refine Accords.of_ends_bind hleft hright (by simp only [hlatched]) ?_
  dsimp only
  split
  · exact .pure _ hlooked
  · have hack : Sink.errorAck ≠ .control := by decide
    refine (Accords.of_abreast (Paired.report _ _ _ hlooked)).operation fun _ u v _ _ huv => ?_
    exact (accords_write huv fun h => absurd h hack).lift fun _ u v _ _ huv => .pure _ huv

theorem accords_settle (h : d.Tended State.Near s t) :
    Accords (d.Tended State.Level) d.settle.run s t := by
  refine (accords_waitIdle h).operation fun _ u v hu hv huv => ?_
  have hresting : u.multiplying = false :=
    (waitIdle_near hu).multiplying_eq.trans (waitIdle_only hu).2.2
  exact accords_checkErrors huv (rested_of_waitIdle hu).1 (rested_of_waitIdle hv).1 hresting

/-- An access that is waited for, on either side of it. -/
theorem accords_enclosed {access : Procedure α} (h : d.Tended State.Near s t)
    (haccess : ∀ u v, d.Tended State.Level u v → u.warmup ≤ s.warmup → v.warmup ≤ t.warmup →
      Accords (d.Tended State.Level) access u v) :
    Accords (d.Tended State.Level) (d.enclosed access).run s t := by
  refine (accords_waitIdle h).operation fun _ u v hu hv huv => ?_
  have hdone := haccess u v huv (waitIdle_only hu).2.1 (waitIdle_only hv).2.1
  exact hdone.lift fun a u v _ _ huv =>
    (accords_settle huv.near).operation fun _ u v _ _ huv => .pure _ huv

theorem accords_writeSettled (h : d.Tended State.Near s t) {r : Sink} {word : UInt32}
    (hwarm : r = .control → State.OpensScalar word → s.warmup = 0 ∧ t.warmup = 0) :
    Accords (d.Tended State.Level) (d.writeSettled r word).run s t := by
  rw [← enclosed_write]
  refine accords_enclosed h fun u v huv hu hv => accords_write huv fun hr ho => ?_
  have hwarmup := hwarm hr ho
  omega

/-! ### Transfers -/

theorem accords_sendWords (words : List UInt64) (h : d.Tended State.Level s t) :
    Accords (d.Tended State.Level) (words.forM d.sendWord).run s t := by
  induction words generalizing s t with
  | nil => exact .pure _ h
  | cons word rest ih =>
    have hword : Accords (d.Tended State.Level) (d.sendWord word).run s t := by
      rw [← enclosed_send]
      exact accords_enclosed h.near fun u v huv _ _ => accords_writeWord huv word nofun
    exact hword.operation fun _ u v _ _ huv => ih huv

theorem accords_openWrite (h : d.Tended State.Near s t) (destination : Destination) :
    Accords (d.Tended State.Level) (d.openWrite destination).run s t := by
  cases destination with
  | number n =>
    refine accords_writeSettled h fun _ ho => ?_
    exact absurd ho.2 (by cases n <;> decide)
  | scalar =>
    obtain ⟨u, hu⟩ := waitEnoughRandom_ends h.left.coherent h.left.patient
    obtain ⟨v, hv⟩ := waitEnoughRandom_ends h.right.coherent h.right.patient
    have hnear := (waitEnoughRandom_near hu).trans
      (h.related.trans (waitEnoughRandom_near hv).symm)
    exact Accords.returning hu hv (accords_writeSettled ⟨h.left.ends hu, h.right.ends hv, hnear⟩
      fun _ _ => ⟨(waitEnoughRandom_only hu).2, (waitEnoughRandom_only hv).2⟩)

theorem accords_transmit (h : d.Tended State.Near s t) (destination : Destination)
    (words : List UInt64) :
    Accords (d.Tended State.Level)
      (do d.openWrite destination; words.forM d.sendWord : Operation Unit).run s t :=
  (accords_openWrite h destination).operation fun _ _ _ _ _ huv => accords_sendWords words huv

theorem accords_receiveWords (count : Nat) (received : List UInt64)
    (h : d.Tended State.Level s t) :
    Accords (d.Tended State.Level) ((d.receiveWords count).on received) s t := by
  induction count generalizing s t received with
  | zero => exact .pure _ h
  | succ count ih =>
    have hword : Accords (d.Tended State.Level) d.receiveWord.run s t :=
      accords_enclosed h.near fun u v huv _ _ => accords_readData huv
    exact hword.recording fun word u v _ _ huv => ih (word :: received) huv

theorem accords_receive {command : Command} (hcommand : Fetches command) (count : Nat)
    (received : List UInt64) (h : d.Tended State.Near s t) :
    Accords (d.Tended State.Level)
      ((do d.writeSettled .control command.word; d.receiveWords count :
        Recording (List UInt64) Unit).on received) s t := by
  refine (accords_writeSettled h fun _ ho => ?_).recording
    fun _ u v _ _ huv => accords_receiveWords count received huv
  cases hcommand with
  | number n => exact absurd ho.1 (by cases n <;> decide)
  | token => exact absurd ho.1 (by decide)

/-! ### Traced runs -/

/-- A debug engine takes what may be written at any time, and what follows goes on from there. -/
theorem accords_writeDebug {r : Sink} (hr : r.isFree = true) (word : UInt32) {op : Operation α}
    (h : d.Tended State.Near s t) (hdebug : s.params.debug = true)
    (hop : ∀ u v, d.Tended State.Near u v → u.params.debug = true → Accords R op.run u v) :
    Accords R (do d.writeDebug r word; op).run s t := by
  have hwrite {u : State} (hu : u.params.debug = true) :
      Operation.Returns bus (d.writeDebug r word) u () (u.writeSink r word.toUInt64) :=
    (Operation.returns_bind _ _ _ _ _).mpr ⟨(), u, (returns_ensureDebug hu u).mpr rfl,
      (Operation.returns_lift _ _ _ _).mpr ((d.ends_write r word ()).mpr rfl)⟩
  have hdebug' : t.params.debug = true :=
    (h.related.field (fun u => u.params.debug) fun _ => rfl).symm.trans hdebug
  have hwritten : d.Tended State.Near (s.writeSink r word.toUInt64) (t.writeSink r word.toUInt64) :=
    ⟨h.left.ends (hwrite hdebug), h.right.ends (hwrite hdebug'),
      h.related.writeSink hr h.left.coherent h.right.coherent _⟩
  refine Accords.returning (hwrite hdebug) (hwrite hdebug') (hop _ _ hwritten ?_)
  rw [params_writeSink, hdebug]

/-- A debug engine is released, and settled in the end. -/
theorem accords_release (h : d.Tended State.Near s t) (hdebug : s.params.debug = true) :
    Accords (d.Tended State.Level) d.release.run s t := by
  show Accords _ (do
    d.writeDebug .breakpoint (Breakpoint.id.set traceBreakpoint 0)
    d.writeDebug .steps (Steps.resume.put true 0)
    d.settle : Operation Unit).run s t
  exact accords_writeDebug rfl _ h hdebug fun _ _ huv hu =>
    accords_writeDebug rfl _ huv hu fun _ _ huv _ => accords_settle huv

theorem accords_startAndFollow {layout : LimbLayout} {trace : Trace}
    (h : d.Tended State.Near s t) (hdebug : s.params.debug = true)
    (hfollow : ∀ u v, d.Tended State.Near u v →
      Accords (d.Tended State.Near) ((d.followRun layout).on trace) u v) :
    Accords (d.Tended State.Level) ((d.startAndFollow layout).on trace) s t := by
  refine (accords_waitIdle h).recording fun _ u v hu _ huv => ?_
  rw [Recording.on_procedure_bind]
  refine (accords_write huv fun _ ho => absurd ho.1 (by decide)).bind fun _ u' v' hu' _ huv => ?_
  rw [followAndRelease_on]
  refine (hfollow u' v' huv.near).bind fun x u'' v'' hu'' _ huv => ?_
  have hdebug'' : u''.params.debug = true := by
    rw [hu''.params, hu'.params, Ends.params hu, hdebug]
  refine (accords_release huv hdebug'').bind fun released u v _ _ huv => ?_
  exact (Accords.notify _ huv).bind fun _ u v _ _ huv => .pure _ huv

end Driver

end CurveEngine
