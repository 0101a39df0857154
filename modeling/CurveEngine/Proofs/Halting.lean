import CurveEngine.Proofs.Settling
import CurveEngine.Driver.Stepping

/-! The debug bank of a halted engine.

A halted engine is not ready, but the driver can still tell that it is halted
(`does_waitHaltedOrOver`), where it is halted (`does_debugSnapshot`), and what is in its
Fp memory (`does_fetchLimb`, `does_readSlot`). None of this changes the engine, except
for the limb that was fetched last. -/
namespace CurveEngine
open Register Procedure Device Operation

namespace Device

theorem Sequencer.halted_statusWord (q : Sequencer) :
    DebugStatus.halted.test q.statusWord = q.isHalted := by
  unfold Sequencer.statusWord
  cases q.hit with
  | none =>
    cases q.last with
    | none => simp (disch := decide) only [BitField.test_put]
    | some p => simp (disch := decide) only [BitField.test_set_of_apart, BitField.test_put]
  | some id =>
    cases q.last with
    | none =>
      simp (disch := decide) only [BitField.test_set_of_apart, BitField.test_put_of_apart,
        BitField.test_put]
    | some p =>
      simp (disch := decide) only [BitField.test_set_of_apart, BitField.test_put_of_apart,
        BitField.test_put]

namespace State

/-- A number as a driver reads it from Fp memory. -/
def slotOf (layout : LimbLayout) (slot : Nat) (memory : FpMemory) : LimbNumber :=
  ⟨layout.limbWidth, (Driver.limbAddresses layout slot).map fun a => memory.getD a.toNat 0⟩

/-- A state in which the limb at an address has been fetched. -/
def fetched (address : UInt32) (s : State) : State :=
  { s with limb := s.fp.getD address.toNat 0, limbReady := true }

theorem readSource_of_debug {s : State} (hdebug : s.params.debug = true) (r : Source)
    (hr : (s.sourceWord r).2 = s) : s.readSource r = s.sourceWord r := by
  have hparams : (s.sourceWord r).2.params.debug = true := by rw [hr]; exact hdebug
  simp only [readSource, hparams, Bool.not_true, Bool.and_false, Bool.false_eq_true, if_false]

end State

end Device

namespace Driver
variable {α : Type} {d : Driver} {s s' : State}

/-- What is done to an engine that is ready is done to a coherent one at rest. -/
theorem Does.coherent {op : Operation α} {a : α} (h : Does (Ready d) op s a s')
    (hresting : s.multiplying = false) (hclear : s.errors = 0)
    (hpatient : max s.params.latency 3 < d.checks) : Does State.Coherent op s a s' where
  only := h.only
  returns t ht hcoherent := by
    have hready : Ready d t :=
      ⟨⟨hcoherent, (ht.field State.multiplying fun _ => rfl).trans hresting,
        (ht.field State.params fun _ => rfl).symm ▸ hpatient⟩,
        (ht.field State.errors fun _ => rfl).trans hclear⟩
    obtain ⟨u, hop, hu⟩ := h.returns t ht hready
    exact ⟨u, hop, hu.coherent⟩

/-! ### Accesses -/

theorem does_ensureDebug (hdebug : s.params.debug = true) :
    Does State.Coherent d.ensureDebug s () s := by
  have hbit : Does State.Coherent (liftM d.isDebug) s true s := by
    refine Does.lift fun t ht => ⟨t, (d.ends_isDebug true).mpr ⟨?_, rfl⟩, ht, id⟩
    rw [ht.field State.params fun _ => rfl, hdebug]
  exact hbit.bind (Does.pure ())

/-- A production engine refuses. -/
theorem ensureDebug_throws (hdebug : s.params.debug = false) :
    Throws bus d.ensureDebug s .debugOnly s := by
  have hbit : Returns bus (liftM d.isDebug : Operation Bool) s false s :=
    (returns_lift _ _ _ _).mpr ((d.ends_isDebug false).mpr ⟨hdebug.symm, rfl⟩)
  exact hbit.throws ((throws_throw _ _ _ _).mpr ⟨rfl, rfl⟩)

/-- What is refused by production engines was asked of a debug engine. -/
theorem debug_of_returns {f : Unit → Operation α} {a : α}
    (h : Returns bus (d.ensureDebug >>= f) s a s') : s.params.debug = true := by
  by_contra hdebug
  rw [Bool.not_eq_true] at hdebug
  have hthrows : Throws bus (d.ensureDebug >>= f) s .debugOnly s := (ensureDebug_throws hdebug).bind
  exact h.not_throws hthrows

theorem does_writeDebug (hdebug : s.params.debug = true) {r : Sink} (hr : r ≠ .control)
    (word : UInt32) :
    Does State.Coherent (d.writeDebug r word) s () (s.writeSink r word.toUInt64) := by
  refine (does_ensureDebug hdebug).bind (Does.lift fun t ht => ?_)
  refine ⟨_, (ends_write _ _ _ _).mpr rfl, ?_, fun h => h.writeSink _ _⟩
  exact ht.writeSink r _ fun h => absurd h hr

/-- A register of the debug bank that shows a part of the state. -/
theorem does_readDebug (hdebug : s.params.debug = true) {r : Source} {f : State → UInt64}
    (hf : ∀ t : State, t.sourceWord r = (f t, t)) (htimeless : ∀ t : State, f t.settled = f t) :
    Does State.Coherent (d.readDebug r) s (f s).toUInt32 s := by
  refine (does_ensureDebug hdebug).bind (Does.lift fun t ht => ⟨t, ?_, ht, id⟩)
  have hparams : t.params = s.params := ht.field State.params fun _ => rfl
  have hrest : (t.sourceWord r).2 = t := by rw [hf]
  have hread : t.readSource r = (f t, t) := by
    rw [State.readSource_of_debug (by rw [hparams, hdebug]) r hrest, hf]
  rw [ends_read, hread, ht.field f htimeless]
  exact ⟨rfl, rfl⟩

theorem does_debugSnapshot (hdebug : s.params.debug = true) :
    Does State.Coherent d.debugSnapshot s (.ofWord s.sequencer.statusWord) s := by
  have hread := does_readDebug (d := d) hdebug (r := .debugStatus)
    (f := fun t => t.sequencer.statusWord.toUInt64) (fun _ => rfl) fun _ => rfl
  rw [UInt32.toUInt32_toUInt64] at hread
  exact hread.bind (Does.pure _)

theorem does_ladderFlags (hdebug : s.params.debug = true) :
    Does State.Coherent d.ladderFlags s s.sequencer.flagsWord s := by
  have hread := does_readDebug (d := d) hdebug (r := .ladderFlags)
    (f := fun t => t.sequencer.flagsWord.toUInt64) (fun _ => rfl) fun _ => rfl
  rwa [UInt32.toUInt32_toUInt64] at hread

theorem does_limbWidth (hdebug : s.params.debug = true) :
    Does State.Coherent d.limbWidth s (UInt64.ofNat s.params.limbWidth).toUInt32 s :=
  does_readDebug hdebug (f := fun t => UInt64.ofNat t.params.limbWidth) (fun _ => rfl) fun _ => rfl

/-! ### Polls -/

/-- A poll whose check succeeds at once. -/
theorem returns_pollUntil {check : Procedure Bool} {t u : State} (hchecks : 0 < d.checks)
    (hbit : Ends bus check t true u) (v : State) :
    Returns bus (d.pollUntil check) t () v ↔ v = u := by
  obtain ⟨exhausted, -, -, hpoll⟩ := d.pollUntil_eq check
  obtain ⟨count, hcount⟩ := Nat.exists_eq_succ_of_ne_zero (Nat.pos_iff_ne_zero.mp hchecks)
  rw [hpoll, hcount, returns_poll_succ]
  constructor
  · rintro ⟨b, w, hw, hrest⟩
    obtain ⟨rfl, rfl⟩ := hbit.unique hw
    exact hrest
  · exact fun hv => ⟨true, u, hbit, hv⟩

theorem does_pollUntil {check : Procedure Bool} (hchecks : 0 < d.checks)
    (hcheck : ∀ t : State, t.Alike s → ∃ u, Ends bus check t true u ∧ u.Alike s) :
    Does State.Coherent (d.pollUntil check) s () s where
  only t b v ht h := by
    obtain ⟨u, hbit, hu⟩ := hcheck t ht
    rw [(returns_pollUntil hchecks hbit v).mp h]
    exact ⟨rfl, hu⟩
  returns t ht hcoherent := by
    obtain ⟨u, hbit, -⟩ := hcheck t ht
    exact ⟨u, (returns_pollUntil hchecks hbit u).mpr rfl, Ends.coherent hbit hcoherent⟩

theorem ends_isHalted (b : Bool) (t : State) (hdebug : s.params.debug = true) :
    Ends bus d.isHalted s b t ↔ b = s.isHalted ∧ t = s := by
  have hread : s.readSource .debugStatus = (s.sequencer.statusWord.toUInt64, s) :=
    State.readSource_of_debug hdebug .debugStatus rfl
  simp only [isHalted, ends_bind, ends_read, ends_pure, hread, UInt32.toUInt32_toUInt64]
  constructor
  · rintro ⟨_, _, ⟨rfl, rfl⟩, rfl, rfl⟩
    exact ⟨Sequencer.halted_statusWord _, rfl⟩
  · rintro ⟨rfl, rfl⟩
    exact ⟨_, _, ⟨rfl, rfl⟩, (Sequencer.halted_statusWord _).symm, rfl⟩

/-- A driver does not wait for an engine that is halted, nor for one at rest. -/
theorem does_waitHaltedOrOver (hdebug : s.params.debug = true) (hchecks : 0 < d.checks)
    (hstill : s.isHalted = true ∨ s.multiplying = false) :
    Does State.Coherent d.waitHaltedOrOver s
      (if s.isHalted then some (.ofWord s.sequencer.statusWord) else none) s := by
  have hcheck (t : State) (ht : t.Alike s) :
      ∃ u, Ends bus d.isHaltedOrOver t true u ∧ u.Alike s := by
    have hparams : t.params = s.params := ht.field State.params fun _ => rfl
    have hhalted : t.isHalted = s.isHalted := ht.field State.isHalted fun _ => rfl
    have hmultiplying : t.multiplying = s.multiplying := ht.field State.multiplying fun _ => rfl
    have hbit (b : Bool) (u : State) := ends_isHalted (d := d) b u (s := t) (by rw [hparams, hdebug])
    simp only [isHaltedOrOver, ends_bind, hbit]
    cases h : s.isHalted with
    | true =>
      refine ⟨t, ⟨_, t, ⟨rfl, rfl⟩, ?_⟩, ht⟩
      rw [hhalted, h]
      exact (ends_pure _ _ _ _).mpr ⟨rfl, rfl⟩
    | false =>
      have hresting : s.multiplying = false := hstill.resolve_left (by rw [h]; decide)
      refine ⟨t.readStatus.2, ⟨_, t, ⟨rfl, rfl⟩, ?_⟩, t.settled_readStatus.trans ht⟩
      rw [hhalted, h]
      simp only [Bool.false_eq_true, if_false, ends_bind, ends_status, ends_pure]
      refine ⟨_, _, ⟨rfl, rfl⟩, ?_, rfl⟩
      rw [State.multiplying_readStatus, hmultiplying, hresting]
      rfl
  have hsnapshot := (does_debugSnapshot (d := d) hdebug).bind
    (f := fun here => pure (if here.halted then some here else none)) (Does.pure _)
  have hbit : (DebugSnapshot.ofWord s.sequencer.statusWord).halted = s.isHalted :=
    s.sequencer.halted_statusWord
  rw [hbit] at hsnapshot
  exact (does_pollUntil hchecks hcheck).bind hsnapshot

/-! ### Fp memory -/

theorem returns_fetchLimb (hdebug : s.params.debug = true) (hchecks : 0 < d.checks)
    (address a : UInt32) (t : State) :
    Returns bus (d.fetchLimb address) s a t ↔
      a = s.fp.getD address.toNat 0 ∧ t = s.fetched address := by
  have hwrite : s.writeSink .limbReadAddress address.toUInt64 = s.fetched address := by
    simp only [State.writeSink, hdebug, if_true, State.writeDebug, UInt32.toUInt32_toUInt64,
      State.fetched]
  have hready : (s.fetched address).readSource .limbReady = (1, s.fetched address) :=
    State.readSource_of_debug (s := s.fetched address) hdebug .limbReady rfl
  have hread : (s.fetched address).readSource .limb =
      ((s.fp.getD address.toNat 0).toUInt64, s.fetched address) :=
    State.readSource_of_debug (s := s.fetched address) hdebug .limb rfl
  have hbit : Ends bus d.limbIsReady (s.fetched address) true (s.fetched address) := by
    simp only [limbIsReady, ends_bind, ends_read, ends_pure, hready]
    exact ⟨_, _, ⟨rfl, rfl⟩, by decide, rfl⟩
  simp only [fetchLimb, returns_bind, returns_lift, ends_write, hwrite]
  constructor
  · rintro ⟨_, _, rfl, _, u, hpoll, h⟩
    obtain rfl := (returns_pollUntil hchecks hbit u).mp hpoll
    rw [ends_read, hread, UInt32.toUInt32_toUInt64] at h
    exact h
  · rintro ⟨rfl, rfl⟩
    refine ⟨(), _, rfl, (), _, (returns_pollUntil hchecks hbit _).mpr rfl, ?_⟩
    rw [ends_read, hread, UInt32.toUInt32_toUInt64]
    exact ⟨rfl, rfl⟩

/-- A limb is fetched as it stands in memory. -/
theorem does_fetchLimb (hdebug : s.params.debug = true) (hchecks : 0 < d.checks)
    (address : UInt32) :
    Does State.Coherent (d.fetchLimb address) s (s.fp.getD address.toNat 0) s := by
  have hfetch {t : State} (ht : t.Alike s) (a : UInt32) (u : State) :
      Returns bus (d.fetchLimb address) t a u ↔
        a = s.fp.getD address.toNat 0 ∧ u = t.fetched address := by
    have hparams : t.params = s.params := ht.field State.params fun _ => rfl
    rw [returns_fetchLimb (by rw [hparams, hdebug]) hchecks, ht.field State.fp fun _ => rfl]
  constructor
  · intro t a u ht h
    obtain ⟨ha, rfl⟩ := (hfetch ht a u).mp h
    exact ⟨ha, ht⟩
  · intro t ht hcoherent
    have hreturns := (hfetch ht _ _).mpr ⟨rfl, rfl⟩
    exact ⟨_, hreturns, Ends.coherent hreturns hcoherent⟩

theorem does_fetchLimbs (hdebug : s.params.debug = true) (hchecks : 0 < d.checks)
    (addresses : List UInt32) (fetched : Array UInt32) :
    Does State.Coherent (d.fetchLimbs addresses fetched) s
      (fetched ++ (addresses.map fun a => s.fp.getD a.toNat 0).toArray) s := by
  induction addresses generalizing fetched with
  | nil =>
    rw [List.map_nil, Array.append_empty]
    exact Does.pure fetched
  | cons address rest ih =>
    have hrest := ih (fetched.push (s.fp.getD address.toNat 0))
    rw [show fetched.push (s.fp.getD address.toNat 0) ++
        (rest.map fun a => s.fp.getD a.toNat 0).toArray =
      fetched ++ ((address :: rest).map fun a => s.fp.getD a.toNat 0).toArray by simp] at hrest
    exact Does.bind (f := fun limb => d.fetchLimbs rest (fetched.push limb))
      (does_fetchLimb hdebug hchecks address) hrest

theorem does_readSlot (hdebug : s.params.debug = true) (hchecks : 0 < d.checks)
    (layout : LimbLayout) (slot : Nat) :
    Does State.Coherent (d.readSlot layout slot) s (State.slotOf layout slot s.fp) s := by
  have hlimbs := does_fetchLimbs (d := d) hdebug hchecks (limbAddresses layout slot) #[]
  rw [Array.empty_append] at hlimbs
  exact hlimbs.bind (Does.pure _)

end Driver

end CurveEngine
