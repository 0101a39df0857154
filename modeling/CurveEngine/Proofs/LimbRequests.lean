import CurveEngine.Proofs.Operands
import CurveEngine.Proofs.Slots
import CurveEngine.Proofs.StepBounds

/-! The limbs that a driver asks for.

A driver asks for a limb by writing its address to a register, one access a limb. To read a
slot it asks for the limbs of that slot and for no others (`makes_readSlot`), and stepping
through a run it reads slots only. The layout by which it does so is computed once, before the
run, from the prime size and the limb width that the engine shows, so that a traced run asks for
nothing but limbs of the slots of that layout (`asks_traceRun`). -/
namespace CurveEngine
open Register Procedure Device Operation

namespace LimbLayout

/-- The addresses that a driver gives for a slot are those of its limbs. -/
theorem mem_limbAddresses {l : LimbLayout} {slot : Nat} (h : l.base slot + l.limbs < 2 ^ 32)
    (asked : UInt32) : asked ∈ Driver.limbAddresses l slot ↔ l.Spans slot asked.toNat := by
  rw [limbAddresses_eq h, List.mem_map]
  constructor
  · rintro ⟨i, hi, rfl⟩
    have hlimb := List.mem_range.mp hi
    rw [toNat_address (by omega)]
    exact .of_lt hlimb
  · rintro ⟨hlow, hhigh⟩
    refine ⟨asked.toNat - l.base slot, List.mem_range.mpr (by omega), ?_⟩
    rw [address, Nat.add_sub_cancel' hlow, UInt32.ofNat_toNat]

end LimbLayout

namespace Driver
variable {d : Driver} {s : State} {layout : LimbLayout} {asked : UInt32}

/-- The access asks for the limb at an address. -/
def AsksLimb (address : UInt32) : Access → Prop := Access.Sends .limbReadAddress address

/-! ### Reading a slot -/

theorem makes_fetchLimb (address asked : UInt32) (s : State) :
    Makes bus (AsksLimb asked) (d.fetchLimb address).run s ↔ address = asked := by
  have hread : ∀ size offset answer, ¬ AsksLimb asked (.read size offset answer) :=
    fun _ _ _ => id
  have hready : Procedure.Avoids bus (AsksLimb asked) d.limbIsReady :=
    (avoids_read hread _).bind fun _ => .pure _
  have hrest : Operation.Avoids bus (AsksLimb asked)
      (d.pollUntil d.limbIsReady >>= fun _ => liftM (d.read .limb)) :=
    (avoids_pollUntil hready).bind fun _ => .lift (avoids_read hread _)
  rw [fetchLimb, makes_seq, makes_lift, AsksLimb, makes_write]
  constructor
  · rintro (⟨-, hsame⟩ | ⟨_, t, -, hmakes⟩)
    · exact hsame
    · exact absurd hmakes (hrest t)
  · exact fun hsame => .inl ⟨rfl, hsame⟩

/-- Each of the limbs is asked for, and nothing else is. -/
theorem makes_fetchLimbs (hdebug : s.params.debug = true) (hchecks : 0 < d.checks)
    (addresses : List UInt32) (fetched : Array UInt32) (asked : UInt32) :
    Makes bus (AsksLimb asked) (d.fetchLimbs addresses fetched).run s ↔ asked ∈ addresses := by
  induction addresses generalizing fetched s with
  | nil =>
    have hnone : ¬ Makes bus (AsksLimb asked) (d.fetchLimbs [] fetched).run s :=
      not_makes_pure _ s
    simp only [hnone, List.not_mem_nil]
  | cons address rest ih =>
    have hfetch := returns_fetchLimb (d := d) (s := s) hdebug hchecks address
    rw [fetchLimbs, makes_seq, makes_fetchLimb, List.mem_cons, eq_comm]
    refine or_congr_right ⟨?_, fun hmem => ?_⟩
    · rintro ⟨limb, t, hreturns, hmakes⟩
      obtain ⟨-, rfl⟩ := (hfetch limb t).mp hreturns
      exact (ih (s := s.fetched address) hdebug _).mp hmakes
    · exact ⟨_, _, (hfetch _ _).mpr ⟨rfl, rfl⟩, (ih (s := s.fetched address) hdebug _).mpr hmem⟩

/-- Reading a slot asks for its limbs, and for no others. -/
theorem makes_readSlot (hdebug : s.params.debug = true) (hchecks : 0 < d.checks) {slot : Nat}
    (h : layout.base slot + layout.limbs < 2 ^ 32) (asked : UInt32) :
    Makes bus (AsksLimb asked) (d.readSlot layout slot).run s ↔ layout.Spans slot asked.toNat := by
  rw [readSlot, makes_seq, makes_fetchLimbs hdebug hchecks, layout.mem_limbAddresses h]
  refine or_iff_left ?_
  rintro ⟨_, t, -, hmakes⟩
  exact not_makes_pure _ t hmakes

/-! ### Along a traced run -/

/-- Whatever hands numbers and flags over asks for no limb. -/
theorem foreign_asksLimb (asked : UInt32) : Foreign (AsksLimb asked) where
  read _ _ _ := id
  write hr _ _ hsends hasks := by
    obtain ⟨rfl, -⟩ := hsends.unique hasks
    exact absurd hr (by decide)

theorem avoids_write_other {r : Sink} (hr : r ≠ .limbReadAddress) (word asked : UInt32) :
    Procedure.Avoids bus (AsksLimb asked) (d.write r word) :=
  avoids_write fun _ hsends hasks => hr (hsends.unique hasks).1

theorem avoids_readDebug (r : Source) (asked : UInt32) :
    Operation.Avoids bus (AsksLimb asked) (d.readDebug r) :=
  (avoids_ensureDebug (foreign_asksLimb asked).read).bind fun _ =>
    .lift (avoids_read (foreign_asksLimb asked).read _)

theorem avoids_writeDebug {r : Sink} (hr : r ≠ .limbReadAddress) (word asked : UInt32) :
    Operation.Avoids bus (AsksLimb asked) (d.writeDebug r word) :=
  (avoids_ensureDebug (foreign_asksLimb asked).read).bind fun _ =>
    .lift (avoids_write_other hr word asked)

theorem avoids_writeBreakpoint (id word asked : UInt32) :
    Operation.Avoids bus (AsksLimb asked) (d.writeBreakpoint id word) := by
  refine (avoids_ensureDebug (foreign_asksLimb asked).read).bind fun _ => ?_
  split
  · exact .throw _
  · exact .lift (avoids_write_other (by decide) word asked)

theorem avoids_fetchLimbs {addresses : List UInt32} (h : asked ∉ addresses)
    (fetched : Array UInt32) :
    Operation.Avoids bus (AsksLimb asked) (d.fetchLimbs addresses fetched) := by
  induction addresses generalizing fetched with
  | nil => exact .pure _
  | cons address rest ih =>
    rw [List.mem_cons, not_or] at h
    have hfetch : Operation.Avoids bus (AsksLimb asked) (d.fetchLimb address) :=
      fun s hmakes => h.1 ((makes_fetchLimb address asked s).mp hmakes).symm
    exact hfetch.bind fun limb => ih h.2 _

theorem avoids_waitHaltedOrOver (asked : UInt32) :
    Operation.Avoids bus (AsksLimb asked) d.waitHaltedOrOver := by
  have hread := (foreign_asksLimb asked).read
  have hover : Procedure.Avoids bus (AsksLimb asked) d.isHaltedOrOver := by
    refine ((avoids_read hread _).bind fun _ => .pure _).bind fun halted => ?_
    cases halted with
    | true => exact .pure _
    | false => exact (avoids_read hread _).bind fun _ => .pure _
  have hsnapshot : Operation.Avoids bus (AsksLimb asked) d.debugSnapshot :=
    (avoids_readDebug _ asked).bind fun _ => .pure _
  exact (avoids_pollUntil hover).bind fun _ => hsnapshot.bind fun _ => .pure _

/-- A limb that is in no slot of a layout. -/
abbrev Beyond (layout : LimbLayout) (asked : UInt32) : Prop :=
  ∀ slot < Microcode.Slot.count, asked ∉ limbAddresses layout slot

section Run
variable (h : Beyond layout asked)
include h

theorem avoids_recordPhase (phase : TracePhase) (spot : Spot) :
    Recording.Avoids bus (AsksLimb asked) (d.recordPhase layout phase spot) := by
  have hslot {slot : Nat} (hin : slot < Microcode.Slot.count) :
      Operation.Avoids bus (AsksLimb asked) (d.readSlot layout slot) :=
    (avoids_fetchLimbs (h slot hin) _).bind fun _ => .pure _
  have hrandom (drawn : TracePhase) {slot : Nat} (hin : slot < Microcode.Slot.count)
      (keep : LimbNumber → Trace → Trace) :
      Recording.Avoids bus (AsksLimb asked) (d.recordRandom layout drawn slot keep spot) :=
    (Recording.Avoids.lift (hslot hin)).bind fun _ => .modify _
  have hstep : Operation.Avoids bus (AsksLimb asked) (d.readStep layout phase spot) :=
    (avoids_readDebug _ asked).bind fun _ => (hslot (by decide)).bind fun _ =>
      (hslot (by decide)).bind fun _ => (hslot (by decide)).bind fun _ =>
        (hslot (by decide)).bind fun _ => (hslot (by decide)).bind fun _ => .pure _
  unfold recordPhase
  split
  · exact hrandom _ (by decide) _
  · exact hrandom _ (by decide) _
  · exact hrandom _ (by decide) _
  · exact hrandom _ (by decide) _
  · exact (Recording.Avoids.lift hstep).bind fun _ => .modify _

theorem avoids_stepOpcodes (fuel : Nat) :
    Recording.Avoids bus (AsksLimb asked) (d.stepOpcodes layout fuel) := by
  induction fuel with
  | zero => exact fun _ => Procedure.Avoids.bind .spent fun _ => .pure _
  | succ fuel ih =>
    refine Recording.Avoids.get.bind fun first => Recording.Avoids.get.bind fun t => ?_
    dsimp only
    split
    · exact (Recording.Avoids.modify _).bind fun _ => .throw _
    refine (Recording.Avoids.lift (avoids_writeDebug (by decide) _ asked)).bind fun _ =>
      (Recording.Avoids.lift (avoids_waitHaltedOrOver asked)).bind fun halted => ?_
    cases halted with
    | none => exact .throw _
    | some here =>
      have hrest (spot : Spot) : Recording.Avoids bus (AsksLimb asked)
          (if spot = first.options.points.last then pure ()
            else d.stepOpcodes layout fuel : Tracing Unit) := by
        split
        · exact .pure _
        · exact ih
      refine (Recording.Avoids.modify _).bind fun _ => ?_
      split
      · exact (avoids_recordPhase h _ _).bind fun _ => hrest _
      · exact hrest _

theorem avoids_followRun : Recording.Avoids bus (AsksLimb asked) (d.followRun layout) := by
  refine (Recording.Avoids.lift (avoids_waitHaltedOrOver asked)).bind fun halted => ?_
  cases halted with
  | none => exact (Recording.Avoids.lift (foreign_asksLimb asked).settle).bind fun _ => .throw _
  | some here =>
    refine Recording.Avoids.get.bind fun t => ?_
    dsimp only
    split
    · exact avoids_stepOpcodes h _
    · exact (Recording.Avoids.procedure (.notify _)).bind fun _ => .throw _

theorem avoids_followAndRelease :
    Recording.Avoids bus (AsksLimb asked) (d.followAndRelease layout) := by
  intro t
  have hrelease : Operation.Avoids bus (AsksLimb asked) d.release :=
    (avoids_writeBreakpoint _ _ asked).bind fun _ =>
      (avoids_writeDebug (by decide) _ asked).bind fun _ => (foreign_asksLimb asked).settle
  rw [followAndRelease_on]
  exact (avoids_followRun h t).bind fun _ => Procedure.Avoids.bind hrelease fun _ =>
    (Procedure.Avoids.notify _).bind fun _ => .pure _

end Run

/-- Up to the start of the multiplication no limb is asked for. -/
theorem avoids_startTraced (asked : UInt32) :
    Recording.Avoids bus (AsksLimb asked) d.startTraced := by
  have hread := (foreign_asksLimb asked).read
  refine (Recording.Avoids.lift (avoids_ensureDebug hread)).bind fun _ =>
    (Recording.Avoids.procedure (avoids_size hread)).bind fun size =>
      (Recording.Avoids.lift (avoids_readDebug _ asked)).bind fun width => ?_
  dsimp only
  split
  · exact .throw _
  · exact (Recording.Avoids.modify _).bind fun _ => Recording.Avoids.get.bind fun t =>
      (Recording.Avoids.lift (avoids_writeBreakpoint _ _ asked)).bind fun _ =>
        (Recording.Avoids.lift (avoids_waitIdle hread)).bind fun _ =>
          (Recording.Avoids.procedure (avoids_write_other (by decide) _ asked)).bind fun _ =>
            .pure _

/-- The layout of a traced run is the one that the engine shows. -/
theorem startTraced_layout (hdebug : s.params.debug = true) (hwidth : s.params.limbWidth < 2 ^ 32)
    {t t' : Trace} {u : State} (h : Recording.Returns bus d.startTraced t s layout t' u) :
    layout = s.shown ∧ 1 ≤ s.params.limbWidth ∧ s.params.limbWidth ≤ limbWidthMax := by
  have hword : (UInt64.ofNat s.params.limbWidth).toUInt32.toNat = s.params.limbWidth := by
    rw [UInt64.toNat_toUInt32, UInt64.toNat_ofNat']
    omega
  simp only [startTraced, Recording.returns_bind, Recording.returns_lift,
    Recording.returns_procedure] at h
  obtain ⟨_, _, s₁, ⟨rfl, hensure⟩, size, _, s₂, ⟨rfl, hsize⟩, width, _, s₃, ⟨rfl, hread⟩, h⟩ := h
  have hs₁ := ((does_ensureDebug hdebug).only s _ _ (.refl s) hensure).2
  obtain ⟨rfl, hs₂⟩ := does_size.only s₁ _ _ hs₁ ((returns_lift _ _ _ _).mpr hsize)
  obtain ⟨rfl, -⟩ := (does_limbWidth hdebug).only s₂ _ _ hs₂ hread
  rw [hword] at h
  split at h
  · exact (Recording.not_returns_throw _ _ _ _ _ _ h).elim
  · rename_i hvalid
    -- the trace, its points, the breakpoint, the wait and the start leave the layout as it is
    obtain ⟨_, _, _, h⟩ := h.of_bind
    obtain ⟨_, _, _, h⟩ := h.of_bind
    obtain ⟨_, _, _, h⟩ := h.of_bind
    obtain ⟨_, _, _, h⟩ := h.of_bind
    obtain ⟨_, _, _, h⟩ := h.of_bind
    obtain ⟨rfl, -⟩ := (Recording.returns_pure ..).mp h
    exact ⟨rfl, by omega⟩

/-- **A traced run asks for nothing but limbs of the slots that the engine shows.** -/
theorem asks_traceRun (hdebug : s.params.debug = true) (hwidth : s.params.limbWidth < 2 ^ 32)
    {t : Trace} (h : Makes bus (AsksLimb asked) (d.traceRun.on t) s) :
    ∃ slot < Microcode.Slot.count, s.shown.Spans slot asked.toNat := by
  by_contra hnone
  rw [traceRun_eq] at h
  refine (avoids_startTraced asked).not_makes_bind (fun layout t' u hstart hmakes => ?_) h
  obtain ⟨rfl, hpos, hmax⟩ := startTraced_layout hdebug hwidth hstart
  have hplaced : LimbLayout.Addressable (s.size % 2 ^ 16) s.params.limbWidth :=
    .of_le hpos (Nat.le_trans hmax (by decide)) (by omega)
  refine avoids_followAndRelease (fun slot hslot hmem => hnone ⟨slot, hslot, ?_⟩) t' u hmakes
  exact (LimbLayout.mem_limbAddresses (hplaced.beyond_lt hslot) asked).mp hmem

end Driver

end CurveEngine
