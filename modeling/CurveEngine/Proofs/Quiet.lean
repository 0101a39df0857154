import CurveEngine.Proofs.Upheld
import CurveEngine.Proofs.Receiving

/-! Engines that have come to rest entirely.

Waiting for an engine runs its waiting times down, and fills its random FIFOs. After a
transfer has been opened they have all come to their ends, since opening looks at the status
more often than an engine takes to warm up, and the words that are moved leave them there.
Alike states that are quiet are therefore the same, but for the limb that was fetched last
(`eq_of_quiet`): how many words a transfer took is forgotten. -/
namespace CurveEngine
open Register Procedure Device Operation

namespace Device.State

/-- The engine is neither busy nor being initialized, and its random FIFOs are full. -/
structure Rested (s : State) : Prop where
  busy : s.busy = 0
  init : s.init = 0
  waiting : s.trng.waiting = Trng.depths

/-- It has warmed up as well. -/
structure Quiet (s : State) : Prop extends Rested s where
  warmup : s.warmup = 0

/-- Settling a quiet engine forgets the limb that was fetched last, and nothing else. -/
theorem Quiet.eq_settled {s : State} (h : s.Quiet) :
    s = { s.settled with limb := s.limb, limbReady := s.limbReady } := by
  have htrng : s.trng = s.trng.refill := by rw [Trng.refill, ← h.waiting]
  have htimes (busy init warmup : Nat) (trng : Trng) (hbusy : s.busy = busy) (hinit : s.init = init)
      (hwarmup : s.warmup = warmup) (htrng : s.trng = trng) :
      s = { s with busy, init, warmup, trng } := by
    rw [← hbusy, ← hinit, ← hwarmup, ← htrng]
  exact htimes 0 0 0 s.trng.refill h.busy h.init h.warmup htrng

theorem eq_of_quiet {s t : State} (hs : s.Quiet) (ht : t.Quiet) (h : s.Alike t)
    (hlimb : (s.limb, s.limbReady) = (t.limb, t.limbReady)) : s = t := by
  rw [Prod.mk.injEq] at hlimb
  rw [hs.eq_settled, ht.eq_settled, show s.settled = t.settled from h, hlimb.1, hlimb.2]

theorem rested_readStatus {s : State} (hbusy : s.busy = 0) (hinit : s.init = 0)
    (hresting : s.multiplying = false) : s.readStatus.2.Rested where
  busy := by
    show s.busy - 1 = 0
    rw [hbusy]
  init := by
    show s.init - 1 = 0
    rw [hinit]
  waiting := by
    show (if s.busy - 1 == 0 && !s.multiplying then s.trng.refill else s.trng).waiting = _
    rw [hbusy, hresting]
    rfl

theorem warmup_openWrite (s : State) (address : UInt32) (scalar : Bool) :
    (s.openWrite address scalar).warmup = s.warmup :=
  openWrite_keeps (P := fun t => t.warmup = s.warmup) (fun _ _ _ _ _ _ => rfl) address scalar

theorem warmup_openRead (s : State) (address : UInt32) (token : Bool) :
    (s.openRead address token).warmup = s.warmup :=
  openRead_keeps (P := fun t => t.warmup = s.warmup) (fun _ _ => rfl) address token

/-- Opening a transfer takes no randomness. -/
theorem warmup_control (s : State) {word : UInt32} (h : OpensTransfer word) :
    (s.control word).warmup = s.warmup := by
  simp only [State.control, ControlField.agrees]
  split
  · rfl
  split
  · exact warmup_openWrite s.occupy _ _
  · rename_i hwrite
    rw [if_pos (h.resolve_left hwrite)]
    exact warmup_openRead s.occupy _ _

theorem warmup_writeData (s : State) (value : UInt64) : (s.writeData value).warmup = s.warmup :=
  writeData_keeps (P := fun t => t.warmup = s.warmup) (fun _ _ _ _ _ => rfl) value

theorem warmup_readData (s : State) : s.readData.2.warmup = s.warmup :=
  readData_keeps (P := fun t => t.warmup = s.warmup) fun _ _ => rfl

end Device.State

namespace Driver
variable {d : Driver} {s t : State}

/-! ### Waiting -/

/-- Waiting looks at the status at least once. -/
theorem rested_of_waitIdle (h : Returns bus d.waitIdle s () t) :
    t.Rested ∧ t.warmup ≤ s.warmup - 1 := by
  obtain ⟨exhausted, hspent, -, hpoll⟩ := d.pollUntil_eq d.isIdle
  have hresting := (waitIdle_only h).2.2
  rw [waitIdle, hpoll] at h
  obtain ⟨u, ⟨hu, hwarmup⟩, hidle⟩ :=
    poll_only (I := fun u => u.Alike s ∧ u.warmup ≤ s.warmup) hspent
      (fun v b w hv hcheck => by
        obtain ⟨-, rfl⟩ := (ends_isIdle b).mp hcheck
        exact ⟨v.settled_readStatus.trans hv.1, Nat.le_trans (Nat.sub_le _ _) hv.2⟩)
      ⟨.refl s, Nat.le_refl _⟩ h
  obtain ⟨hbit, rfl⟩ := (ends_isIdle true).mp hidle
  have hmultiplying : u.multiplying = false :=
    (hu.field State.multiplying fun _ => rfl).trans hresting
  rw [hmultiplying, Bool.or_false, eq_comm, Bool.not_eq_true', Bool.or_eq_false_iff,
    decide_eq_false_iff_not, decide_eq_false_iff_not] at hbit
  exact ⟨State.rested_readStatus (by omega) (by omega) hmultiplying, Nat.sub_le_sub_right hwarmup 1⟩

theorem rested_of_settle (h : Returns bus d.settle s () t) :
    t.Rested ∧ t.warmup ≤ s.warmup - 2 := by
  obtain ⟨_, u, hwait, hcheck⟩ := (returns_bind _ _ _ _ _).mp h
  obtain ⟨hu, hwarmup⟩ := rested_of_waitIdle hwait
  obtain ⟨halike, -, hresting⟩ := waitIdle_only hwait
  obtain ⟨rfl, -⟩ := checkErrors_only hcheck
  refine ⟨State.rested_readStatus hu.busy hu.init
    ((halike.field State.multiplying fun _ => rfl).trans hresting), ?_⟩
  show u.warmup - 1 ≤ s.warmup - 2
  omega

/-- Settling keeps an engine warm. -/
theorem quiet_of_settle (hs : s.warmup = 0) (h : Returns bus d.settle s () t) : t.Quiet := by
  obtain ⟨ht, hwarmup⟩ := rested_of_settle h
  exact ⟨ht, by omega⟩

/-! ### Transfers -/

/-- Opening a transfer takes as many looks at the status as an engine takes to warm up. -/
theorem quiet_of_writeSettled (hs : s.Coherent) {word : UInt32} (hword : State.OpensTransfer word)
    (h : Returns bus (d.writeSettled .control word) s () t) : t.Quiet := by
  obtain ⟨u, hwait, -, -, -, hsettle, -⟩ := writeSettled_only h
  obtain ⟨-, hless⟩ := rested_of_waitIdle hwait
  obtain ⟨ht, hless'⟩ := rested_of_settle hsettle
  have hopened : (u.writeSink .control word.toUInt64).warmup = u.warmup := by
    show (u.control word.toUInt64.toUInt32).warmup = _
    rw [UInt32.toUInt32_toUInt64]
    exact u.warmup_control hword
  have hwarmup : s.warmup ≤ 3 := hs.warmup_le
  exact ⟨ht, by omega⟩

/-- An engine to which a transfer has been opened is quiet and ready. -/
theorem openWrite_only (hs : s.Coherent) {destination : Destination}
    (h : Returns bus (d.openWrite destination) s () t) :
    t.Quiet ∧ t.multiplying = false ∧ t.errors = 0 := by
  cases destination with
  | number n =>
    obtain ⟨_, -, -, -, -, -, -, hresting, hclear⟩ := writeSettled_only h
    have hopens : State.OpensTransfer (Command.writeNumber n.address).word := opensTransfer nofun
    exact ⟨quiet_of_writeSettled hs hopens h, hresting, hclear hs⟩
  | scalar =>
    obtain ⟨_, u, hwait, hwrite⟩ := (returns_bind _ _ _ _ _).mp h
    have hu : u.Coherent := Ends.coherent hwait hs
    obtain ⟨_, -, -, -, -, -, -, hresting, hclear⟩ := writeSettled_only hwrite
    have hopens : State.OpensTransfer (Command.writeScalar Destination.scalar.address).word :=
      opensTransfer nofun
    exact ⟨quiet_of_writeSettled hu hopens hwrite, hresting, hclear hu⟩

theorem quiet_of_sendWord (hs : s.Quiet) {word : UInt64}
    (h : Returns bus (d.sendWord word) s () t) : t.Quiet := by
  simp only [sendWord, returns_bind, returns_lift, ends_writeWord] at h
  obtain ⟨_, u, hwait, _, _, rfl, hsettle⟩ := h
  have hless := (rested_of_waitIdle hwait).2
  have hwarmup := hs.warmup
  exact quiet_of_settle ((u.warmup_writeData _).trans (by omega)) hsettle

theorem quiet_of_sendWords (hs : s.Quiet) {words : List UInt64}
    (h : Returns bus (words.forM d.sendWord) s () t) : t.Quiet := by
  induction words generalizing s with
  | nil =>
    obtain rfl := (returns_forM_nil _ _ _).mp h
    exact hs
  | cons word rest ih =>
    obtain ⟨u, hword, hrest⟩ := (returns_forM_cons _ _ _ _ _).mp h
    exact ih (quiet_of_sendWord hs hword) hrest

theorem quiet_of_receiveWord (hs : s.Quiet) {word : UInt64}
    (h : Returns bus d.receiveWord s word t) : t.Quiet := by
  simp only [receiveWord, returns_bind, returns_lift, ends_readWord, returns_pure] at h
  obtain ⟨_, u, hwait, _, _, ⟨rfl, rfl⟩, _, _, hsettle, rfl, rfl⟩ := h
  have hless := (rested_of_waitIdle hwait).2
  have hwarmup := hs.warmup
  exact quiet_of_settle (u.warmup_readData.trans (by omega)) hsettle

theorem quiet_of_receiveWords (hs : s.Quiet) {count : Nat} {r r' : List UInt64}
    (h : Recording.Returns bus (d.receiveWords count) r s () r' t) : t.Quiet := by
  induction count generalizing s r with
  | zero =>
    obtain ⟨-, -, rfl⟩ := (Recording.returns_pure _ _ _ _ _ _).mp h
    exact hs
  | succ count ih =>
    simp only [receiveWords, Recording.returns_bind, Recording.returns_lift,
      Recording.returns_modify] at h
    obtain ⟨word, _, u, ⟨rfl, hword⟩, _, _, _, ⟨rfl, rfl⟩, hrest⟩ := h
    exact ih (quiet_of_receiveWord hs hword) hrest

end Driver

end CurveEngine
