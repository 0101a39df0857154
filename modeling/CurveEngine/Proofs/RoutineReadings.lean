import CurveEngine.Proofs.Readings

/-! What a routine tells.

Most opcodes tell nothing. A routine that produces points does so at its last opcode, where
all of them are stored (`readings_last`); a random value is stored at the one opcode of its
phase (`randoms_once`). Whether a routine stores what is read there can be seen from the
addresses and the slots alone (`selfContained_routine`). -/
namespace CurveEngine

namespace LadderFrame
open LadderRun (pointsAt)
variable {f : LadderFrame} {r : Microcode.Routine} {ws : List (Nat × SlotWrite)}

/-- No step is recorded in the first opcodes of a routine. -/
def QuietTo (n : Nat) (r : Microcode.Routine) : Prop :=
  ∀ i < n, ((TracePhase.at? (r.start + i) r.state).all fun phase => phase.drawn?.isSome) = true

instance (n : Nat) (r : Microcode.Routine) : Decidable (QuietTo n r) :=
  inferInstanceAs (Decidable (∀ i < n, _))

/-- The opcode of a routine at an offset. -/
def opcode (f : LadderFrame) (r : Microcode.Routine) (ws : List (Nat × SlotWrite)) (i : Nat) :
    Position :=
  ⟨r.start + i, r.state, f.flags r.state,
    (ws.filter fun w => w.1 == r.start + i).map fun w => w.2⟩

theorem routine_eq (f : LadderFrame) (r : Microcode.Routine) (ws : List (Nat × SlotWrite)) :
    f.routine r ws = (List.range r.length).map (f.opcode r ws) := rfl

theorem reading?_quiet {n i : Nat} (h : QuietTo n r) (hi : i < n) :
    (f.opcode r ws i).reading? = none := by
  have hquiet := h i hi
  cases hphase : TracePhase.at? (r.start + i) r.state with
  | none => exact Position.reading?_of_none hphase
  | some phase =>
    rw [hphase, Option.all_some, Option.isSome_iff_exists] at hquiet
    obtain ⟨slot, hdrawn⟩ := hquiet
    exact Position.reading?_of_drawn hphase hdrawn

theorem readings_quietTo {n : Nat} (h : QuietTo n r) (ws : List (Nat × SlotWrite)) :
    ((List.range n).map (f.opcode r ws)).filterMap Position.reading? = [] := by
  rw [List.filterMap_map, List.filterMap_eq_nil_iff]
  exact fun i hi => reading?_quiet h (List.mem_range.mp hi)

/-- A quiet routine tells nothing of the ladder. -/
theorem readings_quiet (h : QuietTo r.length r) :
    (f.routine r ws).filterMap Position.reading? = [] := readings_quietTo h ws

/-- Points are stored at one address, all of them. -/
theorem filter_pointsAt (pc pc' : Nat) (P Q : Point) :
    (pointsAt pc P Q).filter (fun w => w.1 == pc') = if pc = pc' then pointsAt pc P Q else [] := by
  have haddress {w : Nat × SlotWrite} (hw : w ∈ pointsAt pc P Q) : w.1 = pc := by
    obtain ⟨v, -, rfl⟩ := List.mem_map.mp hw
    rfl
  split
  · rename_i hpc
    refine List.filter_eq_self.mpr fun w hw => ?_
    rw [haddress hw, hpc, beq_self_eq_true]
  · rename_i hpc
    refine List.filter_eq_nil_iff.mpr fun w hw => ?_
    rwa [haddress hw, beq_iff_eq]

/-- A routine that is quiet up to its last opcode tells of the points stored there. -/
theorem readings_last (f : LadderFrame) (phase : TracePhase) (n : Nat)
    (others : List (Nat × SlotWrite)) (P Q : Point) (hlength : r.length = n + 1)
    (hquiet : QuietTo n r) (hphase : TracePhase.at? (r.start + n) r.state = some phase)
    (hdrawn : phase.drawn? = none)
    (hothers : others.filter (fun w => w.1 == r.start + n) = []) :
    (f.routine r (others ++ pointsAt (r.start + n) P Q)).filterMap Position.reading? =
      [.ofFlags phase (f.flags r.state) P.coords Q.coords] := by
  have hpoints := (filter_pointsAt (r.start + n) (r.start + n) P Q).trans (if_pos rfl)
  have hlast : (f.opcode r (others ++ pointsAt (r.start + n) P Q) n).reading? =
      some (.ofFlags phase (f.flags r.state) P.coords Q.coords) := by
    simp only [Position.reading?, Position.phase?, opcode, hphase, hdrawn, List.filter_append,
      hothers, hpoints, List.nil_append]
    rfl
  rw [routine_eq, hlength, List.range_succ, List.map_append, List.filterMap_append,
    readings_quietTo hquiet, List.nil_append]
  simp only [List.map_cons, List.map_nil, List.filterMap_cons, hlast, List.filterMap_nil]

/-- No random value is drawn in a routine. -/
def Undrawn (r : Microcode.Routine) : Prop :=
  ∀ i < r.length, ((TracePhase.at? (r.start + i) r.state).all fun phase => phase.drawn?.isNone) = true

instance (r : Microcode.Routine) : Decidable (Undrawn r) :=
  inferInstanceAs (Decidable (∀ i < r.length, _))

theorem randoms_undrawn (h : Undrawn r) (phase : TracePhase) :
    (f.routine r ws).filterMap (Position.random? phase) = [] := by
  rw [routine_eq, List.filterMap_map, List.filterMap_eq_nil_iff]
  intro i hi
  have hundrawn := h i (List.mem_range.mp hi)
  show (if TracePhase.at? (r.start + i) r.state = some phase then _ else none) = none
  split
  · rename_i hphase
    rw [hphase, Option.all_some, Option.isNone_iff_eq_none] at hundrawn
    rw [hundrawn, Option.map_none]
  · rfl

/-- A routine in which a phase does not occur has none of its random values. -/
theorem randoms_none {phase : TracePhase}
    (h : ∀ i < r.length, TracePhase.at? (r.start + i) r.state ≠ some phase) :
    (f.routine r ws).filterMap (Position.random? phase) = [] := by
  rw [routine_eq, List.filterMap_map, List.filterMap_eq_nil_iff]
  intro i hi
  exact if_neg (h i (List.mem_range.mp hi))

/-- What is found at one place only is all that is found. -/
theorem filterMap_range_once {α : Type} {g : Nat → Option α} {k n : Nat} {a : α}
    (hnone : ∀ i < n, i ≠ k → g i = none) (hk : k < n) (hg : g k = some a) :
    (List.range n).filterMap g = [a] := by
  induction n with
  | zero => omega
  | succ n ih =>
    rw [List.range_succ, List.filterMap_append, List.filterMap_cons, List.filterMap_nil]
    by_cases hn : k = n
    · subst hn
      rw [hg, List.filterMap_eq_nil_iff.mpr fun i hi => hnone i
        (Nat.lt_succ_of_lt (List.mem_range.mp hi)) (Nat.ne_of_lt (List.mem_range.mp hi))]
      rfl
    · rw [hnone n (Nat.lt_succ_self n) (fun h => hn h.symm),
        ih (fun i hi => hnone i (Nat.lt_succ_of_lt hi)) (by omega)]
      rfl

/-- A routine in which a phase occurs once has the random value that is stored there. -/
theorem randoms_once (phase : TracePhase) (k : Nat)
    (h : ∀ i < r.length, TracePhase.at? (r.start + i) r.state = some phase ↔ i = k)
    (hk : k < r.length) {slot : Nat} (hdrawn : phase.drawn? = some slot) :
    (f.routine r ws).filterMap (Position.random? phase) = [(f.opcode r ws k).stored slot] := by
  rw [routine_eq, List.filterMap_map]
  refine filterMap_range_once (k := k) (fun i hi hik => ?_) hk ?_
  · exact if_neg fun hphase => hik ((h i hi).mp hphase)
  · have hphase : (f.opcode r ws k).phase? = some phase := (h k hk).mpr rfl
    show (f.opcode r ws k).random? phase = _
    rw [Position.random?, if_pos hphase, hdrawn]
    rfl

/-- Whether a routine that stores to these slots at these addresses stores all that its
phases are read for. -/
def storesItsOwn (r : Microcode.Routine) (places : List (Nat × Nat)) : Bool :=
  (List.range r.length).all fun i =>
    let slots := (places.filter fun place => place.1 == r.start + i).map fun place => place.2
    decide slots.Nodup && slots.all (fun slot => decide (slot < Microcode.Slot.count)) &&
      match TracePhase.at? (r.start + i) r.state with
      | none => true
      | some phase => phase.slots.all fun slot => slots.contains slot

theorem selfContained_routine
    (h : storesItsOwn r (ws.map fun w => (w.1, w.2.slot)) = true) :
    ∀ p ∈ f.routine r ws, p.selfContained = true := by
  intro p hp
  obtain ⟨i, hi, rfl⟩ := List.mem_map.mp hp
  have hslots : (f.opcode r ws i).writes.map SlotWrite.slot =
      ((ws.map fun w => (w.1, w.2.slot)).filter fun place => place.1 == r.start + i).map
        fun place => place.2 := by
    rw [opcode, List.filter_map, List.map_map, List.map_map]
    rfl
  have hown := List.all_eq_true.mp h i hi
  simp only [← hslots, List.all_map] at hown
  exact hown

theorem fits_routine {size : Nat} (h : ∀ w ∈ ws, w.2.value < 2 ^ (size + 4)) :
    ∀ p ∈ f.routine r ws, p.Fits size := by
  intro p hp w hw
  obtain ⟨i, -, rfl⟩ := List.mem_map.mp hp
  obtain ⟨v, hv, rfl⟩ := List.mem_map.mp hw
  exact h v (List.mem_filter.mp hv).1

end LadderFrame

end CurveEngine
