import CurveEngine.Proofs.Holding
import CurveEngine.Proofs.Locked
import CurveEngine.Proofs.Slots
import CurveEngine.Proofs.Twins
import Mathlib.Data.List.Induction
import Mathlib.Order.Bounds.Basic

/-! Where a multiplication stops.

A run that goes on stops at the first opcode that an armed breakpoint matches, or where its budget
of opcodes is used up, whichever comes first, and is executed to its end if that lies behind it.
`MatchedBy` says what a breakpoint matches; of several that match the same opcode the one with the
lowest number is shown (`hitAt_breakpointAt?`). One opcode is executed at a time (`walk_cases`);
seen from the whole run, it stops at the least of the positions where it may (`goesOn_proceed`). -/
namespace CurveEngine
open Register

/-- Memory after writes to its slots, in their order. -/
def FpMemory.storeAll (layout : LimbLayout) (writes : List SlotWrite) (memory : FpMemory) :
    FpMemory :=
  writes.foldl (fun fp w => FpMemory.store layout w.slot w.value fp) memory

theorem FpMemory.storeAll_append (layout : LimbLayout) (a b : List SlotWrite) (memory : FpMemory) :
    memory.storeAll layout (a ++ b) = (memory.storeAll layout a).storeAll layout b :=
  List.foldl_append

/-- Each limb has its digit of the last number that was stored over it, or what it had before. -/
theorem FpMemory.getD_storeAll {layout : LimbLayout} {writes : List SlotWrite}
    (h : ∀ w ∈ writes, layout.base w.slot + layout.limbs < 2 ^ 32) (memory : FpMemory) {a : Nat}
    (ha : a < memory.size) :
    (storeAll layout writes memory).getD a 0 =
      match (writes.filter fun w => layout.Spans w.slot a).getLast? with
      | some w => digit w.value (a - layout.base w.slot)
      | none => memory.getD a 0 := by
  -- from the last write back, since it is the last one over a limb that counts
  induction writes using List.reverseRecOn with
  | nil => rfl
  | append_singleton writes w ih =>
    rw [List.forall_mem_append, List.forall_mem_singleton] at h
    have hsize : (storeAll layout writes memory).size = memory.size :=
      Device.State.size_writes layout writes memory
    rw [storeAll_append, List.filter_append]
    show (store layout w.slot w.value (storeAll layout writes memory)).getD a 0 = _
    rw [getD_store h.2, hsize]
    by_cases hspans : layout.Spans w.slot a
    · rw [if_pos ⟨hspans.1, hspans.2, ha⟩, List.filter_cons_of_pos (by simpa using hspans)]
      simp
    · rw [if_neg fun hin => hspans ⟨hin.1, hin.2.1⟩,
        List.filter_cons_of_neg (by simpa using hspans)]
      simpa using ih h.1

namespace Device

/-! ### Breakpoints -/

/-- A breakpoint names an opcode address. If it names a state as well, the opcode is executed in
this state, and in the ladder for the scalar bit that it names. -/
def Breakpoint.Matches (b : Breakpoint) (p : Position) : Prop :=
  b.address.toNat = p.pc ∧
    (b.state ≠ 0 → b.state = p.state.code ∧
      (p.state = .zaddu ∨ p.state = .zaddc → b.scalarBit = p.scalarBit))

theorem Breakpoint.covers_iff (b : Breakpoint) (p : Position) :
    b.covers p = true ↔ b.Matches p := by
  simp only [covers, Matches, Bool.and_eq_true, Bool.or_eq_true, beq_iff_eq, Bool.not_eq_true',
    Bool.or_eq_false_iff, beq_eq_false_iff_ne]
  refine and_congr_right fun _ => ?_
  tauto

namespace Sequencer
variable {q : Sequencer} {p : Position}

/-- An armed breakpoint matches an opcode. -/
def MatchedBy (q : Sequencer) (id : Nat) (p : Position) : Prop :=
  ∃ b, q.breakpoints[id]? = some (some b) ∧ b.Matches p

/-- What a halt at an opcode shows: the lowest of the breakpoints that match it, or none. -/
def HitAt (q : Sequencer) (p : Position) : Option Nat → Prop
  | some id => IsLeast {id | q.MatchedBy id p} id
  | none => ∀ id, ¬ q.MatchedBy id p

theorem matchedBy_iff (q : Sequencer) (id : Nat) (p : Position) :
    q.MatchedBy id p ↔
      (match q.breakpoints[id]? with
        | some (some b) => b.covers p
        | _ => false) = true := by
  unfold MatchedBy
  split
  · rename_i b hb
    simp [hb, Breakpoint.covers_iff]
  · rename_i hnone
    refine iff_of_false ?_ Bool.false_ne_true
    rintro ⟨b, hb, -⟩
    exact hnone b hb

theorem MatchedBy.lt {id : Nat} (h : q.MatchedBy id p) : id < breakpointCount := by
  obtain ⟨b, hb, -⟩ := h
  exact (Vector.getElem?_eq_some_iff.mp hb).1

theorem hitAt_breakpointAt? (q : Sequencer) (p : Position) : q.HitAt p (q.breakpointAt? p) := by
  cases hat : q.breakpointAt? p with
  | none =>
    intro id hid
    rw [breakpointAt?, List.find?_eq_none] at hat
    exact hat id (List.mem_range.mpr hid.lt) ((q.matchedBy_iff id p).mp hid)
  | some id =>
    rw [breakpointAt?, List.find?_range_eq_some] at hat
    obtain ⟨hmatch, -, hleast⟩ := hat
    refine ⟨(q.matchedBy_iff id p).mpr hmatch, fun other hother => ?_⟩
    by_contra hlt
    have hnot := (Bool.not_eq_true' _).mp (hleast other (Nat.lt_of_not_le hlt))
    exact Bool.false_ne_true (hnot.symm.trans ((q.matchedBy_iff other p).mp hother))

theorem breakpointAt?_ne_none_iff : q.breakpointAt? p ≠ none ↔ ∃ id, q.MatchedBy id p := by
  have hhit := q.hitAt_breakpointAt? p
  cases hat : q.breakpointAt? p with
  | none =>
    rw [hat] at hhit
    exact iff_of_false (fun h => h rfl) fun ⟨id, hid⟩ => hhit id hid
  | some id =>
    rw [hat] at hhit
    exact iff_of_true (Option.some_ne_none id) ⟨id, hhit.1⟩

end Sequencer

namespace State
variable {s : State}

/-! ### One opcode after the other -/

/-- An engine that has executed opcodes of a run. -/
def executed (opcodes : List Position) (s : State) : State :=
  { s with
    operationTime := s.operationTime + opcodes.length
    fp := s.fp.storeAll s.limbLayout (opcodes.flatMap Position.writes) }

/-- An engine that has executed opcodes of a run, the last of them one that it halts at. -/
def haltedOn (opcodes : List Position) (run : LadderRun) (p : Position) (hit : Option Nat)
    (s : State) : State :=
  { s.executed opcodes with
    sequencer := { s.sequencer with state := .halted, run := some run, last := some p, hit } }

/-- An engine that has executed opcodes of a run, up to its end: the result is in R1, masked by
the token. -/
def endedOn (opcodes : List Position) (result : Point) (s : State) : State :=
  { s.executed opcodes with
    numbers := (s.numbers.set .xR1 (result.coords.1 ^^^ s.mask)).set .yR1
      (result.coords.2 ^^^ s.mask)
    r1Null := result.isInfinity
    token := none
    warmup := warmupReads
    busy := s.params.latency
    sequencer := { s.sequencer with state := .idle, run := none, last := none, hit := none } }

theorem executed_arrive (s : State) (run : LadderRun) (p : Position) (opcodes : List Position) :
    (s.arrive run p).executed opcodes =
      { s.executed (p :: opcodes) with
        sequencer := { s.sequencer with run := some run, last := some p } } := by
  have htime : s.operationTime + 1 + opcodes.length = s.operationTime + (p :: opcodes).length := by
    rw [List.length_cons]
    omega
  simp only [executed, List.flatMap_cons, FpMemory.storeAll_append, ← htime]
  rfl

theorem halt_arrive (hstate : s.sequencer.state = .running) (run : LadderRun) (p : Position)
    (hit : Option Nat) : (s.arrive run p).halt hit = s.haltedOn [p] run p hit := by
  simp only [halt, arrive, Sequencer.raise, hstate, RunState.next?, haltedOn, executed,
    List.flatMap_cons, List.flatMap_nil, List.append_nil]
  rfl

theorem haltedOn_arrive (run run' : LadderRun) (p p' : Position) (opcodes : List Position)
    (hit : Option Nat) :
    (s.arrive run p).haltedOn opcodes run' p' hit = s.haltedOn (p :: opcodes) run' p' hit := by
  simp only [haltedOn, executed_arrive]
  rfl

theorem endedOn_arrive (run : LadderRun) (p : Position) (opcodes : List Position) (result : Point) :
    (s.arrive run p).endedOn opcodes result = s.endedOn (p :: opcodes) result := by
  simp only [endedOn, executed_arrive]
  rfl

theorem finish_endedOn (hstate : s.sequencer.state = .running) (hhit : s.sequencer.hit = none)
    {run : LadderRun} (hrun : s.sequencer.run = some run) : s.finish = s.endedOn [] run.result := by
  simp only [finish, hrun, Sequencer.raise, hstate, RunState.next?]
  rw [endedOn, ← hhit]
  rfl

/-- Nothing stops a run on these opcodes: no breakpoint matches one, and they do not use up the
budget. -/
def Passes (q : Sequencer) (budget : Option Nat) (opcodes : List Position) : Prop :=
  (∀ p ∈ opcodes, q.breakpointAt? p = none) ∧ ∀ c ∈ budget, opcodes.length < c

theorem Passes.cons {q : Sequencer} {p : Position} {budget : Option Nat} {opcodes : List Position}
    (hp : q.breakpointAt? p = none) (h : Passes q (budget.map (· - 1)) opcodes) :
    Passes q budget (p :: opcodes) := by
  refine ⟨List.forall_mem_cons.mpr ⟨hp, h.1⟩, fun c hc => ?_⟩
  have hlength := h.2 (c - 1) (Option.mem_map_of_mem _ hc)
  rw [List.length_cons]
  omega

/-- A budget is used up by the next opcode if it is for one. -/
theorem any_budget {budget : Option Nat} (hbudget : ∀ c ∈ budget, 0 < c) :
    budget.any (· ≤ 1) = true ↔ budget = some 1 := by
  rw [Option.any_eq_true]
  constructor
  · rintro ⟨c, hc, hle⟩
    have hpos := hbudget c hc
    have hone := of_decide_eq_true hle
    rw [hc]
    congr 1
    omega
  · rintro rfl
    exact ⟨1, rfl, rfl⟩

/-- What is left of a budget that is not used up. -/
theorem budget_left {budget : Option Nat} (hbudget : ∀ c ∈ budget, 0 < c)
    (hone : budget ≠ some 1) : ∀ c ∈ budget.map (· - 1), 0 < c := by
  intro c hc
  obtain ⟨a, ha, rfl⟩ := Option.mem_map.mp hc
  have hpos := hbudget a ha
  have hne : a ≠ 1 := fun h => hone (h ▸ ha)
  omega

/-- A run goes on to the first opcode at which something stops it, or to its end. -/
theorem walk_cases (hstate : s.sequencer.state = .running) (hhit : s.sequencer.hit = none)
    (passed pending : List Position) (result : Point) (budget : Option Nat)
    (hbudget : ∀ c ∈ budget, 0 < c)
    (hrun : ∃ run, s.sequencer.run = some run ∧ run.result = result) :
    (∃ ran p rest, pending = ran ++ p :: rest ∧ Passes s.sequencer budget ran ∧
      (s.sequencer.breakpointAt? p ≠ none ∨ budget = some (ran.length + 1)) ∧
      s.walk passed result budget pending =
        s.haltedOn (ran ++ [p]) ⟨p :: (ran.reverse ++ passed), rest, result⟩ p
          (s.sequencer.breakpointAt? p)) ∨
    Passes s.sequencer budget pending ∧
      s.walk passed result budget pending = s.endedOn pending result := by
  induction pending generalizing s passed budget with
  | nil =>
    obtain ⟨run, hsome, rfl⟩ := hrun
    exact .inr ⟨⟨nofun, hbudget⟩, finish_endedOn hstate hhit hsome⟩
  | cons p rest ih =>
    let t := s.arrive ⟨p :: passed, rest, result⟩ p
    have hwalk : s.walk passed result budget (p :: rest) =
        if (s.sequencer.breakpointAt? p).isSome || budget.any (· ≤ 1) then
          t.halt (s.sequencer.breakpointAt? p)
        else t.walk (p :: passed) result (budget.map (· - 1)) rest := rfl
    have hstop : ((s.sequencer.breakpointAt? p).isSome || budget.any (· ≤ 1)) = true ↔
        s.sequencer.breakpointAt? p ≠ none ∨ budget = some 1 := by
      rw [Bool.or_eq_true, Option.isSome_iff_ne_none, any_budget hbudget]
    by_cases hstops : s.sequencer.breakpointAt? p ≠ none ∨ budget = some 1
    · refine .inl ⟨[], p, rest, rfl, ⟨nofun, hbudget⟩, hstops, ?_⟩
      rw [hwalk, if_pos (hstop.mpr hstops)]
      exact halt_arrive hstate _ _ _
    · obtain ⟨hnone, hone⟩ := not_or.mp hstops
      rw [not_not] at hnone
      rw [hwalk, if_neg (mt hstop.mp hstops)]
      rcases ih (s := t) hstate hhit (p :: passed) _ (budget_left hbudget hone)
        ⟨_, rfl, rfl⟩ with
        ⟨ran, p', rest', rfl, hpasses, hstops, hhalt⟩ | ⟨hpasses, hover⟩
      · refine .inl ⟨p :: ran, p', rest', rfl, hpasses.cons hnone, hstops.imp_right fun h => ?_, ?_⟩
        · obtain ⟨c, hc, hlength⟩ := Option.map_eq_some_iff.mp h
          rw [hc, List.length_cons, Option.some.injEq]
          omega
        · rw [hhalt, haltedOn_arrive, List.reverse_cons, List.append_assoc, List.singleton_append]
          rfl
      · exact .inr ⟨hpasses.cons hnone, hover.trans (endedOn_arrive _ _ _ _)⟩

end State

end Device

/-! ### The positions of a run -/

namespace LadderRun
variable {run : LadderRun} {ran rest : List Position} {p : Position}

/-- The opcodes that are executed before a run has arrived at position `j`. -/
def before (run : LadderRun) (j : Nat) : List Position :=
  (run.positions.take j).drop run.passed.length

/-- The run when it has arrived at position `j`. -/
def arrivedAt (run : LadderRun) (j : Nat) : LadderRun where
  passed := (run.positions.take (j + 1)).reverse
  pending := run.positions.drop (j + 1)
  result := run.result

theorem before_eq (run : LadderRun) (j : Nat) :
    run.before j = run.pending.take (j - run.passed.length) := by
  rw [before, List.drop_take, positions, List.drop_left' (List.length_reverse)]

theorem before_end (run : LadderRun) : run.before run.positions.length = run.pending := by
  rw [before_eq, positions, List.length_append, List.length_reverse, Nat.add_sub_cancel_left,
    List.take_length]

theorem positions_pending (run : LadderRun) (i : Nat) :
    run.positions[run.passed.length + i]? = run.pending[i]? := by
  rw [positions, List.getElem?_append_right (by rw [List.length_reverse]; omega),
    List.length_reverse, Nat.add_sub_cancel_left]

/-- The position that comes after some opcodes of a run. -/
theorem position_of_pending (h : run.pending = ran ++ p :: rest) :
    run.positions[run.passed.length + ran.length]? = some p := by
  rw [positions_pending, h, List.getElem?_append_right (Nat.le_refl _), Nat.sub_self]
  rfl

theorem before_of_pending (h : run.pending = ran ++ p :: rest) :
    run.before (run.passed.length + ran.length + 1) = ran ++ [p] := by
  rw [before_eq, h, Nat.add_assoc, Nat.add_sub_cancel_left, List.take_append,
    List.take_of_length_le (Nat.le_succ _), Nat.add_sub_cancel_left]
  rfl

theorem arrivedAt_of_pending (h : run.pending = ran ++ p :: rest) :
    run.arrivedAt (run.passed.length + ran.length) =
      ⟨p :: (ran.reverse ++ run.passed), rest, run.result⟩ := by
  have hpositions : run.positions = (run.passed.reverse ++ ran ++ [p]) ++ rest := by
    rw [positions, h]
    simp
  have hlength : run.passed.length + ran.length + 1 = (run.passed.reverse ++ ran ++ [p]).length := by
    simp [Nat.add_assoc]
  rw [arrivedAt, hpositions, hlength, List.take_left' rfl, List.drop_left' rfl]
  simp

end LadderRun

namespace Device

/-- An armed breakpoint matches the position of a run. -/
def Sequencer.Matched (q : Sequencer) (run : LadderRun) (j : Nat) : Prop :=
  ∃ p, run.positions[j]? = some p ∧ ∃ id, q.MatchedBy id p

namespace State
variable {s : State}

/-- What becomes of a run that stops at the first of some positions. It halts there, with what it
has executed in memory, and shows the lowest of the breakpoints that match, if one does; if the
run has no such position, it is executed to its end. -/
inductive GoesOn (s : State) (run : LadderRun) (stops : Set Nat) : State → Prop where
  | halts {j : Nat} {p : Position} {hit : Option Nat} (first : IsLeast stops j)
    (position : run.positions[j]? = some p) (shown : s.sequencer.HitAt p hit) :
    GoesOn s run stops (s.haltedOn (run.before (j + 1)) (run.arrivedAt j) p hit)
  | ends (beyond : ∀ j ∈ stops, run.positions.length ≤ j) :
    GoesOn s run stops (s.endedOn (run.before run.positions.length) run.result)

theorem GoesOn.congr {run : LadderRun} {stops stops' : Set Nat} {t : State}
    (h : s.GoesOn run stops t) (same : ∀ j, j ∈ stops ↔ j ∈ stops') : s.GoesOn run stops' t :=
  Set.ext same ▸ h

/-- A run that goes on stops at the first position that a breakpoint matches or that uses up its
budget. -/
theorem goesOn_walk (hstate : s.sequencer.state = .running) (hhit : s.sequencer.hit = none)
    {run : LadderRun} (hrun : s.sequencer.run = some run) {budget : Option Nat}
    (hbudget : ∀ c ∈ budget, 0 < c) :
    s.GoesOn run
      {j | run.passed.length ≤ j ∧ ((∃ c ∈ budget, j + 1 = run.passed.length + c) ∨
        s.sequencer.Matched run j)}
      (s.walk run.passed run.result budget run.pending) := by
  -- on what is passed nothing stops the run
  have hpassed {ran : List Position} (hpasses : Passes s.sequencer budget ran) {rest : List Position}
      (hpending : run.pending = ran ++ rest) {j : Nat} (hj : run.passed.length ≤ j)
      (hstop : (∃ c ∈ budget, j + 1 = run.passed.length + c) ∨ s.sequencer.Matched run j) :
      run.passed.length + ran.length ≤ j := by
    by_contra hlt
    rcases hstop with ⟨c, hc, hj⟩ | ⟨p, hp, hmatched⟩
    · have := hpasses.2 c hc
      omega
    · obtain ⟨i, rfl⟩ := Nat.exists_eq_add_of_le hj
      rw [LadderRun.positions_pending, hpending, List.getElem?_append_left (by omega)] at hp
      exact Sequencer.breakpointAt?_ne_none_iff.mpr hmatched
        (hpasses.1 p (List.mem_of_getElem? hp))
  rcases walk_cases hstate hhit run.passed run.pending run.result budget hbudget ⟨run, hrun, rfl⟩ with
    ⟨ran, p, rest, hpending, hpasses, hstops, hhalt⟩ | ⟨hpasses, hover⟩
  · have hposition := LadderRun.position_of_pending hpending
    rw [hhalt, ← LadderRun.before_of_pending hpending, ← LadderRun.arrivedAt_of_pending hpending]
    refine .halts ⟨⟨Nat.le_add_right _ _, ?_⟩, fun j hj => hpassed hpasses hpending hj.1 hj.2⟩
      hposition (s.sequencer.hitAt_breakpointAt? p)
    rcases hstops with hmatched | hspent
    · exact .inr ⟨p, hposition, Sequencer.breakpointAt?_ne_none_iff.mp hmatched⟩
    · exact .inl ⟨ran.length + 1, hspent, by omega⟩
  · rw [hover, ← run.before_end]
    refine .ends fun j hj => ?_
    have hpending : run.pending = run.pending ++ [] := (List.append_nil _).symm
    have hlength := hpassed hpasses hpending hj.1 hj.2
    rwa [LadderRun.positions, List.length_append, List.length_reverse]

/-- An engine that is let go, with its run about to go on. -/
def loosened (s : State) : State :=
  s.withSequencer { s.sequencer with state := .running, hit := none }

theorem released_eq (hhalted : s.sequencer.state = .halted) {event : RunEvent}
    (hevent : RunState.next? .halted event = some .running) : s.released event = s.loosened := by
  simp only [released, Sequencer.raise, hhalted, hevent]
  rfl

/-- A halted run that is let go. -/
theorem goesOn_released (hhalted : s.sequencer.state = .halted) {event : RunEvent}
    (hevent : RunState.next? .halted event = some .running) {run : LadderRun}
    (hrun : s.sequencer.run = some run) {budget : Option Nat} (hbudget : ∀ c ∈ budget, 0 < c) :
    s.GoesOn run
      {j | run.passed.length ≤ j ∧ ((∃ c ∈ budget, j + 1 = run.passed.length + c) ∨
        s.sequencer.Matched run j)}
      ((s.released event).proceed budget) := by
  have hwalk := goesOn_walk (s := s.loosened) rfl rfl hrun hbudget
  rw [released_eq hhalted hevent, proceed_run (s := s.loosened) hrun]
  generalize s.loosened.walk run.passed run.result budget run.pending = t at hwalk
  cases hwalk with
  | halts first position shown => exact .halts first position shown
  | ends beyond => exact .ends beyond

theorem serve_steps (size : AccessSize) (value : UInt64) :
    s.serve (.write size Sink.steps.offset value) =
      s.writeSink .steps (onBus size value) := by
  simp only [serve, write, Sink.ofOffset?_offset]

theorem serve_control (size : AccessSize) (value : UInt64) :
    s.serve (.write size Sink.control.offset value) = s.control (onBus size value).toUInt32 := by
  simp only [serve, write, Sink.ofOffset?_offset]
  rfl

end State

/-- A production engine is locked, any other one keeps its debug bank. -/
theorem Reachable.debug_or_locked {s : State} (h : Reachable s) :
    s.params.debug = true ∨ ∃ params entropy, s.Locked params entropy := by
  induction h with
  | powerUp params entropy =>
    cases hdebug : params.debug with
    | true => exact .inl hdebug
    | false => exact .inr ⟨params, entropy, hdebug, rfl⟩
  | @read size offset s _ ih =>
    refine ih.imp (fun hdebug => ?_) fun ⟨params, entropy, hlocked⟩ =>
      ⟨params, entropy, hlocked.serve (.read size offset)⟩
    rw [State.read]
    split
    · exact hdebug
    · exact State.readSource_keeps (P := fun t => t.params.debug = true)
        (fun _ _ _ _ _ _ => hdebug) _
  | @write size offset value s _ ih =>
    refine ih.imp (fun hdebug => ?_) fun ⟨params, entropy, hlocked⟩ =>
      ⟨params, entropy, hlocked.serve (.write size offset value)⟩
    rw [State.write]
    split
    · exact (congrArg Parameters.debug (Driver.params_writeSink _ _ _)).trans hdebug
    · split
      · exact hdebug
      · exact hdebug

/-- A run is halted that has arrived at position `i`. -/
structure State.Arrived (s : State) (run : LadderRun) (i : Nat) : Prop where
  debug : s.params.debug = true
  halted : s.isHalted = true
  executing : s.sequencer.run = some run
  passed : run.passed.length = i + 1

/-- A multiplication in progress has arrived somewhere. -/
theorem Reachable.arrived {s : State} (h : Reachable s) (hmultiplying : s.multiplying = true) :
    ∃ run i, s.Arrived run i ∧ s.sequencer.last = run.positions[i]? := by
  have horder := h.orderly.sequencer
  obtain ⟨run, hrun⟩ := Option.isSome_iff_exists.mp hmultiplying
  have hdebug : s.params.debug = true := by
    refine h.debug_or_locked.resolve_right ?_
    rintro ⟨params, entropy, hlocked⟩
    exact Bool.false_ne_true (hlocked.resting.symm.trans hmultiplying)
  have hhalted : s.isHalted = true := by
    rw [State.isHalted, Sequencer.isHalted, horder.halted_iff.mpr hmultiplying]
    rfl
  have harrived := horder.arrived run hrun
  have hlast : s.sequencer.last = run.current? := by rw [horder.last, hrun, Option.bind_some]
  cases hpassed : run.passed with
  | nil =>
    rw [LadderRun.current?, hpassed] at harrived
    cases harrived
  | cons p rest =>
    refine ⟨run, rest.length, ⟨hdebug, hhalted, hrun, by rw [hpassed, List.length_cons]⟩, ?_⟩
    rw [hlast, LadderRun.current?, LadderRun.positions, hpassed]
    simp

namespace State
variable {s : State} {run : LadderRun} {i : Nat}

/-- A word that is written to go on reaches the run. -/
theorem Arrived.serve_steps (h : s.Arrived run i) (size : AccessSize) (value : UInt64) :
    s.serve (.write size Sink.steps.offset value) = s.step (onBus size value).toUInt32 := by
  rw [State.serve_steps]
  simp only [writeSink, h.debug, if_true, writeDebug]

theorem Arrived.state (h : s.Arrived run i) : s.sequencer.state = .halted := by
  simpa [isHalted, Sequencer.isHalted] using h.halted

/-- Resuming a run. -/
theorem Arrived.resume (h : s.Arrived run i) {word : UInt32}
    (hresume : Steps.resume.test word = true) :
    s.GoesOn run {j | i < j ∧ s.sequencer.Matched run j} (s.step word) := by
  have hnext : RunState.next? .halted .resume = some .running := rfl
  have hbudget : ∀ c ∈ (none : Option Nat), 0 < c := nofun
  have hgoes := goesOn_released h.state hnext h.executing hbudget
  rw [step_resume h.halted hresume]
  refine hgoes.congr fun j => ?_
  rw [h.passed]
  exact and_congr_right fun _ => or_iff_right (by simp)

/-- Letting a run go on for some opcodes. -/
theorem Arrived.step (h : s.Arrived run i) {word : UInt32}
    (hresume : Steps.resume.test word = false) (hrun : Steps.run.test word = true) :
    s.GoesOn run
      {j | i < j ∧ (j = i + max (Steps.count.get word).toNat 1 ∨ s.sequencer.Matched run j)}
      (s.step word) := by
  set count := max (Steps.count.get word).toNat 1 with hcount
  have hnext : RunState.next? .halted .step = some .running := rfl
  have hbudget : ∀ c ∈ some count, 0 < c := by
    rintro c ⟨⟩
    omega
  have hgoes := goesOn_released h.state hnext h.executing hbudget
  rw [step_run h.halted hresume hrun]
  refine hgoes.congr fun j => ?_
  rw [h.passed]
  refine and_congr_right fun _ => or_congr_left ⟨?_, fun hj => ⟨count, rfl, by omega⟩⟩
  rintro ⟨c, ⟨⟩, hj⟩
  omega

/-- A multiplication that is started. -/
theorem goesOn_control {word : UInt32} (hword : Multiplies word) (hresting : s.multiplying = false)
    (hidle : s.sequencer.state = .idle) (hpoint : s.curve.contains s.pointR1 = true) :
    s.begun.launched.GoesOn (LadderRun.start s.begun.inputs)
      {j | s.sequencer.haltPending = true ∧ j = 0 ∨
        s.sequencer.Matched (LadderRun.start s.begun.inputs) j}
      (s.control word) := by
  have hbudget : ∀ c ∈ if s.sequencer.haltPending then some 1 else none, 0 < c := by
    intro c hc
    split at hc
    · obtain rfl := Option.some.inj hc
      exact Nat.one_pos
    · cases hc
  have hgoes := goesOn_walk (s := s.begun.launched) rfl rfl rfl hbudget
  rw [control_multiplies hword hresting, startMultiplication_walk (s := s.begun) hpoint hidle]
  refine hgoes.congr fun j => ?_
  refine (and_iff_right (Nat.zero_le j)).trans (or_congr_left ?_)
  show (∃ c ∈ if s.sequencer.haltPending then some 1 else none, j + 1 = 0 + c) ↔ _
  cases s.sequencer.haltPending <;> simp

/-- **Where a multiplication stops.** A multiplication in progress is halted at a position of its
run. Resumed, it halts at the first later position that an armed breakpoint matches; told to
execute some opcodes, it halts after these or at such a position, whichever comes first; told
both, it is resumed. A multiplication that is started goes on likewise, but halts on its first
opcode if a halt is pending. Without a position to halt at, a run is executed to its end. A word
that tells neither changes nothing, nor does any word while no multiplication is halted. After the
opcodes that have been executed, each limb of Fp memory has its digit of the last number that was
stored over it, or what it had before. -/
theorem stop_position (s : State) :
    (Reachable s → s.multiplying = true →
      ∃ run i, s.Arrived run i ∧ s.sequencer.last = run.positions[i]?) ∧
    (∀ run i, s.Arrived run i → ∀ size value,
      let word := (onBus size value).toUInt32
      let t := s.serve (.write size Sink.steps.offset value)
      (Steps.resume.test word = true →
        s.GoesOn run {j | i < j ∧ s.sequencer.Matched run j} t) ∧
      (Steps.resume.test word = false → Steps.run.test word = true →
        s.GoesOn run
          {j | i < j ∧ (j = i + max (Steps.count.get word).toNat 1 ∨ s.sequencer.Matched run j)} t) ∧
      (Steps.resume.test word = false → Steps.run.test word = false → t = s)) ∧
    (∀ size value, s.multiplying = false → s.sequencer.state = .idle →
      s.curve.contains s.pointR1 = true → Multiplies (onBus size value).toUInt32 →
      s.begun.launched.GoesOn (LadderRun.start s.begun.inputs)
        {j | s.sequencer.haltPending = true ∧ j = 0 ∨
          s.sequencer.Matched (LadderRun.start s.begun.inputs) j}
        (s.serve (.write size Sink.control.offset value))) ∧
    (s.isHalted = false → ∀ size value, s.serve (.write size Sink.steps.offset value) = s) ∧
    (∀ opcodes : List Position, let writes := opcodes.flatMap Position.writes
      (∀ w ∈ writes, s.limbLayout.base w.slot + s.limbLayout.limbs < 2 ^ 32) → ∀ a < s.fp.size,
        (s.executed opcodes).fp.getD a 0 =
          match (writes.filter fun w => s.limbLayout.Spans w.slot a).getLast? with
          | some w => FpMemory.digit w.value (a - s.limbLayout.base w.slot)
          | none => s.fp.getD a 0) := by
  refine ⟨fun hs hmultiplying => hs.arrived hmultiplying, fun run i h size value => ?_,
    fun size value hresting hidle hpoint hword => ?_, fun hhalted size value => ?_,
    fun opcodes hwrites a ha => FpMemory.getD_storeAll hwrites s.fp ha⟩
  · dsimp only
    rw [h.serve_steps]
    exact ⟨h.resume, h.step, fun hresume hrun => step_idle hresume hrun⟩
  · rw [serve_control]
    exact goesOn_control hword hresting hidle hpoint
  · rw [serve_steps]
    rcases writeSink_steps_cases s (onBus size value) with hstep | hsame
    · rw [hstep, State.step, hhalted]
      rfl
    · exact hsame

/-- The word that tells a halted engine to execute three opcodes. -/
def threeOpcodes : UInt32 := Steps.count.set 3 (Steps.run.put true 0)

theorem stop_position_caught97 :
    ∃ run, caught97.Arrived run 0 ∧ caught97.sequencer.last = run.positions[0]? ∧
      caught97.GoesOn run {j | 0 < j ∧ (j = 3 ∨ caught97.sequencer.Matched run j)}
        (caught97.serve (.write .word Sink.steps.offset threeOpcodes.toUInt64)) := by
  have hmultiplying : caught97.multiplying = true := by decide +kernel
  obtain ⟨run, i, harrived, hlast⟩ := (stop_position caught97).1 reachable_caught97 hmultiplying
  have hzero : i = 0 := by
    have hpassed : caught97.sequencer.run.map (fun run => run.passed.length) = some 1 := by
      decide +kernel
    rw [harrived.executing, Option.map_some, harrived.passed, Option.some.injEq] at hpassed
    omega
  subst hzero
  refine ⟨run, harrived, hlast, ?_⟩
  have hgoes := ((stop_position caught97).2.1 run 0 harrived .word threeOpcodes.toUInt64).2.1
    (by decide +kernel) (by decide +kernel)
  have hcount : max (Steps.count.get (onBus .word threeOpcodes.toUInt64).toUInt32).toNat 1 = 3 := by
    decide +kernel
  rwa [hcount, Nat.zero_add] at hgoes

end State

end Device

end CurveEngine
