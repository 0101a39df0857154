import CurveEngine.Proofs.Alike
import CurveEngine.Proofs.RunLayout

/-! A multiplication in one go, and in parts.

`launched` is an engine that has laid out a run and executed none of it; `after` is one
that has executed the positions that a run has passed, wherever it halted on the way
(`resume_walk`, `step_walk`). Without a breakpoint to stop it a run is executed to its
end (`walk_through`); otherwise it may be halted on the way (`walk_stops`). -/
namespace CurveEngine.Device
open Register

namespace State

/-! ### The course of a run -/

/-- Fp memory after positions have been executed, the most recent of them first. -/
def memoryAfter (layout : LimbLayout) (passed : List Position) (memory : FpMemory) : FpMemory :=
  passed.foldr
    (fun p fp => p.writes.foldl (fun fp w => FpMemory.store layout w.slot w.value fp) fp) memory

/-- A multiplication that has executed what a run has passed. -/
def after (run : LadderRun) (s : State) : State :=
  { s with
    operationTime := s.operationTime + run.passed.length
    fp := memoryAfter s.limbLayout run.passed s.fp
    sequencer := { s.sequencer with run := some run, last := run.current?.or s.sequencer.last } }

/-- A multiplication that is halted when it has executed what a run has passed. -/
def haltedAt (run : LadderRun) (hit : Option Nat) (s : State) : State := (s.after run).halt hit

variable {s : State} {pending : List Position}

/-- The next opcode of a run, and what becomes of the run after it. -/
theorem walk_cons (s : State) (passed rest : List Position) (result : Point) (p : Position)
    (budget : Option Nat) :
    walk passed result budget (p :: rest) (s.after ⟨passed, p :: rest, result⟩) =
      if (s.sequencer.breakpointAt? p).isSome || budget.any (· ≤ 1) then
        s.haltedAt ⟨p :: passed, rest, result⟩ (s.sequencer.breakpointAt? p)
      else
        walk (p :: passed) result (budget.map (· - 1)) rest
          (s.after ⟨p :: passed, rest, result⟩) := rfl

/-- A run that nothing stops is executed to its end. -/
theorem walk_through (hfree : ∀ p ∈ pending, s.sequencer.breakpointAt? p = none)
    (passed : List Position) (result : Point) :
    walk passed result none pending (s.after ⟨passed, pending, result⟩) =
      (s.after ⟨pending.reverse ++ passed, [], result⟩).finish := by
  induction pending generalizing passed with
  | nil => rfl
  | cons p rest ih =>
    rw [walk_cons, hfree p List.mem_cons_self, if_neg (by simp), Option.map_none,
      ih fun q hq => hfree q (List.mem_cons_of_mem _ hq), List.reverse_cons, List.append_assoc,
      List.singleton_append]

/-- A run is executed to its end, or halted on the way. -/
theorem walk_stops (s : State) (passed pending : List Position) (result : Point)
    (budget : Option Nat) :
    (walk passed result budget pending (s.after ⟨passed, pending, result⟩) =
      (s.after ⟨pending.reverse ++ passed, [], result⟩).finish) ∨
    ∃ ran p rest hit, pending = ran ++ p :: rest ∧
      walk passed result budget pending (s.after ⟨passed, pending, result⟩) =
        s.haltedAt ⟨p :: (ran.reverse ++ passed), rest, result⟩ hit := by
  induction pending generalizing passed budget with
  | nil => exact .inl rfl
  | cons p rest ih =>
    rw [walk_cons]
    split
    · exact .inr ⟨[], p, rest, _, rfl, rfl⟩
    · rw [List.reverse_cons, List.append_assoc, List.singleton_append]
      rcases ih (p :: passed) (budget.map (· - 1)) with hfinish | ⟨ran, q, rest', hit, rfl, hhalt⟩
      · exact .inl hfinish
      · refine .inr ⟨p :: ran, q, rest', hit, rfl, ?_⟩
        rw [hhalt, List.reverse_cons, List.append_assoc, List.singleton_append]

/-- A breakpoint stops a run at once if it covers the position to come. -/
theorem walk_covered {p : Position} {id : Nat} (h : s.sequencer.breakpointAt? p = some id)
    (passed rest : List Position) (result : Point) (budget : Option Nat) :
    walk passed result budget (p :: rest) (s.after ⟨passed, p :: rest, result⟩) =
      s.haltedAt ⟨p :: passed, rest, result⟩ (some id) := by
  rw [walk_cons, h]
  exact if_pos rfl

/-- One opcode at a time. -/
theorem walk_one (s : State) (passed rest : List Position) (result : Point) (p : Position) :
    walk passed result (some 1) (p :: rest) (s.after ⟨passed, p :: rest, result⟩) =
      s.haltedAt ⟨p :: passed, rest, result⟩ (s.sequencer.breakpointAt? p) := by
  rw [walk_cons]
  exact if_pos (by simp)

/-! ### Going on after a halt -/

theorem haltedAt_eq (hstate : s.sequencer.state = .running) (run : LadderRun) (hit : Option Nat) :
    s.haltedAt run hit =
      { s.after run with
        sequencer := { (s.after run).sequencer with hit, state := .halted } } := by
  simp only [haltedAt, halt, after, Sequencer.raise, hstate, RunState.next?]

/-- A halted multiplication that is let go is as it was before it halted. -/
theorem release_haltedAt (hstate : s.sequencer.state = .running) (hhit : s.sequencer.hit = none)
    (run : LadderRun) (hit : Option Nat) {event : RunEvent}
    (hevent : RunState.next? .halted event = some .running) :
    ({ s.haltedAt run hit with
      sequencer := { (s.haltedAt run hit).sequencer.raise event with hit := none } } : State) =
      s.after run := by
  simp only [haltedAt_eq hstate, Sequencer.raise, hevent]
  rw [← hhit, ← hstate]
  rfl

theorem isHalted_haltedAt (hstate : s.sequencer.state = .running) (run : LadderRun)
    (hit : Option Nat) : (s.haltedAt run hit).isHalted = true := by
  rw [haltedAt_eq hstate]
  rfl

/-- A finished multiplication is no longer in progress. -/
theorem still_finish (hstate : s.sequencer.state = .running) (run : LadderRun) :
    (s.after run).finish.isHalted = false ∧ (s.after run).finish.multiplying = false := by
  simp only [finish, after, isHalted, Sequencer.isHalted, multiplying, Sequencer.raise, hstate,
    RunState.next?]
  exact ⟨rfl, rfl⟩

theorem errors_finish (s : State) (run : LadderRun) : (s.after run).finish.errors = s.errors := rfl

theorem params_finish (s : State) (run : LadderRun) : (s.after run).finish.params = s.params := rfl

theorem resume_walk (hstate : s.sequencer.state = .running) (hhit : s.sequencer.hit = none)
    (run : LadderRun) (hit : Option Nat) {word : UInt32} (hword : Steps.resume.test word = true) :
    (s.haltedAt run hit).step word =
      walk run.passed run.result none run.pending (s.after run) := by
  simp only [step, StepsField.agrees]
  rw [isHalted_haltedAt hstate, if_neg (by simp), if_pos hword,
    release_haltedAt hstate hhit run hit rfl]
  rfl

theorem step_walk (hstate : s.sequencer.state = .running) (hhit : s.sequencer.hit = none)
    (run : LadderRun) (hit : Option Nat) {word : UInt32} (hword : Steps.resume.test word = false)
    (hrun : Steps.run.test word = true) (hcount : Steps.count.get word = 1) :
    (s.haltedAt run hit).step word =
      walk run.passed run.result (some 1) run.pending (s.after run) := by
  simp only [step, StepsField.agrees]
  rw [isHalted_haltedAt hstate, if_neg (by simp), hword, if_neg (by simp), if_pos hrun, hcount,
    release_haltedAt hstate hhit run hit rfl]
  rfl

/-! ### The beginning -/

/-- What the next multiplication starts from. -/
def inputs (s : State) : LadderInputs where
  curve := s.curve
  point := s.pointR1
  scalar := s.effectiveScalar.1.value
  bits := s.effectiveScalar.1.bits
  randoms := (s.effectiveScalar.2.drawRandoms s.effectiveScalar.1.alpha).1

/-- A small scalar is cut off. -/
theorem effectiveScalar_small {bits : Nat} (hsmall : s.smallScalar = some bits) :
    s.effectiveScalar.1 = ⟨s.scalar &&& (2 ^ bits - 1), bits, none⟩ := by
  simp only [effectiveScalar, hsmall, Nat.one_shiftLeft]

/-- A scalar that is neither small nor blinded is used as it is. -/
theorem effectiveScalar_plain (hsmall : s.smallScalar = none) (hblinding : s.blinding = 0) :
    s.effectiveScalar.1 = ⟨s.scalar, max s.size (bitLength s.scalar), none⟩ := by
  simp only [effectiveScalar, hsmall, hblinding, gt_iff_lt, Nat.lt_irrefl, if_false]

/-- A blinded scalar has a random multiple of the order added to it. -/
theorem effectiveScalar_blinded (hsmall : s.smallScalar = none) (hblinding : 0 < s.blinding) :
    s.effectiveScalar.1 =
      let alpha := (s.draw s.blinding .axi).1
      let value := s.scalar + alpha * s.numbers.q
      ⟨value, max (s.size + s.blinding) (bitLength value), some alpha⟩ := by
  simp only [effectiveScalar, hsmall, gt_iff_lt, hblinding, if_true]
  rfl

/-- The generator after the random values of a run have been drawn. -/
def trngAfter (s : State) : Trng :=
  (s.effectiveScalar.2.drawRandoms s.effectiveScalar.1.alpha).2.trng

/-- A multiplication that has been laid out, with nothing executed yet. -/
def launched (s : State) : State :=
  { s with
    smallScalar := none
    operationTime := 0
    sequencer := { s.sequencer with
      run := some (.start s.inputs)
      state := .running
      hit := none
      haltPending := false }
    trng := s.trngAfter }

theorem proceed_run {run : LadderRun} (hrun : s.sequencer.run = some run) (budget : Option Nat) :
    s.proceed budget = walk run.passed run.result budget run.pending s := by
  rw [proceed, hrun]

theorem effectiveScalar_snd (s : State) :
    s.effectiveScalar.2 = { s with smallScalar := none, trng := s.effectiveScalar.2.trng } := by
  unfold State.effectiveScalar
  cases hsmall : s.smallScalar with
  | some bits => rfl
  | none =>
    dsimp only
    rw [← hsmall]
    split
    · rfl
    · rfl

theorem drawRandoms_eq (s : State) (alpha : Option Nat) :
    (s.drawRandoms alpha).2 = { s with trng := (s.drawRandoms alpha).2.trng } := by
  obtain ⟨trng, hdraws⟩ := s.drawRandoms_snd alpha
  rw [hdraws]

/-- Whether a multiplication is refused or started, and however far it goes. -/
theorem startMultiplication_keeps {P : State → Prop}
    (h : ∀ errors numbers r1Null token warmup busy smallScalar sequencer operationTime fp trng,
      P { s with
        errors, numbers, r1Null, token, warmup, busy, smallScalar, sequencer, operationTime, fp,
        trng }) :
    P s.startMultiplication := by
  unfold State.startMultiplication
  dsimp only
  split
  · exact h _ _ _ _ _ _ _ _ _ _ _
  · refine proceed_keeps _ fun _ _ _ _ _ _ _ _ => ?_
    rw [drawRandoms_eq, effectiveScalar_snd]
    exact h _ _ _ _ _ _ _ _ _ _ _

/-- Whatever a control word asks for. -/
theorem control_keeps {P : State → Prop}
    (h : ∀ errors numbers scalar r0Null r1Null yes transfer token warmup busy smallScalar sequencer
      operationTime fp trng,
      P { s with
        errors, numbers, scalar, r0Null, r1Null, yes, transfer, token, warmup, busy, smallScalar,
        sequencer, operationTime, fp, trng })
    (word : UInt32) : P (s.control word) := by
  unfold State.control
  split
  · exact h _ _ _ _ _ _ _ _ _ _ _ _ _ _ _
  dsimp only
  split
  · exact openWrite_keeps (s := s.occupy) (fun _ _ _ _ _ _ => h _ _ _ _ _ _ _ _ _ _ _ _ _ _ _) _ _
  split
  · exact openRead_keeps (s := s.occupy) (fun _ _ => h _ _ _ _ _ _ _ _ _ _ _ _ _ _ _) _ _
  split
  · exact startMultiplication_keeps fun _ _ _ _ _ _ _ _ _ _ _ => h _ _ _ _ _ _ _ _ _ _ _ _ _ _ _
  · exact operate_keeps (s := { s.occupy with transfer := none })
      (fun _ _ _ _ => h _ _ _ _ _ _ _ _ _ _ _ _ _ _ _) word

theorem startMultiplication_refused (h : s.curve.contains s.pointR1 = false) :
    s.startMultiplication = s.latch .inputNotOnCurve := by
  simp only [startMultiplication, h]
  rfl

/-- A point on the curve is multiplied, or halted at once if a halt is pending. -/
theorem startMultiplication_walk (h : s.curve.contains s.pointR1 = true)
    (hidle : s.sequencer.state = .idle) :
    s.startMultiplication =
      walk [] (LadderRun.start s.inputs).result (if s.sequencer.haltPending then some 1 else none)
        (LadderRun.start s.inputs).pending s.launched := by
  have hdraws : (s.effectiveScalar.2.drawRandoms s.effectiveScalar.1.alpha).2 =
      { s with smallScalar := none, trng := s.trngAfter } := by
    have hscalar := congrArg (fun u : State => { u with trng := s.trngAfter }) s.effectiveScalar_snd
    exact (drawRandoms_eq _ _).trans hscalar
  have hlaunch : s.startMultiplication =
      s.launched.proceed (if s.sequencer.haltPending then some 1 else none) := by
    simp only [startMultiplication, h, hdraws, Sequencer.raise, hidle, RunState.next?,
      Bool.not_true, Bool.false_eq_true, if_false, launched, inputs]
  have hrun : s.launched.sequencer.run = some (.start s.inputs) := rfl
  rw [hlaunch, proceed_run hrun, LadderRun.start_eq]

/-- Nothing of a run has been executed when it has been laid out. -/
theorem after_of_passed {run : LadderRun} (hpassed : run.passed = [])
    (hrun : s.sequencer.run = some run) : s.after run = s := by
  simp only [after, LadderRun.current?, hpassed, memoryAfter, List.foldr_nil, List.length_nil,
    Nat.add_zero, List.head?_nil, Option.none_or, ← hrun]

theorem launched_after (s : State) :
    s.launched.after ⟨[], (LadderRun.start s.inputs).pending, (LadderRun.start s.inputs).result⟩ =
      s.launched :=
  after_of_passed rfl (congrArg some (LadderRun.start_eq s.inputs))

end State

end CurveEngine.Device
