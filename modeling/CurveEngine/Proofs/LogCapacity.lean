import CurveEngine.Proofs.Alongside
import CurveEngine.Proofs.StepLimits

/-! What the capacity of a log changes.

A log with a capacity has those lines of the log without one that `keepFitting` keeps: every line
that still fits, in the order in which they come (`TraceLog.KeepsFitting`). Nothing of a traced
run looks at the log. Once a run has opened its trace, it makes the same accesses as a run on a
fresh trace without capacity, comes to the same end, and records the same of everything else,
whatever the trace held before (`multiplyTraced_capacity`). -/
namespace CurveEngine
open Register Procedure Device

/-! ### Lines that fit -/

/-- The lines that go into `room` bytes, each with its line end, if every line is taken that still
fits. -/
def keepFitting : Nat → List String → List String
  | _, [] => []
  | room, line :: rest =>
    if line.utf8ByteSize + 1 ≤ room then
      line :: keepFitting (room - (line.utf8ByteSize + 1)) rest
    else keepFitting room rest

theorem byteCount_append (xs ys : List String) :
    byteCount (xs ++ ys) = byteCount xs + byteCount ys := by
  induction xs with
  | nil => simp [byteCount]
  | cons line rest ih => simp only [List.cons_append, byteCount, ih, Nat.add_assoc]

theorem byteCount_reverse (lines : List String) : byteCount lines.reverse = byteCount lines := by
  induction lines with
  | nil => rfl
  | cons line rest ih =>
    rw [List.reverse_cons, byteCount_append, ih]
    simp only [byteCount]
    omega

/-- Every line has its line end at least: fewer lines take up less. -/
theorem byteCount_lt_of_sublist {xs ys : List String} (h : xs.Sublist ys)
    (hfewer : xs.length < ys.length) : byteCount xs < byteCount ys := by
  induction h with
  | slnil => exact absurd hfewer (Nat.lt_irrefl _)
  | @cons xs ys line hsub ih =>
    simp only [byteCount]
    rcases Nat.lt_or_ge xs.length ys.length with hless | hmore
    · have := ih hless
      omega
    · rw [hsub.eq_of_length_le hmore]
      omega
  | @cons_cons xs ys line hsub ih =>
    have := ih (Nat.lt_of_succ_lt_succ hfewer)
    simp only [byteCount]
    omega

theorem utf8ByteSize_linesText (lines : List String) :
    (linesText lines).utf8ByteSize = byteCount lines := by
  have hfold (text : String) : (lines.foldl (fun text line => text ++ line ++ "\n") text).utf8ByteSize =
      text.utf8ByteSize + byteCount lines := by
    induction lines generalizing text with
    | nil => rfl
    | cons line rest ih =>
      have hnewline : "\n".utf8ByteSize = 1 := by decide
      rw [List.foldl_cons, ih, String.utf8ByteSize_append, String.utf8ByteSize_append, hnewline,
        byteCount]
      omega
  rw [linesText, hfold]
  exact Nat.zero_add _

theorem keepFitting_sublist (room : Nat) (lines : List String) :
    (keepFitting room lines).Sublist lines := by
  induction lines generalizing room with
  | nil => exact List.Sublist.refl _
  | cons line rest ih =>
    rw [keepFitting]
    split
    · exact (ih _).cons_cons line
    · exact (ih _).cons line

theorem byteCount_keepFitting_le (room : Nat) (lines : List String) :
    byteCount (keepFitting room lines) ≤ room := by
  induction lines generalizing room with
  | nil => exact Nat.zero_le _
  | cons line rest ih =>
    rw [keepFitting]
    split
    · have := ih (room - (line.utf8ByteSize + 1))
      rw [byteCount]
      omega
    · exact ih room

/-- A further line is kept if and only if it fits behind those that were kept. -/
theorem keepFitting_concat (room : Nat) (lines : List String) (line : String) :
    keepFitting room (lines ++ [line]) =
      keepFitting room lines ++
        if byteCount (keepFitting room lines) + (line.utf8ByteSize + 1) ≤ room then [line] else [] := by
  induction lines generalizing room with
  | nil =>
    simp only [List.nil_append, keepFitting, byteCount, Nat.zero_add]
  | cons first rest ih =>
    simp only [List.cons_append, keepFitting]
    split
    · rename_i hfits
      rw [ih, List.cons_append, byteCount]
      congr 3
      rw [eq_iff_iff]
      omega
    · exact ih room

/-! ### Logs -/

namespace TraceLog
variable {c : Nat} {capped whole : TraceLog}

/-- A log with a capacity, beside the log that the same lines would have made without one. -/
structure Capped (c : Nat) (capped whole : TraceLog) : Prop where
  lines : capped.lines = keepFitting c whole.lines
  dropped : capped.truncated = true ↔ capped.lines.length < whole.lines.length
  complete : whole.truncated = false

/-- What a log with a capacity is of the log without one. -/
structure KeepsFitting (c : Nat) (capped whole : TraceLog) : Prop extends
    Capped c capped whole where
  fits : capped.text.utf8ByteSize ≤ c
  sublist : capped.lines.Sublist whole.lines
  differs : capped.truncated = true ↔ capped.text ≠ whole.text

theorem size_eq_lines (log : TraceLog) : log.size = byteCount log.lines := by
  rw [log.size_eq, lines, byteCount_reverse]

theorem lines_add (capacity : Option Nat) (line : String) (log : TraceLog) :
    (log.add capacity line).lines =
      log.lines ++ if log.fits capacity line then [line] else [] := by
  rw [add]
  split
  · exact List.reverse_cons
  · exact (List.append_nil _).symm

theorem truncated_add (capacity : Option Nat) (line : String) (log : TraceLog) :
    (log.add capacity line).truncated = (log.truncated || !log.fits capacity line) := by
  rw [add]
  split <;> simp [*]

theorem Capped.empty (c : Nat) : Capped c empty empty := ⟨rfl, by decide, rfl⟩

/-- A line goes into the log with the capacity if and only if it is to be kept. -/
theorem Capped.add (h : Capped c capped whole) (line : String) :
    Capped c (capped.add (some c) line) (whole.add none line) := by
  have hwhole : (whole.add none line).lines = whole.lines ++ [line] := lines_add none line whole
  have hlength : capped.lines.length ≤ whole.lines.length :=
    h.lines ▸ (keepFitting_sublist c whole.lines).length_le
  refine ⟨?_, ?_, ?_⟩
  · rw [lines_add, hwhole, keepFitting_concat, ← h.lines, ← size_eq_lines]
    simp only [fits, Option.all_some, decide_eq_true_eq]
  · rw [truncated_add, lines_add, hwhole, List.length_append, List.length_append,
      Bool.or_eq_true, h.dropped, Bool.not_eq_true']
    cases capped.fits (some c) line with
    | true => simp
    | false =>
      simp only [or_true, Bool.false_eq_true, if_false, List.length_nil, List.length_singleton,
        true_iff]
      omega
  · rw [truncated_add, h.complete]
    rfl

theorem Capped.keepsFitting (h : Capped c capped whole) : KeepsFitting c capped whole := by
  have hsub : capped.lines.Sublist whole.lines := h.lines ▸ keepFitting_sublist c whole.lines
  refine ⟨h, ?_, hsub, ?_⟩
  · rw [text, utf8ByteSize_linesText, h.lines]
    exact byteCount_keepFitting_le c whole.lines
  · rw [h.dropped]
    constructor
    · intro hfewer htext
      have hsize := congrArg String.utf8ByteSize htext
      rw [text, text, utf8ByteSize_linesText, utf8ByteSize_linesText] at hsize
      exact absurd hsize (Nat.ne_of_lt (byteCount_lt_of_sublist hsub hfewer))
    · intro htext
      rcases Nat.lt_or_ge capped.lines.length whole.lines.length with hfewer | hmore
      · exact hfewer
      · exact absurd (congrArg linesText (hsub.eq_of_length_le hmore)) htext

end TraceLog

/-! ### Traces -/

namespace Trace
variable {c : Nat} {capped whole : Trace}

/-- What a trace with a capacity is of the trace without one: the same, but for its log. -/
structure KeepsFitting (c : Nat) (capped whole : Trace) : Prop where
  steps : capped.steps = whole.steps
  stepCount : capped.stepCount = whole.stepCount
  size : capped.size = whole.size
  alpha : capped.alpha = whole.alpha
  phi0 : capped.phi0 = whole.phi0
  phi1 : capped.phi1 = whole.phi1
  lambda : capped.lambda = whole.lambda
  log : capped.log.KeepsFitting c whole.log

/-- A trace with a capacity and one without, on which the same is being recorded. -/
structure Capped (c : Nat) (capped whole : Trace) : Prop where
  options : capped.options = { whole.options with logCapacity := some c }
  unbounded : whole.options.logCapacity = none
  steps : capped.steps = whole.steps
  stepCount : capped.stepCount = whole.stepCount
  size : capped.size = whole.size
  alpha : capped.alpha = whole.alpha
  phi0 : capped.phi0 = whole.phi0
  phi1 : capped.phi1 = whole.phi1
  lambda : capped.lambda = whole.lambda
  log : capped.log.Capped c whole.log

namespace Capped

theorem keepsFitting (h : Capped c capped whole) : KeepsFitting c capped whole :=
  ⟨h.steps, h.stepCount, h.size, h.alpha, h.phi0, h.phi1, h.lambda, h.log.keepsFitting⟩

theorem points (h : Capped c capped whole) : capped.options.points = whole.options.points := by
  rw [h.options]

theorem atLimit (h : Capped c capped whole) : capped.atLimit = whole.atLimit := by
  rw [Trace.atLimit, Trace.atLimit, h.options, h.stepCount]

theorem addLine (h : Capped c capped whole) (line : String) :
    Capped c (capped.addLine line) (whole.addLine line) := by
  refine { h with log := ?_ }
  have hcapacity : capped.options.logCapacity = some c := by rw [h.options]
  rw [Trace.addLine, Trace.addLine, hcapacity, h.unbounded]
  exact h.log.add line

theorem addLines (h : Capped c capped whole) (lines : List String) :
    Capped c (lines.foldl (fun t line => t.addLine line) capped)
      (lines.foldl (fun t line => t.addLine line) whole) := by
  induction lines generalizing capped whole with
  | nil => exact h
  | cons line rest ih => exact ih (h.addLine line)

theorem addStep (h : Capped c capped whole) (step : TraceStep) :
    Capped c { capped with steps := capped.steps.push step }
      { whole with steps := whole.steps.push step } :=
  { h with steps := congrArg (fun steps => steps.push step) h.steps }

theorem withStep (h : Capped c capped whole) (step : TraceStep) :
    Capped c (capped.withStep step) (whole.withStep step) := (h.addLines _).addStep step

/-- What a trace held before is gone when it is opened. -/
theorem opened {t : Trace} (hcapacity : t.options.logCapacity = some c) (size : Nat)
    (layout : LimbLayout) :
    Capped c (t.opened size layout)
      ((new { t.options with logCapacity := none }).opened size layout) := by
  have hstart : Capped c (t.start size) ((new { t.options with logCapacity := none }).start size) :=
    ⟨by simp only [start, new, ← hcapacity], rfl, rfl, rfl, rfl, rfl, rfl, rfl, rfl, .empty c⟩
  exact hstart.addLine _

end Capped

end Trace

/-! ### A traced run -/

namespace Driver
variable {c : Nat} (d : Driver)

theorem alongside_recordRandom (layout : LimbLayout) (phase : TracePhase) (slot : Nat)
    {keep : LimbNumber → Trace → Trace} (spot : Spot)
    (hkeep : ∀ value capped whole, Trace.Capped c capped whole →
      Trace.Capped c (keep value capped) (keep value whole)) :
    Recording.Alongside (Trace.Capped c) (d.recordRandom layout phase slot keep spot)
      (d.recordRandom layout phase slot keep spot) :=
  (Recording.Alongside.lift _).bind fun value => .modify fun _ _ h => hkeep value _ _ (h.addLine _)

theorem alongside_recordStep (layout : LimbLayout) (phase : TracePhase) (spot : Spot) :
    Recording.Alongside (Trace.Capped c) (d.recordStep layout phase spot)
      (d.recordStep layout phase spot) :=
  (Recording.Alongside.lift _).bind fun step =>
    Recording.Alongside.modify (f := Trace.withStep step) fun _ _ h => h.withStep step

theorem alongside_recordPhase (layout : LimbLayout) (phase : TracePhase) (spot : Spot) :
    Recording.Alongside (Trace.Capped c) (d.recordPhase layout phase spot)
      (d.recordPhase layout phase spot) := by
  unfold recordPhase
  cases phase with
  | alpha =>
    refine d.alongside_recordRandom layout _ _ spot ?_
    intro value capped whole h
    exact { h with alpha := rfl }
  | phi0 =>
    refine d.alongside_recordRandom layout _ _ spot ?_
    intro value capped whole h
    exact { h with phi0 := rfl }
  | phi1 =>
    refine d.alongside_recordRandom layout _ _ spot ?_
    intro value capped whole h
    exact { h with phi1 := rfl }
  | lambda =>
    refine d.alongside_recordRandom layout _ _ spot ?_
    intro value capped whole h
    exact { h with lambda := rfl }
  | setup | zaddu | zaddc | subtractP | exit => exact d.alongside_recordStep layout _ spot

/-- Stepping looks at its points, its limit and its count of steps, never at the log. -/
theorem alongside_stepOpcodes (layout : LimbLayout) (fuel : Nat) :
    Recording.Alongside (Trace.Capped c) (d.stepOpcodes layout fuel) (d.stepOpcodes layout fuel) := by
  induction fuel with
  | zero => exact .spent
  | succ fuel ih =>
    refine .get fun _ _ hlook => .get fun _ _ htest => ?_
    simp only [hlook.points, htest.atLimit]
    split
    · exact (Recording.Alongside.modify fun _ _ h => h.addLine _).bind fun _ => .throw _
    · refine (Recording.Alongside.lift _).bind fun _ => (Recording.Alongside.lift _).bind fun halted => ?_
      cases halted with
      | none => exact .throw _
      | some here =>
        refine (Recording.Alongside.modify fun _ _ h =>
          { h with stepCount := congrArg (· + 1) h.stepCount }).bind fun _ => ?_
        have hrest (spot last : Spot) : Recording.Alongside (Trace.Capped c)
            (if spot = last then pure () else d.stepOpcodes layout fuel)
            (if spot = last then pure () else d.stepOpcodes layout fuel) := by
          split
          · exact .pure ()
          · exact ih
        split
        · exact (d.alongside_recordPhase layout _ _).bind fun _ => hrest _ _
        · exact hrest _ _

theorem alongside_followRun (layout : LimbLayout) :
    Recording.Alongside (Trace.Capped c) (d.followRun layout) (d.followRun layout) := by
  refine (Recording.Alongside.lift _).bind fun halted => ?_
  cases halted with
  | none => exact (Recording.Alongside.lift _).bind fun _ => .throw _
  | some here =>
    refine .get fun _ _ hlook => ?_
    simp only [hlook.points]
    split
    · exact d.alongside_stepOpcodes layout d.fuel
    · exact (Recording.Alongside.procedure _).bind fun _ => .throw _

theorem alongside_followAndRelease (layout : LimbLayout) :
    Recording.Alongside (Trace.Capped c) (d.followAndRelease layout)
      (d.followAndRelease layout) := by
  refine (d.alongside_followRun layout).attempt.bind fun stepped =>
    (Recording.Alongside.lift d.release).attempt.bind fun released => .get fun _ _ hlook => ?_
  simp only [hlook.stepCount]
  exact (Recording.Alongside.procedure _).bind fun _ =>
    (Recording.Alongside.ofExcept stepped).bind fun _ => .ofExcept released

theorem alongside_runOpened (run : OpenedRun) :
    Recording.Alongside (Trace.Capped c) (d.runOpened run) (d.runOpened run) := by
  refine .get fun _ _ hlook => ?_
  simp only [hlook.points]
  refine (Recording.Alongside.lift _).bind fun _ => Recording.Alongside.bind ?_ fun _ => .lift _
  exact (Recording.Alongside.lift _).bind fun _ =>
    (Recording.Alongside.procedure (d.write .control (Command.operate .multiply).word)).bind fun _ =>
      d.alongside_followAndRelease run.layout

/-- **What the capacity of a log changes.** On any bus, take a traced multiplication that comes to
open its trace, on a trace with a capacity and whatever else in it, and the same call on a fresh
trace without capacity. They end alike, with the same result, and leave the bus in the same state.
The traces differ in their logs only: the one has of the other's lines those that still fit, and
is marked as truncated if and only if it is shorter. -/
theorem multiplyTraced_capacity {σ : Type} (b : Bus σ) (point : Coordinates) (k : Bytes)
    (t : Trace) (s : σ) (hcapacity : t.options.logCapacity = some c)
    (hstarts : StartsTrace b d point k s) :
    let capped := ((d.multiplyTraced point k).on t).run b s
    let whole := ((d.multiplyTraced point k).on
      (.new { t.options with logCapacity := none })).run b s
    capped.2 = whole.2 ∧
      Outcome.Agree (fun x y => x.1 = y.1 ∧ x.2.KeepsFitting c y.2) capped.1 whole.1 := by
  obtain ⟨run, u, hopen⟩ := hstarts
  have hrest (t : Trace) : ((d.multiplyTraced point k).on t).run b s =
      ((d.runOpened run).on (t.opened run.size run.layout)).run b u := by
    rw [multiplyTraced_on]
    refine (run_bind b _ _ s).trans ?_
    rw [show (d.openTraced point k).run.run b s = _ from hopen]
  have halongside := (d.alongside_runOpened run _ _
    (Trace.Capped.opened hcapacity run.size run.layout)).run b u
  simp only [hrest]
  exact ⟨halongside.2, halongside.1.mono fun x y h => ⟨h.1, h.2.keepsFitting⟩⟩

/-- Twenty-one times the point `(3, 6)`, on a trace that holds a line of before and has room for
200 bytes. -/
theorem multiplyTraced_capacity_curve97 :
    let driver : Driver := ⟨{}, 1000⟩
    let used := (Trace.new ⟨some 200, none, .standard⟩).addLine "used before"
    ∃ out kept whole t,
      Recording.Returns bus (driver.multiplyTraced ⟨[3], [6]⟩ [21]) used curve97 out kept t ∧
      Recording.Returns bus (driver.multiplyTraced ⟨[3], [6]⟩ [21]) (.new ⟨none, none, .standard⟩)
        curve97 out whole t ∧
      kept.KeepsFitting 200 whole := by
  intro driver used
  have hunarmed : curve97.sequencer.Unarmed := rfl
  have haccepts : driver.Accepts curve97 ⟨[3], [6]⟩ [21] :=
    ⟨rfl, rfl, ⟨fits_of_le (by decide), fits_of_le (by decide), fits_of_le (by decide)⟩,
      by decide +kernel, by decide, by rw [LadderRun.length_behind]; decide +kernel⟩
  have htraceable : Traceable driver curve97 :=
    ⟨⟨rfl, by decide, rfl, rfl⟩, by decide, by decide, rfl, hunarmed.beyond⟩
  obtain ⟨out, whole, t, hwhole⟩ : ∃ out whole t, Recording.Returns bus
      (driver.multiplyTraced ⟨[3], [6]⟩ [21]) (.new ⟨none, none, .standard⟩) curve97 out whole t :=
    htraceable.multiplyTraced_returns reachable_curve97.coherent haccepts rfl rfl
  obtain ⟨hstate, hagree⟩ := multiplyTraced_capacity driver bus ⟨[3], [6]⟩ [21] used curve97 rfl
    (startsTrace_of_returns driver hwhole)
  rw [show ((driver.multiplyTraced ⟨[3], [6]⟩ [21]).on
    (.new { used.options with logCapacity := none })).run bus curve97 = _ from hwhole]
    at hstate hagree
  obtain ⟨⟨result, kept⟩, hkept, rfl, hfitting⟩ := hagree.done_right
  exact ⟨out, kept, whole, t, Prod.ext hkept hstate, hwhole, hfitting⟩

end Driver

end CurveEngine
