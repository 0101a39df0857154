import CurveEngine.Proofs.Following
import CurveEngine.Proofs.Readings

/-! The step limit of a trace, on any bus.

A turn of stepping tests the limit, executes an opcode and counts it, in this order
(`returns_stepOpcodes`). Nothing but the test looks at the limit: a run that has returned within
a limit returns under it as well, with the same record (`stepOpcodes_within`). Up to its opening
a trace is not looked at (`multiplyTraced_on`); from there on the count stays within the limit,
whatever the bus answers and however the run ends (`multiplyTraced_bounded`). -/
namespace CurveEngine
open Register Procedure

/-! ### What a recording leaves in its record -/

namespace Recording
variable {ρ α β : Type}

/-- From a record with `I`, and on whatever bus, a recording leaves a record with `J` if it
returns and one with `E` if it throws. -/
structure Leaves (I : ρ → Prop) (op : Recording ρ α) (J E : ρ → Prop) : Prop where
  returns : ∀ {σ : Type} {bus : Bus σ} {r r' : ρ} {s t : σ} {a : α}, I r →
    Returns bus op r s a r' t → J r'
  throws : ∀ {σ : Type} {bus : Bus σ} {r r' : ρ} {s t : σ} {error : DriverError}, I r →
    Throws bus op r s error r' t → E r'

namespace Leaves
variable {I J K E : ρ → Prop}

theorem pure (a : α) : Leaves I (pure a : Recording ρ α) I E where
  returns hr h := by
    obtain ⟨-, rfl, -⟩ := (returns_pure ..).mp h
    exact hr
  throws _ h := nomatch ((ends_pure _ _ _ _).mp h).1

theorem throw (error : DriverError) : Leaves I (throw error : Recording ρ α) J I where
  returns _ h := (not_returns_throw _ _ _ _ _ _ h).elim
  throws hr h := by
    obtain ⟨-, rfl, -⟩ := (throws_throw ..).mp h
    exact hr

theorem bind {op : Recording ρ α} {f : α → Recording ρ β} (h : Leaves I op J E)
    (hf : ∀ a, Leaves J (f a) K E) : Leaves I (op >>= f) K E where
  returns hr hseq := by
    obtain ⟨a, q, u, hop, hrest⟩ := (returns_bind ..).mp hseq
    exact (hf a).returns (h.returns hr hop) hrest
  throws hr hseq := by
    obtain hop | ⟨a, q, u, hop, hrest⟩ := (throws_bind ..).mp hseq
    · exact h.throws hr hop
    · exact (hf a).throws (h.returns hr hop) hrest

theorem lift (op : Operation α) : Leaves I (liftM op : Recording ρ α) I I where
  returns hr h := by
    obtain ⟨rfl, -⟩ := (returns_lift ..).mp h
    exact hr
  throws hr h := by
    obtain ⟨rfl, -⟩ := (throws_lift ..).mp h
    exact hr

theorem procedure (p : Procedure α) : Leaves I (liftM p : Recording ρ α) I I := lift (liftM p)

theorem get : Leaves I (get : Recording ρ ρ) I E where
  returns hr h := by
    obtain ⟨-, rfl, -⟩ := (returns_get ..).mp h
    exact hr
  throws _ h := (not_throws_get _ _ _ _ _ h).elim

theorem modify {f : ρ → ρ} (h : ∀ r, I r → J (f r)) :
    Leaves I (modify f : Recording ρ Unit) J E where
  returns hr hop := by
    obtain ⟨rfl, -⟩ := (returns_modify ..).mp hop
    exact h _ hr
  throws _ hop := nomatch ((ends_pure _ _ _ _).mp hop).1

theorem mono {I' J' E' : ρ → Prop} {op : Recording ρ α} (h : Leaves I op J E)
    (hI : ∀ r, I' r → I r) (hJ : ∀ r, J r → J' r) (hE : ∀ r, E r → E' r) :
    Leaves I' op J' E' where
  returns hr hop := hJ _ (h.returns (hI _ hr) hop)
  throws hr hop := hE _ (h.throws (hI _ hr) hop)

/-- What is left in the record, however the recording ends. -/
theorem ends {op : Recording ρ α} (h : Leaves I op J E) {σ : Type} {bus : Bus σ} {r r' : ρ}
    {s t : σ} {x : Except DriverError α} (hr : I r) (hends : Ends bus (op.on r) s (x, r') t) :
    J r' ∨ E r' := by
  cases x with
  | ok a => exact .inl (h.returns hr hends)
  | error e => exact .inr (h.throws hr hends)

end Leaves

end Recording

/-! ### Traces that differ in their limit -/

namespace Trace

/-- A trace with a limit on its steps. -/
def limited (m : Nat) (t : Trace) : Trace :=
  { t with options := { t.options with maxSteps := some m } }

/-- A trace that keeps to its limit. -/
structure Bounded (m : Nat) (t : Trace) : Prop where
  limit : t.options.maxSteps = some m
  within : t.stepCount ≤ m

/-- The limit is tested before a step is counted: below it, there is room for one. -/
theorem Bounded.turn {m : Nat} {t t' : Trace} (h : t.Bounded m) (hbelow : t.atLimit = false)
    (hoptions : t'.options = t.options) (hcount : t'.stepCount ≤ t.stepCount + 1) :
    t'.Bounded m := by
  simp only [atLimit, h.limit, Option.any_some, decide_eq_false_iff_not] at hbelow
  exact ⟨by rw [hoptions, h.limit], by omega⟩

/-- A trace that has counted one step more than another. -/
structure OneMore (t t' : Trace) : Prop where
  options : t'.options = t.options
  stepCount : t'.stepCount = t.stepCount + 1

theorem atLimit_limited (m : Nat) (t : Trace) : (t.limited m).atLimit = decide (m ≤ t.stepCount) :=
  rfl

/-- What is noted at a spot: neither the options nor the count of steps. -/
structure Notes (f : Trace → Trace) : Prop where
  options : ∀ t, (f t).options = t.options
  stepCount : ∀ t, (f t).stepCount = t.stepCount
  limited : ∀ m t, f (t.limited m) = (f t).limited m

namespace Notes

theorem addLine (line : String) : Notes (addLine line) := ⟨fun _ => rfl, fun _ => rfl, fun _ _ => rfl⟩

theorem comp {f g : Trace → Trace} (hf : Notes f) (hg : Notes g) : Notes (f ∘ g) where
  options t := (hf.options _).trans (hg.options t)
  stepCount t := (hf.stepCount _).trans (hg.stepCount t)
  limited m t := (congrArg f (hg.limited m t)).trans (hf.limited m _)

theorem addLines (lines : List String) :
    Notes (lines.foldl fun t line => t.addLine line) := by
  induction lines with
  | nil => exact ⟨fun _ => rfl, fun _ => rfl, fun _ _ => rfl⟩
  | cons line rest ih => exact ih.comp (.addLine line)

theorem withStep (step : TraceStep) : Notes (withStep step) :=
  comp (f := fun t : Trace => { t with steps := t.steps.push step })
    ⟨fun _ => rfl, fun _ => rfl, fun _ _ => rfl⟩ (addLines (Driver.stepLines step))

end Notes

end Trace

namespace Driver
open Trace
variable {α β : Type} {d : Driver} {layout : LimbLayout}

/-- A recording that does not look at the step limit: what it returns, it returns under any
limit. -/
structure Blind (op : Tracing α) : Prop where
  under : ∀ {σ : Type} {bus : Bus σ} {t t' : Trace} {s u : σ} {a : α} (m : Nat),
    Recording.Returns bus op t s a t' u →
      Recording.Returns bus op (t.limited m) s a (t'.limited m) u

namespace Blind

theorem pure (a : α) : Blind (pure a) where
  under m h := by
    obtain ⟨rfl, rfl, rfl⟩ := (Recording.returns_pure ..).mp h
    exact (Recording.returns_pure ..).mpr ⟨rfl, rfl, rfl⟩

theorem throw (error : DriverError) : Blind (throw error : Tracing α) where
  under _ h := (Recording.not_returns_throw _ _ _ _ _ _ h).elim

theorem bind {op : Tracing α} {f : α → Tracing β} (h : Blind op) (hf : ∀ a, Blind (f a)) :
    Blind (op >>= f) where
  under m hseq := by
    obtain ⟨a, q, v, hop, hrest⟩ := (Recording.returns_bind ..).mp hseq
    exact (Recording.returns_bind ..).mpr ⟨a, _, v, h.under m hop, (hf a).under m hrest⟩

theorem lift (op : Operation α) : Blind (liftM op) where
  under m h := by
    obtain ⟨rfl, hop⟩ := (Recording.returns_lift ..).mp h
    exact (Recording.returns_lift ..).mpr ⟨rfl, hop⟩

theorem procedure (p : Procedure α) : Blind (liftM p) := lift (liftM p)

theorem modify {f : Trace → Trace} (h : ∀ m t, f (t.limited m) = (f t).limited m) :
    Blind (modify f) where
  under m hop := by
    obtain ⟨rfl, rfl⟩ := (Recording.returns_modify ..).mp hop
    exact (Recording.returns_modify ..).mpr ⟨(h m _).symm, rfl⟩

/-- What follows a look at the trace must not depend on its limit. -/
theorem get {f : Trace → Tracing α} (h : ∀ m t, f (t.limited m) = f t) (hf : ∀ t, Blind (f t)) :
    Blind (get >>= f) where
  under m hseq := by
    obtain ⟨_, _, _, hget, hrest⟩ := (Recording.returns_bind ..).mp hseq
    obtain ⟨rfl, rfl, rfl⟩ := (Recording.returns_get ..).mp hget
    refine (Recording.returns_bind ..).mpr
      ⟨_, _, _, (Recording.returns_get ..).mpr ⟨rfl, rfl, rfl⟩, ?_⟩
    rw [h]
    exact (hf _).under m hrest

end Blind

/-! ### One turn -/

/-- A phase is read from the engine and then noted. -/
theorem recordPhase_eq (d : Driver) (layout : LimbLayout) (phase : TracePhase) (spot : Spot) :
    ∃ (γ : Type) (read : Operation γ) (note : γ → Trace → Trace),
      d.recordPhase layout phase spot = (liftM read >>= fun value => modify (note value)) ∧
        ∀ value, Notes (note value) := by
  cases phase with
  | alpha | phi0 | phi1 | lambda =>
    exact ⟨_, _, _, rfl, fun value => ⟨fun _ => rfl, fun _ => rfl, fun _ _ => rfl⟩⟩
  | setup | zaddu | zaddc | subtractP | exit => exact ⟨_, _, withStep, rfl, .withStep⟩

theorem recordPhase_leaves {I : Trace → Prop}
    (h : ∀ t t' : Trace, t'.options = t.options → t'.stepCount = t.stepCount → I t → I t')
    (phase : TracePhase) (spot : Spot) :
    Recording.Leaves I (d.recordPhase layout phase spot) I I := by
  obtain ⟨γ, read, note, heq, hnotes⟩ := d.recordPhase_eq layout phase spot
  rw [heq]
  exact (Recording.Leaves.lift read).bind fun value =>
    .modify fun t ht => h t _ ((hnotes value).options t) ((hnotes value).stepCount t) ht

theorem blind_recordPhase (phase : TracePhase) (spot : Spot) :
    Blind (d.recordPhase layout phase spot) := by
  obtain ⟨γ, read, note, heq, hnotes⟩ := d.recordPhase_eq layout phase spot
  rw [heq]
  exact (Blind.lift read).bind fun value => .modify (hnotes value).limited

/-- Looks at the opcode at which the engine has halted, counts it, and says whether it is at the
last spot. -/
def visit (d : Driver) (layout : LimbLayout) (points : TracePoints) (spot : Spot) :
    Tracing Bool := do
  modify fun t => { t with stepCount := t.stepCount + 1 }
  match points.phaseAt? spot with
  | some phase => d.recordPhase layout phase spot
  | none => pure ()
  pure (decide (spot = points.last))

/-- A turn of stepping, once the limit has been tested. -/
def stepOnce (d : Driver) (layout : LimbLayout) (points : TracePoints) : Tracing Bool := do
  d.runOpcodes 1
  let halted ← d.waitHaltedOrOver
  match halted with
  | none => throw .unexpectedHalt
  | some here => d.visit layout points ⟨here.pc, here.state⟩

/-- A turn tests the limit, executes an opcode and goes on, unless it was the last one. -/
theorem stepOpcodes_succ (d : Driver) (layout : LimbLayout) (fuel : Nat) (t : Trace) :
    (d.stepOpcodes layout (fuel + 1)).on t =
      (if t.atLimit then do
        modify fun t => t.addLine "step limit reached"
        throw .stepLimit
      else do
        let ended ← d.stepOnce layout t.options.points
        if ended then pure () else d.stepOpcodes layout fuel : Tracing Unit).on t := by
  rw [stepOpcodes_on]
  congr 1
  split
  · rfl
  rw [stepOnce]
  simp only [LawfulMonad.bind_assoc]
  refine bind_congr fun _ => bind_congr fun halted => ?_
  cases halted with
  | none => rfl
  | some here =>
    simp only [visit, LawfulMonad.bind_assoc]
    refine bind_congr fun _ => ?_
    cases t.options.points.phaseAt? ⟨here.pc, here.state⟩ with
    | none => simp
    | some phase => simp

theorem visit_counts (d : Driver) (layout : LimbLayout) (points : TracePoints) (spot : Spot)
    (t : Trace) :
    Recording.Leaves (· = t) (d.visit layout points spot) (OneMore t) (OneMore t) := by
  refine (Recording.Leaves.modify (J := OneMore t) fun u hu => hu ▸ ⟨rfl, rfl⟩).bind fun _ => ?_
  cases points.phaseAt? spot with
  | none => exact (Recording.Leaves.pure ()).bind fun _ => .pure _
  | some phase =>
    refine (recordPhase_leaves ?_ phase spot).bind fun _ => .pure _
    exact fun u u' hoptions hcount hu => ⟨hoptions.trans hu.options, hcount.trans hu.stepCount⟩

/-- A turn counts one opcode, unless it fails before that. -/
theorem stepOnce_counts (d : Driver) (layout : LimbLayout) (points : TracePoints) (t : Trace) :
    Recording.Leaves (· = t) (d.stepOnce layout points) (OneMore t)
      (fun t' => t'.options = t.options ∧ t'.stepCount ≤ t.stepCount + 1) := by
  have hstart (u : Trace) (hu : u = t) :
      u.options = t.options ∧ u.stepCount ≤ t.stepCount + 1 := by
    rw [hu]
    exact ⟨rfl, Nat.le_succ _⟩
  refine ((Recording.Leaves.lift _).mono (fun _ => id) (fun _ => id) hstart).bind fun _ =>
    ((Recording.Leaves.lift _).mono (fun _ => id) (fun _ => id) hstart).bind fun halted => ?_
  cases halted with
  | none => exact (Recording.Leaves.throw _).mono (fun _ => id) (fun _ => id) hstart
  | some here =>
    exact (visit_counts d layout points _ t).mono (fun _ => id) (fun _ => id) fun u hu =>
      ⟨hu.options, Nat.le_of_eq hu.stepCount⟩

theorem blind_stepOnce (points : TracePoints) : Blind (d.stepOnce layout points) := by
  refine (Blind.lift _).bind fun _ => (Blind.lift _).bind fun halted => ?_
  cases halted with
  | none => exact .throw _
  | some here =>
    refine (Blind.modify fun _ _ => rfl).bind fun _ => ?_
    cases points.phaseAt? ⟨here.pc, here.state⟩ with
    | none => exact (Blind.pure ()).bind fun _ => .pure _
    | some phase => exact (blind_recordPhase phase _).bind fun _ => .pure _

/-! ### Stepping -/

section Stepping
variable {σ : Type} {bus : Bus σ} {t t' : Trace} {s u : σ} {fuel m : Nat}

/-- Stepping returns what follows a turn within the limit. -/
theorem returns_stepOpcodes :
    Recording.Returns bus (d.stepOpcodes layout (fuel + 1)) t s () t' u ↔
      t.atLimit = false ∧ ∃ ended t₁ v,
        Recording.Returns bus (d.stepOnce layout t.options.points) t s ended t₁ v ∧
          Recording.Returns bus (if ended then pure () else d.stepOpcodes layout fuel) t₁ v () t' u := by
  rw [Recording.Returns, stepOpcodes_succ]
  cases hlimit : t.atLimit with
  | true =>
    refine ⟨fun h => (Recording.not_returns_bind_throw _ _ _ _ _ _ _ h).elim, fun h => ?_⟩
    cases h.1
  | false =>
    exact (Recording.returns_bind ..).trans ⟨fun h => ⟨rfl, h⟩, fun h => h.2⟩

/-- Stepping that returns has counted an opcode at least, and no more than its fuel. -/
theorem stepOpcodes_counts
    (h : Recording.Returns bus (d.stepOpcodes layout fuel) t s () t' u) :
    t'.options = t.options ∧ t.stepCount < t'.stepCount ∧ t'.stepCount ≤ t.stepCount + fuel := by
  induction fuel generalizing t s with
  | zero => cases h
  | succ fuel ih =>
    obtain ⟨-, ended, t₁, v, hturn, hrest⟩ := returns_stepOpcodes.mp h
    obtain ⟨hoptions, hcount⟩ := (stepOnce_counts d layout _ t).returns rfl hturn
    cases ended with
    | true =>
      obtain ⟨-, rfl, -⟩ := (Recording.returns_pure ..).mp hrest
      exact ⟨hoptions, by omega, by omega⟩
    | false =>
      obtain ⟨hoptions', hmore, hfuel⟩ := ih hrest
      exact ⟨hoptions'.trans hoptions, by omega, by omega⟩

/-- Stepping that has returned within a limit returns under it. -/
theorem stepOpcodes_within
    (h : Recording.Returns bus (d.stepOpcodes layout fuel) t s () t' u) (hm : t'.stepCount ≤ m) :
    Recording.Returns bus (d.stepOpcodes layout fuel) (t.limited m) s () (t'.limited m) u := by
  induction fuel generalizing t s with
  | zero => cases h
  | succ fuel ih =>
    have hmore := (stepOpcodes_counts h).2.1
    obtain ⟨-, ended, t₁, v, hturn, hrest⟩ := returns_stepOpcodes.mp h
    refine returns_stepOpcodes.mpr ⟨?_, ended, t₁.limited m, v, (blind_stepOnce _).under m hturn, ?_⟩
    · rw [atLimit_limited, decide_eq_false (by omega)]
    cases ended with
    | true => exact (Blind.pure ()).under m hrest
    | false => exact ih hrest

end Stepping

/-- The count of steps does not exceed its limit, whether stepping returns or throws. -/
theorem stepOpcodes_bounded (d : Driver) (layout : LimbLayout) (m fuel : Nat) :
    Recording.Leaves (Bounded m) (d.stepOpcodes layout fuel) (Bounded m) (Bounded m) := by
  induction fuel with
  | zero =>
    constructor
    · intro σ bus t t' s u _ _ h
      cases h
    · intro σ bus t t' s u error _ h
      cases h
  | succ fuel ih =>
    constructor
    · intro σ bus t t' s u _ ht h
      obtain ⟨hlimit, ended, t₁, v, hstep, hrest⟩ := returns_stepOpcodes.mp h
      obtain ⟨hoptions, hcount⟩ := (stepOnce_counts d layout _ t).returns rfl hstep
      have ht₁ := ht.turn hlimit hoptions (Nat.le_of_eq hcount)
      cases ended with
      | true =>
        obtain ⟨-, rfl, -⟩ := (Recording.returns_pure ..).mp hrest
        exact ht₁
      | false => exact ih.returns ht₁ hrest
    · intro σ bus t t' s u error ht h
      rw [Recording.Throws, stepOpcodes_succ] at h
      cases hlimit : t.atLimit with
      | true =>
        rw [hlimit] at h
        have hline : Recording.Leaves (Bounded m)
            (modify fun t => t.addLine "step limit reached" : Tracing Unit) (Bounded m)
              (Bounded m) := .modify fun t ht => ⟨ht.limit, ht.within⟩
        exact (hline.bind fun _ => .throw (J := Bounded m) .stepLimit).throws ht h
      | false =>
        rw [hlimit] at h
        obtain hstep | ⟨ended, t₁, v, hstep, hrest⟩ := (Recording.throws_bind ..).mp h
        · obtain ⟨hoptions, hcount⟩ := (stepOnce_counts d layout _ t).throws rfl hstep
          exact ht.turn hlimit hoptions hcount
        · obtain ⟨hoptions, hcount⟩ := (stepOnce_counts d layout _ t).returns rfl hstep
          have ht₁ := ht.turn hlimit hoptions (Nat.le_of_eq hcount)
          cases ended with
          | true => cases ((ends_pure _ _ _ _).mp hrest).1
          | false => exact ih.throws ht₁ hrest

/-! ### Following a run -/

theorem followRun_bounded (d : Driver) (layout : LimbLayout) (m : Nat) :
    Recording.Leaves (Bounded m) (d.followRun layout) (Bounded m) (Bounded m) := by
  refine (Recording.Leaves.lift _).bind fun halted => ?_
  cases halted with
  | none => exact (Recording.Leaves.lift _).bind fun _ => .throw _
  | some here =>
    refine Recording.Leaves.get.bind fun t => ?_
    dsimp only
    split
    · exact d.stepOpcodes_bounded layout m d.fuel
    · exact (Recording.Leaves.procedure _).bind fun _ => .throw _

section Following
variable {σ : Type} {bus : Bus σ} {t t' : Trace} {s u : σ}

/-- Following returns what stepping returns from the entry. -/
theorem returns_followRun :
    Recording.Returns bus (d.followRun layout) t s () t' u ↔
      ∃ here v, Operation.Returns bus d.waitHaltedOrOver s (some here) v ∧
        (⟨here.pc, here.state⟩ : Spot) = t.options.points.entry ∧
          Recording.Returns bus (d.stepOpcodes layout d.fuel) t v () t' u := by
  simp only [followRun, Recording.returns_bind, Recording.returns_lift]
  constructor
  · rintro ⟨halted, _, v, ⟨rfl, hlook⟩, hrest⟩
    cases halted with
    | none => exact (Recording.not_returns_bind_throw _ _ _ _ _ _ _ hrest).elim
    | some here =>
      obtain ⟨_, _, _, hget, hfollow⟩ := (Recording.returns_bind ..).mp hrest
      obtain ⟨hgot, hkept, hstill⟩ := (Recording.returns_get ..).mp hget
      rw [hgot, hkept, hstill] at hfollow
      split at hfollow
      · rename_i hentry
        exact ⟨here, v, hlook, hentry, hfollow⟩
      · exact (Recording.not_returns_bind_throw _ _ _ _ _ _ _ hfollow).elim
  · rintro ⟨here, v, hlook, hentry, hfollow⟩
    refine ⟨some here, t, v, ⟨rfl, hlook⟩, (Recording.returns_bind ..).mpr
      ⟨_, _, _, (Recording.returns_get ..).mpr ⟨rfl, rfl, rfl⟩, ?_⟩⟩
    exact (if_pos hentry).symm ▸ hfollow

/-- Following that returns has counted no more opcodes than its fuel. -/
theorem followRun_counts (h : Recording.Returns bus (d.followRun layout) t s () t' u) :
    t'.stepCount ≤ t.stepCount + d.fuel := by
  obtain ⟨here, v, -, -, hfollow⟩ := returns_followRun.mp h
  exact (stepOpcodes_counts hfollow).2.2

/-- Following that has returned within a limit returns under it. -/
theorem followRun_within {m : Nat} (h : Recording.Returns bus (d.followRun layout) t s () t' u)
    (hm : t'.stepCount ≤ m) :
    Recording.Returns bus (d.followRun layout) (t.limited m) s () (t'.limited m) u := by
  obtain ⟨here, v, hlook, hentry, hfollow⟩ := returns_followRun.mp h
  exact returns_followRun.mpr ⟨here, v, hlook, hentry, stepOpcodes_within hfollow hm⟩

end Following

/-- Releasing does not touch the trace. -/
theorem followAndRelease_bounded (d : Driver) (layout : LimbLayout) (m : Nat) :
    Recording.Leaves (Bounded m) (d.followAndRelease layout) (Bounded m) (Bounded m) := by
  have hends {σ : Type} {bus : Bus σ} {t t' : Trace} {s u : σ} {x : Except DriverError Unit}
      (ht : t.Bounded m) (h : Ends bus ((d.followAndRelease layout).on t) s (x, t') u) :
      t'.Bounded m := by
    rw [followAndRelease_on] at h
    simp only [ends_bind, ends_pure, Prod.mk.injEq] at h
    obtain ⟨⟨stepped, q⟩, v, hfollow, -, -, -, -, -, -, ⟨-, rfl⟩, -⟩ := h
    cases stepped with
    | ok _ => exact (followRun_bounded d layout m).returns ht hfollow
    | error e => exact (followRun_bounded d layout m).throws ht hfollow
  exact ⟨fun ht h => hends ht h, fun ht h => hends ht h⟩

/-- A traced run up to the start of the multiplication, and where it expects the numbers. -/
def startTraced (d : Driver) : Tracing LimbLayout := do
  d.ensureDebug
  let size ← d.size
  let widthWord ← d.limbWidth
  let width := widthWord.toNat
  if width = 0 ∨ width > limbWidthMax then throw .unexpectedHalt
  else do
    let layout := LimbLayout.ofSize size width
    modify fun t => t.opened size layout
    let points := (← get).options.points
    d.setBreakpoint traceBreakpoint points.entry.pc 0 .idle
    d.waitIdle
    d.write .control (Command.operate .multiply).word
    pure layout

theorem traceRun_eq (d : Driver) :
    d.traceRun = (do
      let layout ← d.startTraced
      d.followAndRelease layout : Tracing Unit) := by
  rw [traceRun, startTraced]
  simp only [LawfulMonad.bind_assoc]
  refine bind_congr fun _ => bind_congr fun size => bind_congr fun width => ?_
  split
  · rfl
  simp only [LawfulMonad.bind_assoc, LawfulMonad.pure_bind]
  rfl

theorem blind_startTraced : Blind d.startTraced := by
  refine (Blind.lift _).bind fun _ => (Blind.procedure _).bind fun size =>
    (Blind.lift _).bind fun width => ?_
  dsimp only
  split
  · exact .throw _
  · exact (Blind.modify fun _ _ => rfl).bind fun _ => Blind.get (fun _ _ => rfl) fun t =>
      (Blind.lift _).bind fun _ => (Blind.lift _).bind fun _ => (Blind.procedure _).bind fun _ =>
        .pure _

/-! ### The opening of a trace -/

/-- What is to be recorded of a run that has been prepared, and how its result is unmasked. -/
structure OpenedRun where
  token : Bytes
  size : Nat
  layout : LimbLayout

/-- A traced multiplication up to the opening of its trace. -/
def openTraced (d : Driver) (point : Coordinates) (k : Bytes) : Operation OpenedRun := do
  notify (.multiplication true)
  d.ensureDebug
  let token ← d.loadMultiplication point k
  d.ensureDebug
  let size ← d.size
  let widthWord ← d.limbWidth
  let width := widthWord.toNat
  if width = 0 ∨ width > limbWidthMax then throw .unexpectedHalt
  else pure ⟨token, size, .ofSize size width⟩

/-- A traced multiplication from the opening of its trace on. -/
def runOpened (d : Driver) (run : OpenedRun) : Tracing PointAnswer := do
  let points := (← get).options.points
  d.setBreakpoint traceBreakpoint points.entry.pc 0 .idle
  d.startAndFollow run.layout
  d.collectResult run.token

/-- A traced multiplication that comes to open its trace. -/
def StartsTrace {σ : Type} (bus : Bus σ) (d : Driver) (point : Coordinates) (k : Bytes) (s : σ) :
    Prop := ∃ run t, Operation.Returns bus (d.openTraced point k) s run t

/-- An operation at the beginning of a recording does not look at the record. -/
theorem on_lift_bind_eq {ρ α β γ : Type} {p : Operation α} {f : α → Recording ρ β}
    {g : α → Operation γ} {h : Except DriverError γ → Procedure (Except DriverError β × ρ)} {r : ρ}
    (herror : ∀ error, h (.error error) = pure (.error error, r))
    (hrest : ∀ a, (f a).on r = (g a).run >>= h) :
    ((liftM p : Recording ρ α) >>= f).on r = (p >>= g).run >>= h := by
  rw [Recording.on_lift_bind, ExceptT.run_bind, LawfulMonad.bind_assoc]
  refine bind_congr fun x => ?_
  cases x with
  | ok a => exact hrest a
  | error error => exact (herror error).symm

/-- Up to its opening a trace is not looked at. -/
theorem multiplyTraced_on (d : Driver) (point : Coordinates) (k : Bytes) (t : Trace) :
    (d.multiplyTraced point k).on t = (d.openTraced point k).run >>= fun
      | .error e => pure (.error e, t)
      | .ok run => (d.runOpened run).on (t.opened run.size run.layout) := by
  rw [multiplyTraced, openTraced, traceRun]
  simp only [LawfulMonad.bind_assoc]
  refine on_lift_bind_eq (p := liftM (notify _)) (fun _ => rfl) fun _ => ?_
  refine on_lift_bind_eq (fun _ => rfl) fun _ => on_lift_bind_eq (fun _ => rfl) fun token => ?_
  refine on_lift_bind_eq (fun _ => rfl) fun _ => ?_
  refine on_lift_bind_eq (p := liftM d.size) (fun _ => rfl) fun size => ?_
  refine on_lift_bind_eq (fun _ => rfl) fun width => ?_
  split
  · rfl
  · show _ = (d.runOpened ⟨token, size, .ofSize size width.toNat⟩).on
      (t.opened size (.ofSize size width.toNat))
    rw [runOpened, startAndFollow, followAndRelease]
    simp only [LawfulMonad.bind_assoc]
    rfl

/-- A traced multiplication that returns has opened its trace. -/
theorem startsTrace_of_returns (d : Driver) {σ : Type} {b : Bus σ} {point : Coordinates} {k : Bytes}
    {t t' : Trace} {s u : σ} {out : PointAnswer}
    (h : Recording.Returns b (d.multiplyTraced point k) t s out t' u) :
    StartsTrace b d point k s := by
  unfold Recording.Returns at h
  rw [multiplyTraced_on] at h
  obtain ⟨x, v, hopen, hrest⟩ := (ends_bind ..).mp h
  cases x with
  | ok run => exact ⟨run, v, hopen⟩
  | error error => cases ((ends_pure ..).mp hrest).1

/-- A trace that has been opened keeps to its limit, however the run ends. -/
theorem runOpened_bounded (d : Driver) (run : OpenedRun) (m : Nat) :
    Recording.Leaves (Bounded m) (d.runOpened run) (Bounded m) (Bounded m) := by
  have hfollow :
      Recording.Leaves (Bounded m) (d.startAndFollow run.layout) (Bounded m) (Bounded m) :=
    (Recording.Leaves.lift _).bind fun _ => (Recording.Leaves.procedure _).bind fun _ =>
      d.followAndRelease_bounded run.layout m
  exact Recording.Leaves.get.bind fun t => (Recording.Leaves.lift _).bind fun _ =>
    hfollow.bind fun _ => .lift _

/-- On any bus, and however a traced multiplication ends: once its trace has been opened, it has
counted no more steps than its limit, and before that it is as the caller has lent it. -/
theorem multiplyTraced_bounded {σ : Type} {bus : Bus σ} {m : Nat} {trace trace' : Trace} {s u : σ}
    {point : Coordinates} {k : Bytes} {x : Except DriverError PointAnswer}
    (hlimit : trace.options.maxSteps = some m)
    (h : Ends bus ((d.multiplyTraced point k).on trace) s (x, trace') u) :
    (StartsTrace bus d point k s → trace'.Bounded m) ∧
      (¬ StartsTrace bus d point k s → trace' = trace) := by
  rw [multiplyTraced_on] at h
  obtain ⟨opened, v, hopen, hrest⟩ := (ends_bind ..).mp h
  cases opened with
  | ok run =>
    have hbegun : (trace.opened run.size run.layout).Bounded m := ⟨hlimit, Nat.zero_le _⟩
    refine ⟨fun _ => ?_, fun hnone => absurd ⟨run, v, hopen⟩ hnone⟩
    exact ((d.runOpened_bounded run m).ends hbegun hrest).elim id id
  | error e =>
    obtain ⟨-, rfl⟩ := Prod.mk.inj ((ends_pure ..).mp hrest).1
    refine ⟨fun ⟨run, w, hreturns⟩ => ?_, fun _ => rfl⟩
    cases (Ends.unique hopen hreturns).1

end Driver

end CurveEngine
