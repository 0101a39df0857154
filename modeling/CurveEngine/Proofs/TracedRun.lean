import CurveEngine.Proofs.Breakpoints

/-! A traced run, from its start to its release.

Up to the start of the multiplication a traced run prepares its trace and its breakpoint
(`leads_traceRun`); what is left is `followAndRelease`. It returns only if the run was
entered, and has then finished the multiplication as if it had never been halted
(`followAndRelease_only`). -/
namespace CurveEngine
open Register Procedure Device Operation

/-- A trace in which a run has begun. -/
def Trace.opened (size : Nat) (layout : LimbLayout) (t : Trace) : Trace :=
  (t.start size).addLine
    ("[k]P trace: nn = " ++ toString size ++ ", ww = " ++ toString layout.limbWidth ++ ", " ++
      toString layout.limbs ++ " limbs per number")

theorem Trace.options_opened (size : Nat) (layout : LimbLayout) (t : Trace) :
    (t.opened size layout).options = t.options := rfl

/-- Where a driver expects the numbers of a computation. -/
def Device.State.shown (s : State) : LimbLayout := .ofSize (s.size % 2 ^ 16) s.params.limbWidth

namespace Driver
variable {d : Driver} {s : State}

/-- An engine for debugging that does nothing, and a driver that polls it. -/
structure DebugIdle (d : Driver) (s : State) : Prop where
  debug : s.params.debug = true
  attentive : 0 < d.checks
  resting : s.multiplying = false
  idle : s.sequencer.state = .idle

/-- An idle engine whose Fp memory a trace can read. -/
structure Legible (d : Driver) (s : State) : Prop extends DebugIdle d s where
  limbWidth_pos : 1 ≤ s.params.limbWidth
  limbWidth_le : s.params.limbWidth ≤ limbWidthMax
  clear : s.errors = 0

/-- An engine on which a multiplication can be traced. -/
structure Traceable (d : Driver) (s : State) : Prop extends DebugIdle d s where
  limbWidth_pos : 1 ≤ s.params.limbWidth
  limbWidth_le : s.params.limbWidth ≤ limbWidthMax
  clear : s.errors = 0
  unarmed : s.sequencer.UnarmedBeyond

theorem Traceable.legible (h : Traceable d s) : Legible d s :=
  ⟨h.toDebugIdle, h.limbWidth_pos, h.limbWidth_le, h.clear⟩

/-- The width of a limb is what the driver reads. -/
theorem Legible.limbWidth_word (h : Legible d s) :
    (UInt64.ofNat s.params.limbWidth).toUInt32.toNat = s.params.limbWidth := by
  have hmax : s.params.limbWidth ≤ 32 := h.limbWidth_le
  rw [UInt64.toNat_toUInt32, UInt64.toNat_ofNat', Nat.mod_eq_of_lt (by omega),
    Nat.mod_eq_of_lt (by omega)]

/-- A driver does not refuse to read limbs of that width. -/
theorem Legible.limbWidth_valid (h : Legible d s) :
    ¬(s.params.limbWidth = 0 ∨ s.params.limbWidth > limbWidthMax) := by
  rintro (hzero | hwide)
  · exact Nat.ne_zero_of_lt h.limbWidth_pos hzero
  · exact Nat.not_lt_of_le h.limbWidth_le hwide

theorem DebugIdle.frame {t : State} (h : DebugIdle d s)
    (same : (t.params, t.multiplying, t.sequencer.state) =
      (s.params, s.multiplying, s.sequencer.state)) : DebugIdle d t := by
  simp only [Prod.mk.injEq] at same
  obtain ⟨hparams, hmultiplying, hstate⟩ := same
  refine ⟨?_, h.attentive, hmultiplying.trans h.resting, hstate.trans h.idle⟩
  rw [hparams]
  exact h.debug

theorem DebugIdle.isHalted (h : DebugIdle d s) : s.isHalted = false := by
  rw [State.isHalted, Sequencer.isHalted, h.idle]
  rfl

theorem DebugIdle.armedAt (h : DebugIdle d s) (address : UInt32) :
    DebugIdle d (s.armedAt address) := ⟨h.debug, h.attentive, h.resting, h.idle⟩

/-- A multiplication that is refused leaves the engine idle. -/
theorem DebugIdle.refused (h : DebugIdle d s) :
    DebugIdle d (s.begun.latch .inputNotOnCurve) := ⟨h.debug, h.attentive, h.resting, h.idle⟩

/-- A multiplication behind a breakpoint can be stepped through. -/
theorem DebugIdle.stepping (h : DebugIdle d s) (address : UInt32) :
    Stepping d (s.launchedBehind address) := ⟨rfl, rfl, h.debug, h.attentive⟩

/-- A traced run from the start of the multiplication on. -/
def followAndRelease (d : Driver) (layout : LimbLayout) : Tracing Unit := do
  let stepped ← (d.followRun layout).attempt
  let released ← Recording.attempt d.release
  let steps := (← get).stepCount
  notify (.tracedDone steps)
  ofExcept stepped
  ofExcept released

theorem does_size : Does State.Coherent (liftM d.size) s (s.size % 2 ^ 16) s :=
  Does.lift fun t ht =>
    ⟨t, (ends_size _ _).mpr ⟨by rw [ht.field State.size fun _ => rfl], rfl⟩, ht, id⟩

theorem does_start (hresting : s.multiplying = false) :
    Does State.Coherent (liftM (d.write .control (Command.operate .multiply).word)) s ()
      s.begun.startMultiplication := by
  refine Does.lift fun t ht => ⟨_, (ends_write _ _ _ _).mpr rfl, ?_, fun h => h.writeSink _ _⟩
  rw [writeSink_multiply ((ht.field State.multiplying fun _ => rfl).trans hresting)]
  exact (ht.apply (show State.Timeless State.begun from fun _ => rfl)).apply
    State.timeless_startMultiplication

/-- A traced run from the arming of its breakpoint on. -/
def startAndFollow (d : Driver) (layout : LimbLayout) : Tracing Unit := do
  d.waitIdle
  d.write .control (Command.operate .multiply).word
  d.followAndRelease layout

/-- What a traced run does before it waits for the engine. -/
theorem leads_armed (h : Legible d s) (t : Trace) :
    Leads State.Coherent d.traceRun t s (d.startAndFollow s.shown)
      (t.opened (s.size % 2 ^ 16) s.shown) (s.armedAt t.options.points.entry.pc) := by
  rw [traceRun]
  refine ((Records.lift (does_ensureDebug h.debug)).leads _).trans
    (((Records.procedure does_size).leads _).trans
      (((Records.lift (does_limbWidth h.debug)).leads _).trans ?_))
  simp only [h.limbWidth_word, if_neg h.limbWidth_valid]
  refine ((Records.modify _).leads _).trans (Records.get.leads _ |>.trans ?_)
  exact (Records.lift (does_setBreakpoint h.debug _)).leads fun _ => d.startAndFollow s.shown

/-- What a traced run does before it looks at the multiplication. -/
theorem leads_traceRun (h : Legible d s) (hpatient : max s.params.latency 3 < d.checks)
    (t : Trace) :
    Leads State.Coherent d.traceRun t s (d.followAndRelease s.shown)
      (t.opened (s.size % 2 ^ 16) s.shown)
      (s.armedAt t.options.points.entry.pc).begun.startMultiplication := by
  have hwait := (does_waitIdle (d := d) (s.armedAt t.options.points.entry.pc)).coherent h.resting
    h.clear hpatient
  have hstart := does_start (d := d) (s := s.armedAt t.options.points.entry.pc) h.resting
  exact (leads_armed h t).trans (((Records.lift hwait).leads _).trans
    ((Records.procedure hstart).leads fun _ => d.followAndRelease s.shown))

/-- A traced run that returns has started the multiplication, however long it waited. -/
theorem traceRun_starts (h : Legible d s) {t t' : Trace} {u v : State} (hcoherent : u.Coherent)
    (hu : u.Alike s) (hreturns : Recording.Returns bus d.traceRun t u () t' v) :
    ∃ w, w.Alike (s.armedAt t.options.points.entry.pc).begun.startMultiplication ∧ w.Coherent ∧
      Recording.Returns bus (d.followAndRelease s.shown) (t.opened (s.size % 2 ^ 16) s.shown) w ()
        t' v := by
  obtain ⟨w, hw, hwc, hsame⟩ := leads_armed h t u hu hcoherent
  have hrest : Recording.Returns bus (d.startAndFollow s.shown) _ w () t' v :=
    (hsame _ _ _).mp hreturns
  simp only [startAndFollow, Recording.returns_bind, Recording.returns_lift,
    Recording.returns_procedure] at hrest
  obtain ⟨_, _, x, ⟨rfl, hwait⟩, _, _, y, ⟨rfl, hwrite⟩, hfollow⟩ := hrest
  have hx := (waitIdle_only hwait).1.trans hw
  have hstart := does_start (d := d) (s := s.armedAt t.options.points.entry.pc) h.resting
  exact ⟨y, (hstart.only x () y hx ((returns_lift _ _ _ _).mpr hwrite)).2,
    Ends.coherent hwrite (Ends.coherent hwait hwc), hfollow⟩

/-! ### Following the run -/

variable {passed rest : List Position} {p : Position} {result : Point} {hit : Option Nat}

/-- A run that has halted at the entry is stepped through. -/
theorem leads_followRun (h : Stepping d s) (layout : LimbLayout) (passed rest : List Position)
    (result : Point) (hit : Option Nat) {t : Trace} (hentry : p.spot = t.options.points.entry) :
    Leads State.Coherent (d.followRun layout) t (s.haltedAt ⟨p :: passed, rest, result⟩ hit)
      (d.stepOpcodes layout d.fuel) t (s.haltedAt ⟨p :: passed, rest, result⟩ hit) := by
  have hspot := Sequencer.spot_statusWord (last_haltedAt h passed rest p result hit)
  rw [followRun]
  refine ((Records.lift (does_look h)).leads _).trans (Records.get.leads _ |>.trans ?_)
  simp only [hspot, if_pos hentry]
  exact .refl

/-- A run that has halted elsewhere is not followed. -/
theorem followRun_only (h : Stepping d s) (layout : LimbLayout) {t t' : Trace} {u v : State}
    (hu : u.Alike (s.haltedAt ⟨p :: passed, rest, result⟩ hit))
    (hreturns : Recording.Returns bus (d.followRun layout) t u () t' v) :
    p.spot = t.options.points.entry := by
  have hspot := Sequencer.spot_statusWord (last_haltedAt h passed rest p result hit)
  simp only [followRun, Recording.returns_bind, Recording.returns_lift] at hreturns
  obtain ⟨halted, _, w, ⟨rfl, hwait⟩, hrest⟩ := hreturns
  obtain ⟨rfl, -⟩ := (does_look h).only _ _ _ hu hwait
  simp only [hspot, Recording.returns_bind, Recording.returns_get] at hrest
  obtain ⟨_, _, _, ⟨rfl, rfl, rfl⟩, hrest⟩ := hrest
  by_contra hentry
  rw [if_neg hentry] at hrest
  exact Recording.not_returns_bind_throw _ _ _ _ _ _ _ hrest

/-- A multiplication that is over, or was never started, is not followed. -/
theorem not_returns_followRun (hwait : Does State.Coherent d.waitHaltedOrOver s none s)
    (layout : LimbLayout) {t t' : Trace} {u v : State} (hu : u.Alike s) :
    ¬ Recording.Returns bus (d.followRun layout) t u () t' v := by
  intro hreturns
  simp only [followRun, Recording.returns_bind, Recording.returns_lift] at hreturns
  obtain ⟨halted, _, w, ⟨rfl, hlook⟩, hrest⟩ := hreturns
  obtain ⟨rfl, -⟩ := hwait.only _ _ _ hu hlook
  exact Recording.not_returns_bind_throw _ _ _ _ _ _ _ hrest

/-- An engine that has refused to start is neither halted nor multiplying. -/
theorem does_lookIdle (h : DebugIdle d s) :
    Does State.Coherent d.waitHaltedOrOver s none s := by
  have hwait := does_waitHaltedOrOver h.debug h.attentive (.inr h.resting)
  rwa [h.isHalted, if_neg (by decide)] at hwait

/-- The error with which the engine refused to start is thrown. -/
theorem followRun_throws (h : DebugIdle d s) (hpatient : max s.params.latency 3 < d.checks)
    (herrors : s.errors ≠ 0) (layout : LimbLayout) (t : Trace) {u : State} (hu : u.Alike s)
    (hcoherent : u.Coherent) :
    ∃ v, Recording.Throws bus (d.followRun layout) t u (.hardware s.errors) t v ∧ v.Coherent ∧
      v.Alike (acknowledged s) := by
  have hwait := does_lookIdle h
  obtain ⟨w, hlook, hw⟩ := hwait.returns u hu hcoherent
  have hlike := (hwait.only _ _ _ hu hlook).2
  have hsame : w.errors = s.errors := hlike.field State.errors fun _ => rfl
  have hwaits : Awaitable d w :=
    ⟨hw, (hlike.field State.multiplying fun _ => rfl).trans h.resting,
      (hlike.field State.params fun _ => rfl).symm ▸ hpatient⟩
  obtain ⟨v, hsettle, hv, hacknowledged⟩ := settle_throws hwaits (by rwa [hsame])
  rw [hsame] at hsettle
  refine ⟨v, ?_, hv, hacknowledged.trans (hlike.apply (f := acknowledged) fun _ => rfl)⟩
  have hlooked : Recording.Returns bus (liftM d.waitHaltedOrOver) t u none t w :=
    .lift hlook _
  have hthrown : Recording.Throws bus (liftM d.settle) t w (.hardware s.errors) t v :=
    .lift hsettle _
  rw [followRun]
  exact hlooked.throws hthrown.bind

/-! ### Following and releasing -/

/-- What a traced run is made of, once it has been started. -/
theorem followAndRelease_on (layout : LimbLayout) (t : Trace) :
    (d.followAndRelease layout).on t = (d.followRun layout).on t >>= fun x =>
      d.release.run >>= fun released => notify (.tracedDone x.2.stepCount) >>= fun _ =>
        pure (x.1.bind fun _ => released, x.2) := by
  have hrelease (q : Trace) : (liftM d.release : Tracing Unit).on q =
      d.release.run >>= fun x => pure (x, q) := rfl
  rw [followAndRelease, Recording.on_attempt_bind]
  congr 1
  funext x
  rw [Recording.on_attempt_bind, hrelease, LawfulMonad.bind_assoc]
  congr 1
  funext released
  obtain ⟨stepped, q⟩ := x
  cases stepped <;> cases released <;> rfl

/-- The multiplication is released however following it has ended, and a failure to follow
it is thrown before a failure to release it. -/
theorem ends_followAndRelease (layout : LimbLayout) (t t' : Trace) (u v : State)
    (x : Except DriverError Unit) :
    Ends bus ((d.followAndRelease layout).on t) u (x, t') v ↔
      ∃ stepped released w, Ends bus ((d.followRun layout).on t) u (stepped, t') w ∧
        Ends bus d.release.run w released v ∧ x = stepped.bind fun _ => released := by
  have htail (stepped released : Except DriverError Unit) (q : Trace) (w : State) :
      Ends bus ((do ofExcept stepped; ofExcept released : Tracing Unit).on q) w (x, t') v ↔
        x = (stepped.bind fun _ => released) ∧ t' = q ∧ v = w := by
    cases stepped with
    | ok _ => exact Recording.ends_on_ofExcept x released q t' w v
    | error e => exact Recording.ends_on_ofExcept x (.error e) q t' w v
  constructor
  · intro h
    obtain ⟨stepped, t₁, w, hfollow, h⟩ | ⟨e, hthrows, -⟩ := (Recording.ends_on_bind ..).mp h
    swap
    · exact absurd hthrows (Recording.not_throws_attempt _ _ _ _ _ _)
    obtain ⟨released, t₂, w₂, hrelease, h⟩ | ⟨e, hthrows, -⟩ := (Recording.ends_on_bind ..).mp h
    swap
    · exact absurd hthrows (Recording.not_throws_attempt _ _ _ _ _ _)
    obtain ⟨_, t₃, w₃, hget, h⟩ | ⟨e, hthrows, -⟩ := (Recording.ends_on_bind ..).mp h
    swap
    · exact absurd hthrows (Recording.not_throws_get _ _ _ _ _)
    obtain ⟨_, t₄, w₄, hnotify, h⟩ | ⟨e, hthrows, -⟩ := (Recording.ends_on_bind ..).mp h
    swap
    · exact absurd hthrows (Recording.not_throws_procedure _ _ _ _ _ _)
    obtain ⟨hrecord, hreleased⟩ :=
      (Recording.ends_on_lift ..).mp ((Recording.returns_attempt ..).mp hrelease)
    obtain ⟨-, rfl, rfl⟩ := (Recording.returns_get ..).mp hget
    obtain ⟨rfl, hheard⟩ := (Recording.returns_procedure ..).mp hnotify
    obtain rfl := (ends_notify ..).mp hheard
    obtain ⟨hx, rfl, rfl⟩ := (htail ..).mp h
    subst hrecord
    exact ⟨stepped, released, w, (Recording.returns_attempt ..).mp hfollow, hreleased, hx⟩
  · rintro ⟨stepped, released, w, hfollow, hrelease, hx⟩
    have hreleased := (Recording.ends_on_lift d.release t' t' w v released).mpr ⟨rfl, hrelease⟩
    have hend := (htail stepped released t' v).mpr ⟨hx, rfl, rfl⟩
    refine (Recording.ends_on_bind ..).mpr
      (.inl ⟨stepped, t', w, (Recording.returns_attempt ..).mpr hfollow, ?_⟩)
    refine (Recording.ends_on_bind ..).mpr
      (.inl ⟨released, t', v, (Recording.returns_attempt ..).mpr hreleased, ?_⟩)
    refine (Recording.ends_on_bind ..).mpr
      (.inl ⟨t', t', v, (Recording.returns_get ..).mpr ⟨rfl, rfl, rfl⟩, ?_⟩)
    exact (Recording.ends_on_bind ..).mpr
      (.inl ⟨(), t', v, (Recording.returns_procedure ..).mpr ⟨rfl, (ends_notify ..).mpr rfl⟩, hend⟩)

/-- Following and releasing both have to return. -/
theorem returns_followAndRelease (layout : LimbLayout) (t t' : Trace) (u v : State) :
    Recording.Returns bus (d.followAndRelease layout) t u () t' v ↔
      ∃ w, Recording.Returns bus (d.followRun layout) t u () t' w ∧
        Returns bus d.release w () v := by
  refine (ends_followAndRelease layout t t' u v (.ok ())).trans ⟨?_, ?_⟩
  · rintro ⟨stepped, released, w, hfollow, hrelease, hx⟩
    cases stepped with
    | error e => cases hx
    | ok _ =>
      cases hx
      exact ⟨w, hfollow, hrelease⟩
  · rintro ⟨w, hfollow, hrelease⟩
    exact ⟨.ok (), .ok (), w, hfollow, hrelease, rfl⟩

/-- A failure to follow the run is thrown when the multiplication has been released. -/
theorem throws_followAndRelease {layout : LimbLayout} {t t' : Trace} {u v w : State}
    {error : DriverError} {released : Except DriverError Unit}
    (hfollow : Recording.Throws bus (d.followRun layout) t u error t' w)
    (hrelease : Ends bus d.release.run w released v) :
    Recording.Throws bus (d.followAndRelease layout) t u error t' v :=
  (ends_followAndRelease layout t t' u v _).mpr ⟨_, released, w, hfollow, hrelease, rfl⟩

/-- A run that has been followed and released is over, and its trace has what was seen on
the way. -/
theorem followAndRelease_only (h : Traceable d s) {address : UInt32} {layout : LimbLayout}
    {t t' : Trace} {u v : State} (hcoherent : u.Coherent)
    (hu : u.Alike ((s.launchedBehind address).haltedAt ⟨p :: passed, rest, result⟩ hit))
    (hreturns : Recording.Returns bus (d.followAndRelease layout) t u () t' v) :
    ∃ before q rest', rest = before ++ q :: rest' ∧
      (∀ a ∈ before, a.spot ≠ t.options.points.last) ∧ q.spot = t.options.points.last ∧
      t' = t.follow s.limbLayout layout (before ++ [q])
        (State.memoryAfter s.limbLayout (p :: passed) s.fp) ∧
      v.Alike (s.disarmed.begun.launched.after
        ⟨rest.reverse ++ p :: passed, [], result⟩).finish := by
  have hstepping := h.stepping address
  obtain ⟨w, hfollow, hrelease⟩ := (returns_followAndRelease _ _ _ _ _).mp hreturns
  have hentry := followRun_only hstepping layout hu hfollow
  obtain ⟨x, hx, hxc, hsame⟩ := leads_followRun hstepping layout passed rest result hit hentry u hu
    hcoherent
  obtain ⟨before, q, rest', hit', rfl, hbefore, hq, ht', hw⟩ :=
    stepOpcodes_only hstepping layout hxc hx ((hsame _ _ _).mp hfollow)
  rw [State.limbLayout_launchedBehind, State.fp_launchedBehind] at ht'
  refine ⟨before, q, rest', rfl, hbefore, hq, ht', ?_⟩
  have hv := release_only h.debug h.unarmed hw hrelease
  rwa [show rest'.reverse ++ q :: (before.reverse ++ p :: passed) =
    (before ++ q :: rest').reverse ++ p :: passed by simp] at hv

/-- A traced run that returns was started, and ends as if it had not been traced. -/
theorem traceRun_only (h : Traceable d s) {t t' : Trace} {u v : State} (hcoherent : u.Coherent)
    (hu : u.Alike s) (hreturns : Recording.Returns bus d.traceRun t u () t' v) :
    s.curve.contains s.pointR1 = true ∧ v.Alike s.disarmed.begun.finished := by
  obtain ⟨w, hw, hwc, hrest⟩ := traceRun_starts h.legible hcoherent hu hreturns
  obtain ⟨x, hfollow, -⟩ := (returns_followAndRelease _ _ _ _ _).mp hrest
  generalize t.options.points.entry.pc = address at hw
  have hon : s.curve.contains s.pointR1 = true := by
    cases hon : s.curve.contains s.pointR1 with
    | true => rfl
    | false =>
      rw [State.startMultiplication_refused (s := (s.armedAt address).begun) hon] at hw
      exact absurd hfollow (not_returns_followRun (does_lookIdle (h.armedAt address).refused) _ hw)
  refine ⟨hon, ?_⟩
  rw [State.startMultiplication_behind hon h.idle] at hw
  rcases State.walk_stops (s.launchedBehind address) []
    (LadderRun.start s.disarmed.begun.inputs).pending
    (LadderRun.start s.disarmed.begun.inputs).result
    (if s.sequencer.haltPending then some 1 else none) with
    hfinish | ⟨ran, p, rest, hit, hpending, hhalt⟩
  · rw [hfinish] at hw
    exact absurd hfollow
      (not_returns_followRun (does_lookOver (h.stepping address)) _ hw)
  · rw [hhalt] at hw
    obtain ⟨before, q, rest', -, -, -, -, hv⟩ :=
      followAndRelease_only h hwc hw hrest
    rwa [show rest.reverse ++ p :: (ran.reverse ++ []) = (ran ++ p :: rest).reverse by simp,
      ← hpending] at hv

/-- A run whose first opcode is the entry halts there. -/
theorem leads_entry (h : Traceable d s) (hpatient : max s.params.latency 3 < d.checks)
    (hon : s.curve.contains s.pointR1 = true) {t : Trace}
    (hpending : (LadderRun.start s.disarmed.begun.inputs).pending = p :: rest)
    (hpc : (t.options.points.entry.pc &&& Register.Breakpoint.address.mask).toNat = p.pc) :
    Leads State.Coherent d.traceRun t s (d.followAndRelease s.shown)
      (t.opened (s.size % 2 ^ 16) s.shown)
      ((s.launchedBehind t.options.points.entry.pc).haltedAt
        ⟨[p], rest, (LadderRun.start s.disarmed.begun.inputs).result⟩ (some 0)) := by
  rw [← State.startMultiplication_entry hon h.idle hpending hpc]
  exact leads_traceRun h.legible hpatient t

/-- A traced run that can get from its entry to its last spot does so and returns. -/
theorem traceRun_returns (h : Traceable d s) (hpatient : max s.params.latency 3 < d.checks)
    (hon : s.curve.contains s.pointR1 = true) {t : Trace}
    {before rest' : List Position} {q : Position}
    (hpending : (LadderRun.start s.disarmed.begun.inputs).pending = p :: (before ++ q :: rest'))
    (hpc : (t.options.points.entry.pc &&& Register.Breakpoint.address.mask).toNat = p.pc)
    (hentry : p.spot = t.options.points.entry)
    (hbefore : ∀ a ∈ before, a.spot ≠ t.options.points.last) (hq : q.spot = t.options.points.last)
    (hunlimited : t.options.maxSteps = none) (hfuel : before.length < d.fuel) {u : State}
    (hcoherent : u.Coherent) (hu : u.Alike s) :
    ∃ t' v, Recording.Returns bus d.traceRun t u () t' v ∧ v.Coherent := by
  have hstepping := h.stepping t.options.points.entry.pc
  obtain ⟨w, hw, hwc, hsame⟩ := leads_entry h hpatient hon hpending hpc u hu hcoherent
  have hentered := leads_followRun hstepping s.shown [] (before ++ q :: rest')
    (LadderRun.start s.disarmed.begun.inputs).result (some 0)
    (t := t.opened (s.size % 2 ^ 16) s.shown) hentry
  have hstepped := leads_stepOpcodes hstepping s.shown [p] rest'
    (LadderRun.start s.disarmed.begun.inputs).result (some 0) (t.opened (s.size % 2 ^ 16) s.shown)
    hunlimited hbefore hq hfuel
  obtain ⟨x, hx, hxc, hfollow⟩ := (hentered.trans hstepped) w hw hwc
  obtain ⟨v, hrelease, hv⟩ := (does_release h.debug h.clear hpatient h.unarmed).returns x hx hxc
  have hfollowed := (hfollow _ _ _).mpr ((Recording.returns_pure () () _ _ x x).mpr ⟨rfl, rfl, rfl⟩)
  exact ⟨_, v, (hsame _ _ _).mpr ((returns_followAndRelease _ _ _ _ _).mpr ⟨x, hfollowed, hrelease⟩),
    hv⟩

/-- Releasing an engine that is not halted does not set it going. -/
theorem does_releaseIdle (h : DebugIdle d s) (hpatient : max s.params.latency 3 < d.checks)
    (hclear : s.errors = 0) :
    Does State.Coherent d.release s ()
      (s.withBreakpoints (s.sequencer.breakpoints.setIfInBounds 0 none)) := by
  generalize hbreakpoints : s.sequencer.breakpoints.setIfInBounds 0 none = bs
  have hidle : DebugIdle d (s.withBreakpoints bs) := h.frame rfl
  have hstep : (s.withBreakpoints bs).step (Steps.resume.put true 0) = s.withBreakpoints bs := by
    rw [State.step, hidle.isHalted]
    rfl
  have hremove := does_removeBreakpoint (d := d) h.debug
  have hresume := does_resume (d := d) hidle.debug
  rw [hbreakpoints] at hremove
  rw [hstep] at hresume
  exact hremove.bind
    (hresume.bind ((does_settle _).coherent hidle.resting hclear hpatient))

/-- A traced run that is refused throws the error of the engine. -/
theorem traceRun_throws (h : Traceable d s) (hpatient : max s.params.latency 3 < d.checks)
    (hoff : s.curve.contains s.pointR1 = false)
    (t : Trace) {u : State} (hcoherent : u.Coherent) (hu : u.Alike s) :
    ∃ t' v, Recording.Throws bus d.traceRun t u (.hardware HardwareError.inputNotOnCurve.mask) t'
      v := by
  obtain ⟨w, hw, hwc, hsame⟩ := leads_traceRun h.legible hpatient t u hu hcoherent
  rw [State.startMultiplication_refused (s := (s.armedAt t.options.points.entry.pc).begun) hoff]
    at hw
  have hidle := (h.armedAt t.options.points.entry.pc).refused
  have hpatient' : max ((s.armedAt t.options.points.entry.pc).begun.latch
      .inputNotOnCurve).params.latency 3 < d.checks := hpatient
  have herrors : ((s.armedAt t.options.points.entry.pc).begun.latch .inputNotOnCurve).errors =
      HardwareError.inputNotOnCurve.mask := by
    show s.errors ||| _ = _
    rw [h.clear, UInt32.zero_or]
  generalize (s.armedAt t.options.points.entry.pc).begun.latch .inputNotOnCurve = refused
    at hw hidle hpatient' herrors
  obtain ⟨x, hfollow, hxc, hx⟩ := followRun_throws hidle hpatient' (by rw [herrors]; decide) s.shown
    (t.opened (s.size % 2 ^ 16) s.shown) hw hwc
  have hacknowledged : (acknowledged refused).errors = 0 := by
    rw [acknowledged, herrors]
    rfl
  have hstill : DebugIdle d (acknowledged refused) := hidle.frame rfl
  obtain ⟨v, hrelease, -⟩ := (does_releaseIdle hstill hpatient' hacknowledged).returns x hx hxc
  rw [herrors] at hfollow
  exact ⟨_, v, (hsame _ _ _).mpr (throws_followAndRelease hfollow hrelease)⟩

end Driver

end CurveEngine
