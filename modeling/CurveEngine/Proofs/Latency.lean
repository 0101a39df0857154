import CurveEngine.Proofs.Pacing
import CurveEngine.Proofs.Unprovoked

/-! No session tells the latency of an engine.

A driver waits before it looks, so that it finds engines of different latencies level. Two calls
are the exception: the one that hands out the status word as it is, and the one that hands out the
counts of waiting random numbers, which a status word may have filled on one engine and not yet on
the other. What any other call answers is the same (`session_latency`), by the grammar of what a
driver does: between the steps of a call the engines keep pace, and inside a traced multiplication
they are near until it is over. -/
namespace CurveEngine
open Register Procedure Device

namespace Device.State

/-- Near states that are level, or, after a hasty look at the status, one of which is still busy. -/
structure Apace (hasty : Bool) (s t : State) : Prop where
  near : s.Near t
  level : s.Level t ∨ hasty = true ∧ (0 < s.busy ∨ 0 < t.busy)

variable {hasty : Bool} {s t : State}

theorem Level.apace (h : s.Level t) : s.Apace hasty t := ⟨h.near, .inl h⟩

theorem Apace.readSource {r : Source} (hr : r.isPlain = true) (h : s.Apace hasty t) :
    (s.readSource r).2.Apace hasty (t.readSource r).2 := by
  have hstatus := Source.ne_status_of_isPlain hr
  have hbusy (u : State) : (u.readSource r).2.busy = u.busy := by
    cases r with
    | status | readData | waiting => cases hr
    | _ => rfl
  refine ⟨(h.near.readSource hr).2, ?_⟩
  rw [hbusy, hbusy]
  refine h.level.imp_left fun hlevel => ?_
  have hs := untimed_readSource hstatus s
  rw [show s.untimed = t.untimed from hlevel, untimed_readSource hstatus t] at hs
  exact (congrArg Prod.snd hs).symm

theorem Apace.writeSink {r : Sink} (hr : r.isFree = true) (hs : s.Coherent) (ht : t.Coherent)
    (h : s.Apace hasty t) (value : UInt64) :
    (s.writeSink r value).Apace hasty (t.writeSink r value) := by
  have hcontrol := Sink.ne_control_of_isFree hr
  refine ⟨h.near.writeSink hr hs ht value, ?_⟩
  have hlevel (hlevel : s.Level t) : (s.writeSink r value).Level (t.writeSink r value) :=
    untimed_writeSink hlevel r value fun h => absurd h hcontrol
  rcases h.level with hsame | hbusy
  · exact .inl (hlevel hsame)
  · cases hrunning : s.multiplying with
    | true => exact .inl (hlevel (h.near.running hrunning))
    | false =>
      have hresting : t.multiplying = false := h.near.multiplying_eq.symm.trans hrunning
      rw [(refilled_writeSink hr hs hrunning value).2, (refilled_writeSink hr ht hresting value).2]
      exact .inr hbusy

/-- After a look at the status of engines that are no longer busy these are level. -/
theorem Near.look (h : s.Near t) : s.readStatus.2.Apace true t.readStatus.2 := by
  have hnear : s.readStatus.2.Near t.readStatus.2 :=
    s.near_readStatus.trans (h.trans t.near_readStatus.symm)
  refine ⟨hnear, ?_⟩
  cases hrunning : s.multiplying with
  | true => exact .inl (hnear.running hrunning)
  | false =>
    have hresting : t.multiplying = false := h.multiplying_eq.symm.trans hrunning
    have hfull {u : State} (hu : u.multiplying = false) (hidle : ¬ 0 < u.readStatus.2.busy) :
        u.readStatus.2.trng.waiting = Trng.depths := by
      have hzero : (u.busy - 1 == 0) = true := beq_iff_eq.mpr (Nat.eq_zero_of_not_pos hidle)
      simp only [readStatus, hu, hzero, Bool.not_false, Bool.and_true, if_true]
      rfl
    by_cases hbusy : 0 < s.readStatus.2.busy ∨ 0 < t.readStatus.2.busy
    · exact .inr ⟨rfl, hbusy⟩
    · rw [not_or] at hbusy
      exact .inl (hnear.level (hfull hrunning hbusy.1) (hfull hresting hbusy.2))

/-- What lasts of the status is the same on near engines. -/
theorem Near.lasting {α : Type} {f : UInt32 → α} (hf : Lasting f) (h : s.Near t) :
    f t.readStatus.1 = f s.readStatus.1 := by
  obtain ⟨g, hg⟩ := hf
  rw [hg, hg]
  simp only [multiplying_readStatus, yes_readStatus, r0Null_readStatus, r1Null_readStatus]
  rw [h.multiplying_eq, h.field State.yes fun _ => rfl,
    h.field State.r0Null fun _ => rfl, h.field State.r1Null fun _ => rfl]

end Device.State

/-! ### What a caller may count on -/

/-- An answer without its reply. -/
def Answer.blank (answer : Answer) : Answer :=
  { answer with result := answer.result.map fun _ => .done }

namespace Call

/-- Whether a call looks at the status and does not wait for the engine. -/
def isHasty : Call → Bool
  | .status => true
  | _ => false

/-- What a caller may count on in an answer whatever the latency of the engine: in no status word,
nor in counts of waiting random numbers after a hasty look at a busy engine. -/
def lasting (hasty : Bool) (call : Call) (answer : Answer) : Answer :=
  match call with
  | .status => answer.blank
  | .waitingCounts => if hasty then answer.blank else answer
  | _ => answer

end Call

namespace Driver
variable {α : Type} {d : Driver} {hasty : Bool} {s t : State}

/-- A session that shows no difference between two engines: calls are answered alike, and leave
engines that look alike from outside. `hasty` says that there has been a hasty look at the status
since, and that one of the engines is still busy. -/
def Indistinct (d : Driver) : Bool → List Call → State → State → Prop
  | _, [], s, t => s.view = t.view
  | hasty, call :: rest, s, t => s.view = t.view ∧
      Accords
        (fun u v => d.Indistinct ((hasty || call.isHasty) && (0 < u.busy || 0 < v.busy)) rest u v)
        (do let answer ← call.perform d; pure (call.lasting hasty answer)) s t

/-! ### The discipline -/

/-- How engines of different latencies are related between the steps of a scope. -/
def InPace (hasty : Bool) : Scope → State → State → Prop
  | .calling call, s, t => call.isHasty = false ∧ (call = .waitingCounts → hasty = false) ∧
      s.Apace hasty t
  | .following, s, t => s.Near t
  | .transferring, _, _ => False

theorem InPace.near {scope : Scope} (h : InPace hasty scope s t) : s.Near t := by
  cases scope with
  | calling call => exact h.2.2.near
  | following => exact h
  | transferring => exact h.elim

/-- What a call does in the end brings its engines level. -/
theorem InPace.levels {call : Call} {p : Procedure α}
    (h : d.Tended (InPace hasty (.calling call)) s t)
    (hp : d.Tended State.Near s t → Accords (d.Tended State.Level) p s t) :
    Accords (d.Tended (InPace hasty (.calling call))) p s t :=
  (hp (h.mono InPace.near)).mono fun _ _ huv =>
    huv.mono fun hlevel => ⟨h.related.1, h.related.2.1, hlevel.apace⟩

theorem accords_read {scope : Scope} {r : Source} (hr : scope.Reads r)
    (h : d.Tended (InPace hasty scope) s t) :
    Accords (d.Tended (InPace hasty scope)) (d.read r) s t := by
  have hread (hword : (t.readSource r).1 = (s.readSource r).1)
      (hnext : InPace hasty scope (s.readSource r).2 (t.readSource r).2) :
      Accords (d.Tended (InPace hasty scope)) (d.read r) s t :=
    h.accords (.of_ends ((d.ends_read r _).mpr ⟨rfl, rfl⟩)
      ((d.ends_read r _).mpr ⟨by rw [hword], rfl⟩) hnext)
  have hplain (hr : r.isPlain = true) : (t.readSource r).1 = (s.readSource r).1 :=
    (h.related.near.readSource hr).1.symm
  cases scope with
  | calling call =>
    obtain ⟨hhasty, hcounts, hpace⟩ := h.related
    rcases hr with hr | ⟨rfl, -⟩ | ⟨hcall, channel, rfl⟩
    · exact hread (hplain hr) ⟨hhasty, hcounts, hpace.readSource hr⟩
    · cases hhasty
    · have hlevel : s.Level t := hpace.level.resolve_right fun hbusy => by
        cases hbusy.1.symm.trans (hcounts hcall)
      have hwaiting (u : State) : u.untimed.readSource (.waiting channel) =
          ((u.readSource (.waiting channel)).1, u.untimed) := rfl
      have hs := hwaiting s
      rw [show s.untimed = t.untimed from hlevel, hwaiting t] at hs
      exact hread (Prod.mk.inj hs).1 ⟨hhasty, hcounts, hpace⟩
  | following => exact hread (hplain hr) (State.Near.readSource hr h.related).2
  | transferring => exact h.related.elim

theorem accords_writeFree {scope : Scope} {r : Sink} (hr : r.isFree = true) (word : UInt32)
    (h : d.Tended (InPace hasty scope) s t) :
    Accords (d.Tended (InPace hasty scope)) (d.write r word) s t := by
  have hs := h.left.coherent
  have ht := h.right.coherent
  refine h.accords (.of_ends ((d.ends_write r word ()).mpr rfl) ((d.ends_write r word ()).mpr rfl) ?_)
  cases scope with
  | calling call =>
    obtain ⟨hhasty, hcounts, hpace⟩ := h.related
    exact ⟨hhasty, hcounts, hpace.writeSink hr hs ht _⟩
  | following => exact State.Near.writeSink hr hs ht h.related _
  | transferring => exact h.related.elim

/-- No call settles the opening of a transfer. -/
theorem not_opensScalar_of_settles {call : Call} {r : Sink} {word : UInt32}
    (h : call.Settles word r) (hr : r = .control) : ¬ State.OpensScalar word := by
  subst hr
  obtain ⟨-, operation, -, rfl⟩ := h
  cases operation <;> exact fun ho => absurd ho.1 (by decide)

theorem accords_rest {call : Call} {op : Operation Unit} (hop : d.Resting call op)
    (h : d.Tended State.Near s t) : Accords (d.Tended State.Level) op.run s t := by
  cases hop with
  | waitIdle => exact accords_waitIdle h
  | writeSettled hsettles =>
    exact accords_writeSettled h fun hr ho => absurd ho (not_opensScalar_of_settles hsettles hr)

/-- What leaves an engine idle leaves it at rest. -/
theorem Resting.rested {call : Call} {op : Operation Unit} (hop : d.Resting call op)
    (h : Operation.Returns bus op s () t) : t.Rested ∧ t.multiplying = false := by
  cases hop with
  | waitIdle =>
    exact ⟨(rested_of_waitIdle h).1, (waitIdle_near h).multiplying_eq.trans (waitIdle_only h).2.2⟩
  | writeSettled =>
    obtain ⟨_, -, -, -, -, hsettle, -, hresting, -⟩ := writeSettled_only h
    exact ⟨(rested_of_settle hsettle).1, hresting⟩

/-- A look at the status of near engines, for what lasts of it. -/
theorem accords_look {f : UInt32 → α} (hf : Lasting f) (h : d.Tended State.Near s t) :
    Accords (d.Tended fun u v => u = s.readStatus.2 ∧ v = t.readStatus.2)
      (do let word ← d.status; pure (f word)) s t := by
  have hlook (u : State) : Ends bus d.status u u.readStatus.1 u.readStatus.2 :=
    (ends_status _ _).mpr ⟨rfl, rfl⟩
  refine h.accords (Accords.of_ends_bind (hlook s) (hlook t) ?_ (.pure _ ⟨rfl, rfl⟩))
  rw [h.related.lasting hf]

/-- A look at the status of engines that have been left idle keeps them level. -/
theorem accords_lookRested {f : UInt32 → α} (hf : Lasting f) (h : d.Tended State.Level s t)
    (hs : s.Rested ∧ s.multiplying = false) (ht : t.Rested ∧ t.multiplying = false) :
    Accords (d.Tended State.Level) (do let word ← d.status; pure (f word) : Operation α).run s t := by
  obtain ⟨g, hg⟩ := hf
  have hok : Lasting fun word => (Except.ok (f word) : Except DriverError α) :=
    ⟨fun multiplying yes r0Null r1Null => .ok (g multiplying yes r0Null r1Null),
      fun word => congrArg Except.ok (hg word)⟩
  rw [Operation.run_lift_bind]
  refine (accords_look hok h.near).mono fun u v huv => huv.mono ?_
  rintro ⟨rfl, rfl⟩
  have hfull {u : State} (hu : u.Rested ∧ u.multiplying = false) :
      u.readStatus.2.trng.waiting = Trng.depths :=
    (State.rested_readStatus hu.1.busy hu.1.init hu.2).waiting
  exact (State.Near.look h.near.related).near.level (hfull hs) (hfull ht)

theorem accords_of_disciplined {scope : Scope} {failure : α → Option DriverError} {p : Procedure α}
    (h : Disciplined d scope failure p) (hs : d.Tended (InPace hasty scope) s t) :
    Accords (d.Tended (InPace hasty scope)) p s t := by
  induction h generalizing s t with
  | done a => exact .pure a hs
  | spent => exact .spent
  | notify notice => exact .notify notice hs
  | read h => exact accords_read h hs
  | write h => exact accords_writeFree h _ hs
  | rest h => exact InPace.levels hs (accords_rest h)
  | look h hf =>
    exact InPace.levels hs fun hnear => (accords_rest h hnear).operation fun _ _ _ hu hv huv =>
      accords_lookRested hf huv (h.rested hu) (h.rested hv)
  | @glance scope hscope _ f hf =>
    cases scope with
    | calling call => cases hscope
    | following =>
      refine (accords_look (hf rfl) hs).mono fun u v huv => huv.mono ?_
      rintro ⟨rfl, rfl⟩
      exact (State.Near.look hs.related).near
    | transferring => exact hs.related.elim
  | settle => exact (accords_settle hs).mono fun _ _ huv => huv.near
  | enclosed => exact hs.related.elim
  | transmit destination words => exact InPace.levels hs fun h => accords_transmit h destination words
  | receive h count received => exact InPace.levels hs (accords_receive h count received)
  | @entropy call r h word =>
    refine InPace.levels hs fun hnear => (accords_waitIdle hnear).operation fun _ u v _ _ huv => ?_
    have hcontrol : r ≠ .control := by
      rintro rfl
      rcases h with h | h <;> cases h
    exact (accords_write huv fun hr => absurd hr hcontrol).lift fun _ u v _ _ huv =>
      accords_waitIdle huv.near
  | pursue h address layout t arm follow release iharm ihfollow =>
    -- A production engine would not have taken the breakpoint, so the run can be let go, and it
    -- is the release that brings the engines level again.
    refine (iharm hs).recording fun _ u v hu _ huv => InPace.levels huv fun hnear => ?_
    have hdebug : u.params.debug = true := by
      rw [Ends.params hu]
      exact debug_of_returns hu
    exact accords_startAndFollow hnear hdebug fun u v huv => ihfollow huv
  | @bind scope _ _ failure failure' p f _ _ fails ih ihf =>
    refine (ih hs).bind fun a u v _ _ huv => ?_
    cases hfailure : failure a with
    | none => exact ihf a hfailure huv
    | some e =>
      obtain ⟨b, hb, -⟩ := fails a e hfailure
      rw [hb]
      exact .pure b huv

/-! ### Calls -/

/-- The counts are handed out by debug engines, and refused by others. -/
theorem waitingCounts_ends (d : Driver) (s : State) :
    ∃ answer, Ends bus (Call.waitingCounts.perform d) s answer s ∧
      answer.blank = { result := if s.params.debug then .ok .done else .error .debugOnly } := by
  cases hdebug : s.params.debug with
  | false =>
    have hrefused : Operation.Throws bus d.waitingCounts s .debugOnly s :=
      (ensureDebug_throws hdebug).bind
    exact ⟨_, (ends_bind _ _ _ _ _).mpr ⟨_, s, hrefused, (ends_pure _ _ _ _).mpr ⟨rfl, rfl⟩⟩, rfl⟩
  | true =>
    have hcount (channel : Channel) :
        Operation.Returns bus (liftM (d.read (.waiting channel)) : Operation UInt32) s
          (s.readSource (.waiting channel)).1.toUInt32 s :=
      (Operation.returns_lift _ _ _ _).mpr ((d.ends_read (.waiting channel) _).mpr ⟨rfl, rfl⟩)
    have hcounts : ∃ counts, Operation.Returns bus d.waitingCounts s counts s := by
      simp only [waitingCounts, Operation.returns_bind]
      exact ⟨_, (), s, (returns_ensureDebug hdebug s).mpr rfl, _, s, hcount .axi, _, s, hcount .efp,
        _, s, hcount .crv, _, s, hcount .shf, (Operation.returns_pure _ _ _ _).mpr ⟨rfl, rfl⟩⟩
    obtain ⟨counts, hcounts⟩ := hcounts
    exact ⟨_, (ends_bind _ _ _ _ _).mpr ⟨_, s, hcounts, (ends_pure _ _ _ _).mpr ⟨rfl, rfl⟩⟩, rfl⟩

/-- Every call is answered alike, and leaves its engines in pace. -/
theorem perform_accords (call : Call) (h : d.Tended (State.Apace hasty) s t) :
    Accords (d.Tended (State.Apace (hasty || call.isHasty)))
      (do let answer ← call.perform d; pure (call.lasting hasty answer)) s t := by
  have hdisciplined (hlook : call.isHasty = false) (hcounts : call = .waitingCounts → hasty = false)
      (hlasting : call.lasting hasty = id) :
      Accords (d.Tended (State.Apace (hasty || call.isHasty)))
        (do let answer ← call.perform d; pure (call.lasting hasty answer)) s t := by
    have hperform := accords_of_disciplined (perform_disciplined d call)
      (h.mono fun hpace => (⟨hlook, hcounts, hpace⟩ : InPace hasty (.calling call) s t))
    rw [hlook, Bool.or_false, hlasting]
    exact hperform.bind fun answer _ _ _ _ huv => .pure answer (huv.mono fun hpace => hpace.2.2)
  cases call with
  | status =>
    have hlook (u : State) : Ends bus
        (do let answer ← Call.status.perform d; pure (Call.status.lasting hasty answer)) u
        { result := .ok .done } u.readStatus.2 :=
      (ends_bind _ _ _ _ _).mpr ⟨{ result := .ok (.word u.readStatus.1) }, u.readStatus.2,
        (ends_bind _ _ _ _ _).mpr ⟨_, _, (ends_status _ _).mpr ⟨rfl, rfl⟩,
          (ends_pure _ _ _ _).mpr ⟨rfl, rfl⟩⟩, (ends_pure _ _ _ _).mpr ⟨rfl, rfl⟩⟩
    refine h.accords (.of_ends (hlook s) (hlook t) ?_)
    rw [show Call.status.isHasty = true from rfl, Bool.or_true]
    exact h.related.near.look
  | waitingCounts =>
    cases hasty with
    | false => exact hdisciplined rfl (fun _ => rfl) rfl
    | true =>
      -- The engines need not be level here, so their counts are read one by one.
      obtain ⟨answer, hs, hblank⟩ := waitingCounts_ends d s
      obtain ⟨answer', ht, hblank'⟩ := waitingCounts_ends d t
      rw [h.related.near.field (fun u => u.params.debug) fun _ => rfl, ← hblank'] at hblank
      refine h.accords (.of_ends ((ends_bind _ _ _ _ _).mpr ⟨answer, s, hs, rfl⟩)
        ((ends_bind _ _ _ _ _).mpr ⟨answer', t, ht, ?_⟩) h.related)
      exact (ends_pure _ _ _ _).mpr ⟨hblank, rfl⟩
  | _ => exact hdisciplined rfl (fun h => nomatch h) rfl

/-! ### Sessions -/

theorem session_indistinct (calls : List Call) (h : d.Tended (State.Apace hasty) s t) :
    d.Indistinct hasty calls s t := by
  induction calls generalizing hasty s t with
  | nil => exact h.related.near.field State.view fun _ => rfl
  | cons call rest ih =>
    refine ⟨h.related.near.field State.view fun _ => rfl, ?_⟩
    refine (perform_accords call h).mono fun u v huv => ih (huv.mono fun hpace => ⟨hpace.near, ?_⟩)
    refine hpace.level.imp id fun ⟨hhasty, hbusy⟩ => ⟨?_, hbusy⟩
    rwa [hhasty, Bool.true_and, Bool.or_eq_true, decide_eq_true_eq, decide_eq_true_eq]

/-- **No session tells the latency of an engine.** A patient driver brings engines of any two
latencies into service, and every call is then answered alike by both, and leaves them looking
alike from outside: but for status words, and for the counts of waiting random numbers after a
hasty look at an engine that is still busy. -/
theorem session_latency (params : Parameters) (entropy : Nat → UInt8) (latency latency' : Nat)
    (d : Driver) (calls : List Call) (hpatient : max (max latency latency') 3 < d.checks) :
    ∃ s t,
      Operation.Returns bus d.startUp (State.powerUp { params with latency } entropy) () s ∧
      Operation.Returns bus d.startUp (State.powerUp { params with latency := latency' } entropy)
        () t ∧
      d.Indistinct false calls s t := by
  have hattends (n : Nat) (hn : max n 3 < d.checks) :
      d.Attends (State.powerUp { params with latency := n } entropy) :=
    ⟨State.coherent_powerUp _ entropy, hn⟩
  have hs := hattends latency (by omega)
  have ht := hattends latency' (by omega)
  have hpowered : d.Tended (InPace false (.calling .reset))
      (State.powerUp { params with latency } entropy)
      (State.powerUp { params with latency := latency' } entropy) :=
    ⟨hs, ht, rfl, nofun, State.Level.apace rfl⟩
  have hstarted : Accords _ d.startUp.run _ _ := accords_of_disciplined startUp_disciplined hpowered
  obtain ⟨s, hstart⟩ := startUp_returns hs.coherent hs.patient
  obtain ⟨t, hstart', hpace⟩ := hstarted.ends hstart
  exact ⟨s, t, hstart, hstart', session_indistinct calls (hpace.mono fun h => h.2.2)⟩

/-- Small engines of different latencies. -/
def smallEngine (latency : Nat) : State := .powerUp { size := 8, latency } fun _ => 7

/-- A multiplication that is halted, let go, and looked at in a hurry. -/
def hurried : List Call := [.halt, .multiply ⟨[], []⟩ [], .resume, .status, .waitingCounts]

theorem session_latency_hurried :
    max (max 0 2) 3 < fourPolls.checks ∧
      ∃ s t, Operation.Returns bus fourPolls.startUp (smallEngine 0) () s ∧
        Operation.Returns bus fourPolls.startUp (smallEngine 2) () t ∧
        fourPolls.Indistinct false hurried s t :=
  ⟨by decide, session_latency { size := 8 } (fun _ => 7) 0 2 fourPolls hurried (by decide)⟩

/-- Calls made to an engine that is brought into service. -/
def inService (calls : List Call) : Procedure (List (Except DriverError Reply)) := do
  let _ ← fourPolls.startUp.run
  let answers ← calls.mapM (·.perform fourPolls)
  pure (answers.map Answer.result)

/-- The counts tell the latency: a look at the status has filled the random FIFOs of the engine
that is at rest again, and not those of the engine that is still busy. The debug bank is written
while an engine is busy as well. -/
theorem waitingCounts_hurried :
    max (max 0 2) 3 < fourPolls.checks ∧
      ((inService hurried).run bus (smallEngine 0)).1 = .done [.ok .done, .error .unresponsive,
        .ok .done, .ok (.word 0x3000), .ok (.waiting ⟨64, 32, 32, 16⟩)] ∧
      ((inService hurried).run bus (smallEngine 2)).1 = .done [.ok .done, .error .unresponsive,
        .ok .done, .ok (.word 0x3001), .ok (.waiting ⟨64, 29, 32, 15⟩)] ∧
      0 < ((inService hurried).run bus (smallEngine 2)).2.busy ∧
      ((inService hurried).run bus (smallEngine 2)).2.triggerArmed = false ∧
      ((inService (hurried ++ [.armTrigger])).run bus (smallEngine 2)).2.triggerArmed = true := by
  decide +kernel

end Driver

end CurveEngine
