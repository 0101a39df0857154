import CurveEngine.Proofs.Operands
import CurveEngine.Proofs.Refinement

/-! What becomes of the infinity flags when a point operation fails early.

A point operation sends its operands between saving and restoring the flags. A failure in
between, by an operand that does not fit or by an error that was latched before, leaves the
flags of the points cleared for which a transfer had been opened; any other failure before
the point command leaves both flags as they were (`perform_flags`). -/
namespace CurveEngine
open Register Procedure Device Operation

namespace Driver
variable {d : Driver} {s t : State} {α : Type}

/-! ### Point operations -/

/-- An operation on operands that are sent to the point registers. -/
def operate (d : Driver) (operation : PointOperation) (operands : List (Destination × Bytes)) :
    Operation Unit := do
  notify (.operation operation)
  let flags ← d.saveFlags
  d.send operands
  d.restoreFlags flags
  d.execute operation

theorem send_pointOperands (point : PointRegister) (p : Coordinates) :
    d.send (Call.pointOperands point p) = d.writePoint point p :=
  bind_congr fun _ => bind_pure _

theorem operateOne_eq (operation : PointOperation) (p : Coordinates) :
    d.operateOne operation p = d.operate operation (Call.pointOperands .r0 p) := by
  rw [operateOne, operate, send_pointOperands]

theorem operateTwo_eq (operation : PointOperation) (p q : Coordinates) :
    d.operateTwo operation p q =
      d.operate operation (Call.pointOperands .r0 p ++ Call.pointOperands .r1 q) := by
  have hsend : d.send (Call.pointOperands .r0 p ++ Call.pointOperands .r1 q) =
      (do d.writePoint .r0 p; d.writePoint .r1 q) := by
    rw [← send_pointOperands, ← send_pointOperands]
    exact List.forM_append
  simp only [operateTwo, operate, hsend, LawfulMonad.bind_assoc]

/-- An operand that does not fit ends the operation, without its command. -/
theorem operate_refuses (hs : Ready d s) (operation : PointOperation)
    {operands : List (Destination × Bytes)} (h : d.allFit s operands = false) :
    ∃ t, Throws bus (d.operate operation operands) s .numberTooLarge t ∧
      ¬ Makes bus (Issues operation) (d.operate operation operands).run s ∧
      ∀ point, nullOf t point = (nullOf s point && !touches (d.fitting s operands) point) := by
  have hnotify : Returns bus (liftM (notify (.operation operation))) s () s := returns_notify _ s
  obtain ⟨u, hsave, hu, halike⟩ := saveFlags_ends hs.toAwaitable
  have hready : Ready d u := ⟨hu, (halike.field State.errors fun _ => rfl).trans hs.clear⟩
  obtain ⟨hfitting, hall⟩ := fitting_of_size (d := d) (halike.field State.size fun _ => rfl) operands
  obtain ⟨t, hsend, -, hflags⟩ := send_ends hready operands
  rw [hall, h] at hsend
  have hthrows : Throws bus (d.send operands) u .numberTooLarge t := hsend
  refine ⟨t, hnotify.throws (hsave.throws hthrows.bind), ?_, fun point => ?_⟩
  · refine Operation.Avoids.not_makes_bind (.lift (.notify _)) fun _ s' hs' => ?_
    obtain ⟨-, rfl⟩ := hnotify.unique hs'
    refine Operation.Avoids.not_makes_bind (foreign_issues operation).saveFlags fun flags u' hu' => ?_
    obtain ⟨rfl, rfl⟩ := hsave.unique hu'
    rw [hthrows.makes_bind_iff]
    exact (foreign_issues operation).send operands u'
  · rw [hflags, hfitting, nullOf_alike halike]

/-- Restoring the flags ends on an engine that is ready. -/
theorem restoreFlags_ends (hs : Ready d s) (flags : PointFlags) :
    ∃ t, Returns bus (d.restoreFlags flags) s () t ∧ Ready d t ∧
      t.Alike { s with r0Null := flags.r0, r1Null := flags.r1 } := by
  obtain ⟨t, hrestore, ht⟩ := (does_restoreFlags flags).returns s (.refl s) hs
  exact ⟨t, hrestore, ht, ((does_restoreFlags flags).only s () t (.refl s) hrestore).2⟩

/-- An engine at rest is given the command. -/
theorem makes_execute (hs : Awaitable d s) (operation : PointOperation) :
    Makes bus (Issues operation) (d.execute operation).run s := by
  obtain ⟨u, hwait, -⟩ := waitIdle_ends hs
  exact hwait.makes (Operation.makes_bind_left _
    ((Operation.makes_lift _ u).mpr ((d.makes_write _ _ _ _ u).mpr ⟨rfl, rfl⟩)))

/-- What an operation that fails before its command leaves of the flags. -/
theorem operate_flags (hs : Awaitable d s) {operation : PointOperation} {n : Number}
    {bytes : Bytes} {rest : List (Destination × Bytes)} {f : Unit → Operation α}
    {error : DriverError}
    (h : Throws bus (d.operate operation ((.number n, bytes) :: rest) >>= f) s error t)
    (hbefore : ¬ Makes bus (Issues operation)
      (d.operate operation ((.number n, bytes) :: rest) >>= f).run s) (point : PointRegister) :
    nullOf t point =
      (nullOf s point && !touches (d.interrupted s ((.number n, bytes) :: rest)) point) := by
  have hnotify : Returns bus (liftM (notify (.operation operation))) s () s := returns_notify _ s
  rw [interrupted]
  by_cases herrors : s.errors = 0
  · have hready : Ready d s := ⟨hs, herrors⟩
    rw [if_neg (not_not.mpr herrors)]
    cases hall : d.allFit s ((.number n, bytes) :: rest) with
    | false =>
      obtain ⟨u, hthrows, -, hflags⟩ := operate_refuses hready operation hall
      obtain ⟨-, rfl⟩ := hthrows.bind.unique h
      exact hflags point
    | true =>
      -- nothing keeps the operation from its command
      obtain ⟨u, hsave, hu, halike⟩ := saveFlags_ends hs
      have hu' : Ready d u := ⟨hu, (halike.field State.errors fun _ => rfl).trans herrors⟩
      obtain ⟨v, hsend, hv, -⟩ := send_ends hu' ((.number n, bytes) :: rest)
      rw [(fitting_of_size (d := d) (halike.field State.size fun _ => rfl) _).2, hall] at hsend
      obtain ⟨w, hrestore, hw, -⟩ := restoreFlags_ends hv ⟨s.r0Null, s.r1Null⟩
      have hsend : Returns bus (d.send ((.number n, bytes) :: rest)) u () v := hsend
      exact absurd (Operation.makes_bind_left f (hnotify.makes (hsave.makes (hsend.makes
        (hrestore.makes (makes_execute hw.toAwaitable operation)))))) hbefore
  · rw [if_pos herrors]
    obtain ⟨u, hsave, hu, halike⟩ := saveFlags_ends hs
    have hu' : u.errors ≠ 0 := by rwa [halike.field State.errors fun _ => rfl]
    obtain ⟨error', v, hsend, hflags⟩ := send_latched hu hu' n bytes rest
    have hthrows : Throws bus (d.operate operation ((.number n, bytes) :: rest) >>= f) s error' v :=
      (hnotify.throws (hsave.throws hsend.bind)).bind
    obtain ⟨-, rfl⟩ := hthrows.unique h
    rw [hflags, (fitting_of_size (d := d) (halike.field State.size fun _ => rfl) _).1,
      nullOf_alike halike]

/-! ### Multiplications -/

/-- The operands of a multiplication. -/
def factors (point : Coordinates) (k : Bytes) : List (Destination × Bytes) :=
  (.scalar, k) :: Call.pointOperands .r1 point

theorem loadMultiplication_eq (point : Coordinates) (k : Bytes) :
    d.loadMultiplication point k = (do
      let flags ← d.saveFlags
      let token ← d.fetchToken
      d.send (factors point k)
      d.restoreFlags flags
      pure token) := by
  have hsend : d.send (factors point k) = (do d.writeNumber k .scalar; d.writePoint .r1 point) := by
    rw [← send_pointOperands]
    rfl
  simp only [loadMultiplication, hsend, LawfulMonad.bind_assoc]

/-- With an error latched, loading ends where the token is drawn. -/
theorem loadMultiplication_latched (hs : Awaitable d s) (herrors : s.errors ≠ 0)
    (point : Coordinates) (k : Bytes) :
    ∃ error t, Throws bus (d.loadMultiplication point k) s error t ∧
      ∀ P, nullOf t P = nullOf s P := by
  obtain ⟨u, hsave, hu, halike⟩ := saveFlags_ends hs
  have hu' : u.errors ≠ 0 := by rwa [halike.field State.errors fun _ => rfl]
  obtain ⟨error, t, hdraw, ht⟩ := writeSettled_throws hu .token 1
    (fun v hv _ => hv.apply State.timeless_drawToken) rfl hu'
  have hfetch : Throws bus d.fetchToken u error t := hdraw.bind
  rw [loadMultiplication_eq]
  refine ⟨error, t, hsave.throws hfetch.bind, fun P => ?_⟩
  rw [nullOf_alike ht, nullOf_acknowledged, ← nullOf_alike halike]
  rfl

/-- With none latched, loading restores the flags, or an operand does not fit. -/
theorem loadMultiplication_ready (hs : Ready d s) (point : Coordinates) (k : Bytes) :
    ∃ x t, Ends bus (d.loadMultiplication point k).run s x t ∧
      (∀ P, nullOf t P = (nullOf s P && !touches (d.interrupted s (factors point k)) P)) ∧
      ((∃ error, x = .error error) ∨ (∃ token, x = .ok token) ∧ Awaitable d t) := by
  obtain ⟨u, hsave, hu, halike⟩ := saveFlags_ends hs.toAwaitable
  have hu' : Ready d u := ⟨hu, (halike.field State.errors fun _ => rfl).trans hs.clear⟩
  obtain ⟨v, hfetch, hv⟩ := does_fetchToken.returns u (.refl u) hu'
  have hdrawn := (does_fetchToken.only u _ v (.refl u) hfetch).2
  have hflags (P : PointRegister) : nullOf v P = nullOf s P := by
    rw [nullOf_alike hdrawn, ← nullOf_alike halike]
    cases P <;> rfl
  have hsize : v.size = s.size :=
    (hdrawn.field State.size fun _ => rfl).trans (halike.field State.size fun _ => rfl)
  obtain ⟨hfitting, hall⟩ := fitting_of_size (d := d) hsize (factors point k)
  obtain ⟨w, hsend, hw, hcleared⟩ := send_ends hv (factors point k)
  rw [loadMultiplication_eq, interrupted, if_neg (not_not.mpr hs.clear)]
  rw [hall] at hsend
  cases hfit : d.allFit s (factors point k) with
  | true =>
    rw [hfit] at hsend
    have hsend : Returns bus (d.send (factors point k)) v () w := hsend
    obtain ⟨t, hrestore, ht, hrestored⟩ := restoreFlags_ends hw ⟨s.r0Null, s.r1Null⟩
    refine ⟨_, t, hsave.ends_run_bind.mpr (hfetch.ends_run_bind.mpr (hsend.ends_run_bind.mpr
      (hrestore.ends_run_bind.mpr ((returns_pure _ _ _ _).mpr ⟨rfl, rfl⟩)))), fun P => ?_,
        .inr ⟨⟨_, rfl⟩, ht.toAwaitable⟩⟩
    rw [nullOf_alike hrestored, if_pos rfl]
    cases P <;> exact (Bool.and_true _).symm
  | false =>
    rw [hfit] at hsend
    have hsend : Throws bus (d.send (factors point k)) v .numberTooLarge w := hsend
    refine ⟨_, w, hsave.throws (hfetch.throws hsend.bind), fun P => ?_, .inl ⟨_, rfl⟩⟩
    rw [hcleared, hfitting, hflags]
    rfl

/-- Loading the operands restores the flags, or fails. -/
theorem loadMultiplication_ends (hs : Awaitable d s) (point : Coordinates) (k : Bytes) :
    ∃ x t, Ends bus (d.loadMultiplication point k).run s x t ∧
      (∀ P, nullOf t P = (nullOf s P && !touches
        (if s.errors ≠ 0 then [] else d.interrupted s (factors point k)) P)) ∧
      ((∃ error, x = .error error) ∨ (∃ token, x = .ok token) ∧ Awaitable d t) := by
  by_cases herrors : s.errors = 0
  · rw [if_neg (not_not.mpr herrors)]
    exact loadMultiplication_ready ⟨hs, herrors⟩ point k
  · obtain ⟨error, t, hthrows, hflags⟩ := loadMultiplication_latched hs herrors point k
    refine ⟨_, t, hthrows, fun P => ?_, .inl ⟨error, rfl⟩⟩
    rw [if_pos herrors]
    exact (hflags P).trans (Bool.and_true _).symm

/-- What a multiplication that fails before its command leaves of the flags. -/
theorem multiply_flags (hs : Awaitable d s) {p : Coordinates} {k : Bytes} {error : DriverError}
    (h : Throws bus (d.multiply p k) s error t)
    (hbefore : ¬ Makes bus (Issues .multiply) (d.multiply p k).run s) (point : PointRegister) :
    nullOf t point = (nullOf s point && !touches
      (if s.errors ≠ 0 then [] else d.interrupted s (factors p k)) point) := by
  have hnotify : Returns bus (liftM (notify (.multiplication false))) s () s := returns_notify _ s
  obtain ⟨x, u, hload, hflags, ⟨error', rfl⟩ | ⟨⟨token, rfl⟩, hu⟩⟩ :=
    loadMultiplication_ends hs p k
  · have hload : Throws bus (d.loadMultiplication p k) s error' u := hload
    obtain ⟨-, rfl⟩ := (hnotify.throws hload.bind).unique h
    exact hflags point
  · have hload : Returns bus (d.loadMultiplication p k) s token u := hload
    exact absurd (hnotify.makes (hload.makes (Operation.makes_bind_left _
      (makes_execute hu .multiply)))) hbefore

/-! ### Traced multiplications -/

/-- A recording that ends has failed with a property, or it has made an access. -/
def FailsBefore {ρ : Type} (I : State → Prop) (P : Access → Prop) (op : Recording ρ α) : Prop :=
  ∀ r s x q t, I s → Ends bus (op.on r) s (x, q) t →
    I t ∧ (∃ error, x = .error error) ∨ Makes bus P (op.on r) s

namespace FailsBefore
variable {ρ β : Type} {I : State → Prop} {P : Access → Prop}

theorem throw (error : DriverError) : FailsBefore I P (throw error : Recording ρ α) := by
  intro r s x q t hs h
  obtain ⟨hx, rfl⟩ := (ends_pure (Except.error error, r) (x, q) s t).mp h
  exact .inl ⟨hs, error, congrArg Prod.fst hx⟩

/-- What keeps the property may come first. -/
theorem after {op : Recording ρ α} {f : α → Recording ρ β}
    (h : Recording.Lockstep (Both I) op op) (hf : ∀ a, FailsBefore I P (f a)) :
    FailsBefore I P (op >>= f) := by
  intro r s x q t hs hends
  rcases (Recording.ends_on_bind op f r q s t x).mp hends with
    ⟨a, r', u, ha, hrest⟩ | ⟨error, hthrows, rfl⟩
  · exact (hf a r' u x q t ((h r).keeps hs ha) hrest).imp_right ha.makes
  · exact .inl ⟨(h r).keeps hs hthrows, error, rfl⟩

/-- After the access, nothing is asked any more. -/
theorem of_makes {op : Recording ρ α} (f : α → Recording ρ β)
    (h : ∀ r s, Makes bus P (op.on r) s) : FailsBefore I P (op >>= f) :=
  fun r s _ _ _ _ _ => .inr (Recording.makes_bind_left f (h r s))

end FailsBefore

/-- The write leaves the flags alone. -/
def SparesFlags (r : Sink) (_ : UInt32) : Prop :=
  r ≠ .control ∧ r ≠ .r0Null ∧ r ≠ .r1Null ∧ r ≠ .softReset ∧ r ≠ .steps

theorem upholds_flags (f : PointRegister → Bool) :
    Upholds (fun s => ∀ P, nullOf s P = f P) SparesFlags where
  read r s hs P := by
    rw [← hs P]
    refine State.readSource_keeps (P := fun t => nullOf t P = nullOf s P) (fun _ _ _ _ _ _ => ?_) r
    cases P <;> rfl
  write r value s hr hs P := by
    rw [← hs P]
    have hdebug (t : State) (ht : nullOf t P = nullOf s P) :=
      State.debug_keeps (P := fun u => nullOf u P = nullOf s P) rfl ht
    obtain ⟨hcontrol, hr0, hr1, hreset, hsteps⟩ := hr
    cases r with
    | control => exact absurd rfl hcontrol
    | r0Null => exact absurd rfl hr0
    | r1Null => exact absurd rfl hr1
    | softReset => exact absurd rfl hreset
    | steps => exact absurd rfl hsteps
    | writeData =>
      show nullOf (s.writeData value) P = _
      unfold State.writeData
      dsimp only
      repeat' split
      all_goals cases P <;> rfl
    | primeSize =>
      refine State.setSize_keeps (P := fun t => nullOf t.occupy P = nullOf s P) (fun _ _ => ?_) _
      cases P <;> rfl
    | blinding =>
      refine State.setBlinding_keeps (P := fun t => nullOf t.occupy P = nullOf s P) (fun _ _ => ?_) _
      cases P <;> rfl
    | shuffle =>
      refine State.setShuffle_keeps (P := fun t => nullOf t.occupy P = nullOf s P) (fun _ _ => ?_) _
      cases P <;> rfl
    | zremask | token | irq | errorAck | smallScalar => cases P <;> rfl
    | halt =>
      refine hdebug _ (State.writeDebug_halt_keeps (P := fun t => nullOf t P = nullOf s P)
        (fun _ => ?_) _)
      cases P <;> rfl
    | _ => exact hdebug _ (by cases P <;> rfl)
  acknowledge _ := by simp [SparesFlags]

/-- A traced run that fails before its command leaves the flags alone. -/
theorem traceRun_failsBefore (f : PointRegister → Bool) :
    FailsBefore (fun s => ∀ P, nullOf s P = f P) (Issues .multiply) d.traceRun := by
  have hkeeps := (upholds_flags f).paired d
  rw [traceRun]
  refine .after (.lift hkeeps.ensureDebug) fun _ => .after (.procedure hkeeps.size) fun size =>
    .after (.lift (hkeeps.readDebug (by decide) (by decide))) fun width => ?_
  dsimp only
  split
  · exact .throw _
  refine .after (.modify _) fun _ => .after .get fun t =>
    .after (.lift (hkeeps.writeBreakpoint _ (by simp [SparesFlags]))) fun _ =>
      .after (.lift hkeeps.waitIdle) fun _ => .of_makes _ fun r s => ?_
  exact Recording.makes_procedure ((d.makes_write _ _ _ _ s).mpr ⟨rfl, rfl⟩)

/-- What a traced multiplication that fails before its command leaves of the flags. -/
theorem multiplyTraced_flags (hs : Awaitable d s) {p : Coordinates} {k : Bytes}
    {trace trace' : Trace} {error : DriverError}
    (h : Recording.Throws bus (d.multiplyTraced p k) trace s error trace' t)
    (hbefore : ¬ Makes bus (Issues .multiply) ((d.multiplyTraced p k).on trace) s)
    (point : PointRegister) :
    nullOf t point = (nullOf s point && !touches
      (if s.errors ≠ 0 ∨ s.params.debug = false then [] else d.interrupted s (factors p k))
        point) := by
  have hnotify : Recording.Returns bus (liftM (notify (.multiplication true))) trace s () trace s :=
    Recording.returns_notify _ trace s
  cases hdebug : s.params.debug with
  | false =>
    have hrefused : Recording.Throws bus (liftM d.ensureDebug : Tracing Unit) trace s .debugOnly
        trace s := .lift (ensureDebug_throws hdebug) trace
    obtain ⟨-, rfl⟩ := (hnotify.throws hrefused.bind).unique h
    rw [if_pos (.inr rfl)]
    exact (Bool.and_true _).symm
  | true =>
    have hensure : Recording.Returns bus (liftM d.ensureDebug : Tracing Unit) trace s () trace s :=
      .lift ((returns_ensureDebug hdebug _).mpr rfl) trace
    simp only [Bool.true_eq_false, or_false]
    obtain ⟨x, u, hload, hflags, ⟨error', rfl⟩ | ⟨⟨token, rfl⟩, -⟩⟩ := loadMultiplication_ends hs p k
    · have hload : Recording.Throws bus (liftM (d.loadMultiplication p k) : Tracing Bytes) trace s
          error' trace u := .lift hload trace
      obtain ⟨-, rfl⟩ := (hnotify.throws (hensure.throws hload.bind)).unique h
      exact hflags point
    · have hload : Recording.Returns bus (liftM (d.loadMultiplication p k) : Tracing Bytes) trace s
          token trace u := .lift hload trace
      have hrest := hload.ends_on_bind.mp (hensure.ends_on_bind.mp (hnotify.ends_on_bind.mp h))
      have hissued (hmakes : Makes bus (Issues .multiply) (d.traceRun.on trace) u) : False :=
        hbefore (hnotify.makes (hensure.makes (hload.makes (Recording.makes_bind_left _ hmakes))))
      have hrun := traceRun_failsBefore (d := d) (nullOf u)
      rw [← hflags]
      rcases (Recording.ends_on_bind _ _ _ _ _ _ _).mp hrest with
        ⟨_, q, v, hreturns, -⟩ | ⟨error', hthrows, -⟩
      · rcases hrun _ _ _ _ _ (fun _ => rfl) hreturns with ⟨-, error', herror⟩ | hmakes
        · cases herror
        · exact (hissued hmakes).elim
      · rcases hrun _ _ _ _ _ (fun _ => rfl) hthrows with ⟨hkept, -⟩ | hmakes
        · exact hkept point
        · exact (hissued hmakes).elim

/-! ### Calls -/

theorem throws_of_failed {reply : α → Reply} {op : Operation α} {answer : Answer}
    {error : DriverError} (h : Ends bus (Answer.ofOperation reply op) s answer t)
    (hfailed : answer.result = .error error) : Throws bus op s error t := by
  simp only [Answer.ofOperation, ends_bind, ends_pure] at h
  obtain ⟨x, u, hop, rfl, rfl⟩ := h
  cases x with
  | ok a => cases hfailed
  | error e =>
    cases hfailed
    exact hop

theorem makes_ofOperation {reply : α → Reply} {op : Operation α} {P : Access → Prop}
    (h : Makes bus P op.run s) : Makes bus P (Answer.ofOperation reply op) s :=
  (makes_bind _ _ s).mpr (.inl h)

theorem throws_of_failed_recording {ρ : Type} {reply : α → Reply} {lent : ρ}
    (back : ρ → Answer → Answer) (hback : ∀ r answer, (back r answer).result = answer.result)
    {op : Recording ρ α} {answer : Answer} {error : DriverError}
    (h : Ends bus (Answer.ofRecording reply lent back op) s answer t)
    (hfailed : answer.result = .error error) :
    ∃ r, Recording.Throws bus op lent s error r t := by
  simp only [Answer.ofRecording, ends_bind, ends_pure] at h
  obtain ⟨⟨x, r⟩, u, hop, rfl, rfl⟩ := h
  rw [hback] at hfailed
  cases x with
  | ok a => cases hfailed
  | error e =>
    cases hfailed
    exact ⟨r, hop⟩

/-- An operation that is called, and fails before its command. -/
theorem ofOperation_flags (hs : Awaitable d s) {operation : PointOperation} {p : Coordinates}
    (rest : List (Destination × Bytes)) {reply : α → Reply} {f : Unit → Operation α}
    {answer : Answer} {error : DriverError}
    (h : Ends bus (Answer.ofOperation reply
      (d.operate operation (Call.pointOperands .r0 p ++ rest) >>= f)) s answer t)
    (hfailed : answer.result = .error error)
    (hbefore : ¬ Makes bus (Issues operation) (Answer.ofOperation reply
      (d.operate operation (Call.pointOperands .r0 p ++ rest) >>= f)) s) (point : PointRegister) :
    nullOf t point = (nullOf s point &&
      !touches (d.interrupted s (Call.pointOperands .r0 p ++ rest)) point) :=
  operate_flags hs (throws_of_failed h hfailed) (fun hmakes => hbefore (makes_ofOperation hmakes))
    point

/-- **A point operation that fails early clears the flags of the points it has touched.** When
it fails before its point command, the infinity flag of a point is what it was, unless a
coordinate of the point has been begun to be sent: then the flag is cleared, and is not
restored. -/
theorem perform_flags (d : Driver) (s t : State) (call : Call) (operation : PointOperation)
    (answer : Answer) (error : DriverError) (hcall : call.operation? = some operation)
    (hs : Reachable s) (hresting : s.multiplying = false)
    (hpatient : max s.params.latency 3 < d.checks) (h : Ends bus (call.perform d) s answer t)
    (hfailed : answer.result = .error error)
    (hbefore : ∀ access ∈ (call.perform d).accesses bus s,
      ¬ access.Sends .control (Command.operate operation).word) (point : PointRegister) :
    nullOf t point = (nullOf s point && !touches (d.abandoned s call) point) := by
  have hidle : Awaitable d s := ⟨hs.coherent, hresting, hpatient⟩
  have hbefore : ¬ Makes bus (Issues operation) (call.perform d) s :=
    fun ⟨access, haccess, hsends⟩ => hbefore access haccess hsends
  cases call with
  | add p q | equal p q | opposite p q =>
    cases hcall
    simp only [Call.perform, add, equal, opposite, operateTwo_eq] at h hbefore
    exact ofOperation_flags hidle (Call.pointOperands .r1 q) h hfailed hbefore point
  | double p | negate p | isOnCurve p =>
    cases hcall
    simp only [Call.perform, double, negate, isOnCurve, operateOne_eq] at h hbefore
    exact ofOperation_flags hidle [] h hfailed hbefore point
  | multiply p k =>
    cases hcall
    have habandoned : d.abandoned s (.multiply p k) =
        if s.errors ≠ 0 then [] else d.interrupted s (factors p k) := by
      simp only [abandoned, Call.operation?, Call.isTraced, Bool.false_eq_true, false_and, or_false,
        true_and]
      rfl
    rw [habandoned]
    exact multiply_flags hidle (throws_of_failed h hfailed)
      (fun hmakes => hbefore (makes_ofOperation hmakes)) point
  | multiplyTraced p k trace =>
    cases hcall
    have habandoned : d.abandoned s (.multiplyTraced p k trace) =
        if s.errors ≠ 0 ∨ s.params.debug = false then [] else d.interrupted s (factors p k) := by
      simp only [abandoned, Call.operation?, Call.isTraced, true_and]
      rfl
    obtain ⟨trace', hthrows⟩ := throws_of_failed_recording
      (fun t answer => { answer with trace := some t }) (fun _ _ => rfl) h hfailed
    rw [habandoned]
    exact multiplyTraced_flags hidle hthrows
      (fun hmakes => hbefore ((makes_bind _ _ s).mpr (.inl hmakes))) point
  | _ => cases hcall

/-! ### An operand that does not fit -/

/-- The second coordinate is too long by four bytes. -/
def oversized : Call := .double ⟨[1], [0, 0, 0, 0, 2]⟩

/-- The call fails without its command, and R0 is no longer infinite. -/
theorem perform_oversized :
    ∃ t, Ends bus (oversized.perform ⟨{}, 10⟩) curve97 { result := .error .numberTooLarge } t ∧
      ¬ Makes bus (Issues .double) (oversized.perform ⟨{}, 10⟩) curve97 ∧
      nullOf t .r0 = false := by
  have hready : Ready ⟨{}, 10⟩ curve97 := ⟨⟨reachable_curve97.coherent, rfl, by decide⟩, rfl⟩
  have hlarge : (⟨{}, 10⟩ : Driver).allFit curve97
      (Call.pointOperands .r0 ⟨[1], [0, 0, 0, 0, 2]⟩) = false := by decide
  obtain ⟨t, hthrows, hissued, hflags⟩ := operate_refuses hready .double hlarge
  rw [← operateOne_eq] at hthrows hissued
  refine ⟨t, (ends_bind _ _ _ _ _).mpr ⟨_, t, hthrows.bind, (ends_pure _ _ _ _).mpr ⟨rfl, rfl⟩⟩,
    fun hmakes => ?_, (hflags .r0).trans (by decide)⟩
  rcases (makes_bind _ _ _).mp hmakes with hdouble | ⟨x, u, -, hrest⟩
  · exact hissued ((hthrows.makes_bind_iff).mp hdouble)
  · exact not_makes_pure _ _ hrest

/-- **An infinity flag may be lost.** The doubling is refused, and clears the flag of R0. -/
theorem perform_loses_flag :
    Reachable curve97 ∧ curve97.multiplying = false ∧ max curve97.params.latency 3 < 10 ∧
      ∃ answer t, Ends bus (oversized.perform ⟨{}, 10⟩) curve97 answer t ∧
        answer.result = .error .numberTooLarge ∧
        (∀ access ∈ (oversized.perform ⟨{}, 10⟩).accesses bus curve97,
          ¬ access.Sends .control (Command.operate .double).word) ∧
        nullOf curve97 .r0 = true ∧ nullOf t .r0 = false := by
  obtain ⟨t, hends, hissued, hflag⟩ := perform_oversized
  exact ⟨reachable_curve97, rfl, by decide, _, t, hends, rfl,
    fun access haccess hsends => hissued ⟨access, haccess, hsends⟩, rfl, hflag⟩

/-- The flag of R1, which the doubling does not touch, is kept. -/
theorem perform_flags_oversized :
    ∃ answer t, Ends bus (oversized.perform ⟨{}, 10⟩) curve97 answer t ∧
      answer.result = .error .numberTooLarge ∧ nullOf t .r0 = false ∧
      nullOf t .r1 = nullOf curve97 .r1 := by
  obtain ⟨t, hends, hissued, -⟩ := perform_oversized
  have hflags := perform_flags ⟨{}, 10⟩ curve97 t oversized .double _ .numberTooLarge rfl
    reachable_curve97 rfl (by decide) hends rfl
    fun access haccess hsends => hissued ⟨access, haccess, hsends⟩
  exact ⟨_, t, hends, rfl, (hflags .r0).trans (by decide), (hflags .r1).trans (by decide)⟩

end Driver

end CurveEngine
