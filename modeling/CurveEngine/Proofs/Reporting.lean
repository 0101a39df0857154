import CurveEngine.Proofs.Dialogue

/-! Latched errors are reported, whatever bus a driver is on.

An operation acknowledges errors at most once, as the last thing it does: they are the errors
of the status it has just read, and the ones it fails with. An operation that succeeds has found
no error after any of its checked accesses. `Reports` says so of a result and a log; it holds of
the steps of the discipline that are not part of a traced run, and of their sequences
(`reporting_of_disciplined`). A traced run is left out: it releases the engine whatever it has
found, so it goes on after errors. -/
namespace CurveEngine
open Register Procedure

variable {σ α β : Type} {bus : Bus σ}

/-! ### Logs -/

/-- An access after which the engine is checked for errors. -/
def Access.Checked (access : Access) : Prop :=
  (∃ r ∈ Sink.checked, access.WritesTo r) ∨ access.ReadsFrom .readData

/-- After a checked access the status is read until it shows an idle engine, and then once more:
it shows no error. -/
def FoundClear (_ : List Access) (access : Access) (after : List Access) : Prop :=
  access.Checked → ∃ busy idle clear rest, after = busy ++ idle :: clear :: rest ∧
    (∀ look ∈ busy, look.Busy) ∧ idle.Idle ∧ clear.Latched 0

/-- No errors are acknowledged. -/
def Unacknowledged (log : List Access) : Prop := ∀ access ∈ log, ¬ access.WritesTo .errorAck

section Logs
variable {log log' : List Access} {access : Access}

theorem Access.ReadsFrom.not_checked {r : Source} (h : access.ReadsFrom r) (hr : r ≠ .readData) :
    ¬ access.Checked := h.not_listed Sink.checked hr

theorem Access.WritesTo.not_checked {r : Sink} (h : access.WritesTo r) (hr : r ∉ Sink.checked) :
    ¬ access.Checked := h.not_listed hr

theorem unacknowledged_of_reads (h : ∀ access ∈ log, access.ReadsFrom .status) :
    Unacknowledged log := fun access hin => (h access hin).not_writesTo _

theorem Unacknowledged.append (h : Unacknowledged log) (h' : Unacknowledged log') :
    Unacknowledged (log ++ log') :=
  fun access hin => (List.mem_append.mp hin).elim (h access) (h' access)

theorem foundClear_of_unchecked (h : ∀ access ∈ log, ¬ access.Checked) :
    Throughout FoundClear log := by
  intro before access after hlog hchecked
  exact absurd hchecked (h access (by simp [hlog]))

theorem foundClear_append (h : Throughout FoundClear log) (h' : Throughout FoundClear log') :
    Throughout FoundClear (log ++ log') := by
  refine h.append h' (fun before access after hP hchecked => ?_) fun _ _ _ hP => hP
  obtain ⟨busy, idle, clear, rest, rfl, hclear⟩ := hP hchecked
  exact ⟨busy, idle, clear, rest ++ log', by simp, hclear⟩

theorem Driver.EndsIdle.looks (h : Driver.EndsIdle log) :
    ∀ access ∈ log, access.ReadsFrom .status := by
  obtain ⟨busy, idle, rfl, hbusy, word, hidle, -⟩ := h
  intro access hin
  simp only [List.mem_append, List.mem_singleton] at hin
  rcases hin with hin | rfl
  · obtain ⟨_, hword, -⟩ := hbusy access hin
    exact hword.readsFrom
  · exact hidle.readsFrom

theorem foundClear_of_settles (h : Driver.EndsIdle log) {clear : Access} (hclear : clear.Latched 0)
    (access : Access) : Throughout FoundClear (access :: (log ++ [clear])) := by
  have hlooks : ∀ look ∈ log ++ [clear], look.ReadsFrom .status := by
    obtain ⟨word, hword, -⟩ := hclear
    simpa [or_imp, forall_and] using ⟨h.looks, hword.readsFrom⟩
  intro before access' after hlog hchecked
  cases before with
  | nil =>
    obtain ⟨rfl, rfl⟩ := List.cons_eq_cons.mp hlog
    obtain ⟨busy, idle, rfl, hbusy, hidle⟩ := h
    exact ⟨busy, idle, clear, [], by simp, hbusy, hidle, hclear⟩
  | cons first before =>
    obtain ⟨rfl, hrest⟩ := List.cons_eq_cons.mp hlog
    have hin : access' ∈ log ++ [clear] := hrest ▸ List.mem_append_right before List.mem_cons_self
    exact absurd hchecked ((hlooks access' hin).not_checked (by decide))

end Logs

theorem Register.Latch.ackWord_eq (bits : UInt32) : Latch.ackWord bits = bits <<< 16 := by
  rw [Latch.ackWord, ← UInt32.toNat_inj]
  have hmask (n : Nat) : n &&& 65535 = n % 2 ^ 16 := Nat.and_two_pow_sub_one_eq_mod n 16
  simp only [UInt32.toNat_shiftLeft, UInt32.toNat_and, UInt32.toNat_ofNat, hmask, Nat.shiftLeft_eq,
    Nat.reducePow, Nat.reduceMod]
  omega

/-! ### Reports -/

/-- How a procedure that may fail ends, and what its log shows for it. -/
inductive Reports (failure : α → Option DriverError) : Option α → List Access → Prop
  /-- It succeeds, and has found no error after any of its checked accesses. -/
  | succeeds {a : α} {log : List Access} (h : failure a = none) (quiet : Unacknowledged log)
      (clear : Throughout FoundClear log) : Reports failure (some a) log
  /-- It is cut off, or fails without an error of the engine's. -/
  | stops {x : Option α} {log : List Access}
      (h : ∀ a ∈ x, ∃ e, failure a = some e ∧ e.isHardware = false)
      (quiet : Unacknowledged log) : Reports failure x log
  /-- It acknowledges errors of the engine's and fails with them, unless the bus refuses. -/
  | acknowledges {x : Option α} {log : List Access} {look ack : Access} {bits : UInt32}
      (quiet : Unacknowledged log) (hlook : look.Latched bits) (hbits : bits ≠ 0)
      (hack : ack.Sends .errorAck (Latch.ackWord bits))
      (h : x.bind failure = some (.hardware bits) ∨ x = none ∧ ack.Refused) :
      Reports failure x (log ++ [look, ack])

/-- Wherever the procedure starts, it ends as reported. -/
def Reporting (bus : Bus σ) (failure : α → Option DriverError) (p : Procedure α) : Prop :=
  Yields bus (Reports failure) p

theorem Reports.prepend {failure : α → Option DriverError} {x : Option α} {log rest : List Access}
    (h : Reports failure x rest) (quiet : Unacknowledged log) (clear : Throughout FoundClear log) :
    Reports failure x (log ++ rest) := by
  cases h with
  | succeeds h quiet' clear' =>
    exact .succeeds h (quiet.append quiet') (foundClear_append clear clear')
  | stops h quiet' => exact .stops h (quiet.append quiet')
  | acknowledges quiet' hlook hbits hack h =>
    rw [← List.append_assoc]
    exact .acknowledges (quiet.append quiet') hlook hbits hack h

namespace Reporting
variable {failure : α → Option DriverError} {failure' : β → Option DriverError}

theorem done {a : α} (h : ∀ e, failure a = some e → e.isHardware = false) :
    Reporting bus failure (pure a) := by
  refine Yields.pure ?_
  rcases hfailure : failure a with _ | e
  · exact .succeeds hfailure nofun throughout_nil
  · exact .stops (fun a' ha' => Option.some_inj.mp ha' ▸ ⟨e, hfailure, h e hfailure⟩) nofun

theorem spent : Reporting bus failure .spent := fun _ => .stops nofun nofun

/-- A single access that needs no check. -/
theorem access {p : Procedure α}
    (h : Yields bus (fun _ log => ∃ access, log = [access] ∧ ¬ access.Checked ∧
      ¬ access.WritesTo .errorAck) p) : Reporting bus (fun _ => none) p := by
  refine h.mono fun x log hlog => ?_
  obtain ⟨access, rfl, hunchecked, hquiet⟩ := hlog
  have quiet : Unacknowledged [access] := by simpa [Unacknowledged] using hquiet
  cases x with
  | some a => exact .succeeds rfl quiet (foundClear_of_unchecked (by simpa using hunchecked))
  | none => exact .stops nofun quiet

theorem bind {p : Procedure α} {f : α → Procedure β} (hp : Reporting bus failure p)
    (hf : ∀ a, failure a = none → Reporting bus failure' (f a))
    (fails : ∀ a e, failure a = some e → ∃ b, f a = Pure.pure b ∧ failure' b = some e) :
    Reporting bus failure' (p >>= f) := by
  refine Yields.bind hp (fun a log hlog => ?_) fun log hlog => ?_
  · cases hlog with
    | succeeds h quiet clear =>
      exact (hf a h).mono fun x rest hrest => hrest.prepend quiet clear
    | stops h quiet =>
      obtain ⟨e, he, hsoft⟩ := h a rfl
      obtain ⟨b, hb, hfailure⟩ := fails a e he
      rw [hb]
      refine Yields.pure ?_
      rw [List.append_nil]
      exact .stops (fun b' hb' => Option.some_inj.mp hb' ▸ ⟨e, hfailure, hsoft⟩) quiet
    | @acknowledges _ _ _ _ bits quiet hlook hbits hack h =>
      rcases h with h | ⟨h, -⟩
      · obtain ⟨b, hb, hfailure⟩ := fails a (.hardware bits) h
        rw [hb]
        refine Yields.pure ?_
        rw [List.append_nil]
        exact .acknowledges quiet hlook hbits hack (.inl hfailure)
      · cases h
  · cases hlog with
    | stops h quiet => exact .stops nofun quiet
    | acknowledges quiet hlook hbits hack h =>
      rcases h with h | ⟨-, h⟩
      · cases h
      · exact .acknowledges quiet hlook hbits hack (.inr ⟨rfl, h⟩)

theorem andThen {p : Procedure α} {f : α → Procedure β}
    (hp : Reporting bus (fun _ => none) p) (hf : ∀ a, Reporting bus failure' (f a)) :
    Reporting bus failure' (p >>= f) := hp.bind (fun a _ => hf a) nofun

theorem operation {op : Operation α} {f : α → Operation β} (h : Reporting bus failureOf op.run)
    (hf : ∀ a, Reporting bus failureOf (f a).run) : Reporting bus failureOf (op >>= f).run := by
  rw [ExceptT.run_bind]
  refine h.bind (fun x hx => ?_) fun x e hx => ?_
  · cases x with
    | ok a => exact hf a
    | error e => cases hx
  · cases x with
    | ok a => cases hx
    | error e' => exact ⟨.error e', rfl, hx⟩

theorem lift {p : Procedure α} {f : α → Operation β} (h : Reporting bus (fun _ => none) p)
    (hf : ∀ a, Reporting bus failureOf (f a).run) :
    Reporting bus failureOf ((liftM p : Operation α) >>= f).run := by
  rw [Operation.run_lift_bind]
  exact h.andThen hf

/-! ### Steps -/

variable {d : Driver}

theorem read {r : Source} (hr : r ≠ .readData) : Reporting bus (fun _ => none) (d.read r) :=
  access ((Driver.yields_read r).mono fun _ _ ⟨access, hlog, hreads, _⟩ =>
    ⟨access, hlog, hreads.not_checked hr, hreads.not_writesTo _⟩)

theorem write {r : Sink} (hr : r ∉ Sink.checked) (hack : r ≠ .errorAck) (word : UInt32) :
    Reporting bus (fun _ => none) (d.write r word) :=
  access ((Driver.yields_write r word).mono fun _ _ ⟨access, hlog, hsends, _⟩ =>
    ⟨access, hlog, hsends.writesTo.not_checked hr, fun h => hack (hsends.writesTo.eq h)⟩)

theorem waitIdle : Reporting bus failureOf d.waitIdle.run := by
  refine Driver.yields_waitIdle.mono fun x log hlog => ?_
  obtain ⟨hlooks, -, hthrows⟩ := hlog
  have quiet := unacknowledged_of_reads hlooks
  rcases x with _ | e | a
  · exact .stops nofun quiet
  · refine .stops (fun y hy => ?_) quiet
    obtain rfl := Option.some_inj.mp hy
    exact ⟨e, rfl, hthrows e rfl⟩
  · exact .succeeds rfl quiet
      (foundClear_of_unchecked fun access hin => (hlooks access hin).not_checked (by decide))

/-- A single access that acknowledges nothing, and is settled. -/
theorem settled {p : Procedure α} (h : Yields bus (fun _ log =>
      ∃ access, log = [access] ∧ ¬ access.WritesTo .errorAck) p) :
    Reporting bus failureOf (do let a ← p; d.settle; pure a : Operation α).run := by
  refine Operation.yields_lift_bind h (fun a log hlog => ?_) fun log hlog => ?_
  · obtain ⟨access, rfl, hquiet⟩ := hlog
    have quiet : Unacknowledged [access] := by simpa [Unacknowledged] using hquiet
    refine Operation.yields_bind Driver.yields_settle (fun _ rest hrest => ?_) fun e rest hrest => ?_
    · refine Yields.pure ?_
      rw [List.append_nil]
      cases hrest with
      | waits looks returns => exact absurd rfl returns
      | clear idle hclear =>
        refine .succeeds rfl (quiet.append ?_) (foundClear_of_settles idle hclear access)
        obtain ⟨word, hword, -⟩ := hclear
        exact unacknowledged_of_reads
          (by simpa [or_imp, forall_and] using ⟨idle.looks, hword.readsFrom⟩)
      | acknowledges _ _ _ _ hx => rcases hx with hx | ⟨hx, -⟩ <;> cases hx
    · cases e with
      | none =>
        cases hrest with
        | waits looks => exact .stops nofun (quiet.append (unacknowledged_of_reads looks))
        | acknowledges looks hlook hbits hack hx =>
          rw [← List.append_assoc]
          exact .acknowledges (quiet.append (unacknowledged_of_reads looks)) hlook hbits hack
            (hx.imp nofun fun h => ⟨rfl, h.2⟩)
      | some e =>
        cases hrest with
        | waits looks returns throws =>
          refine .stops (fun y hy => ?_) (quiet.append (unacknowledged_of_reads looks))
          obtain rfl := Option.some_inj.mp hy
          exact ⟨e, rfl, throws e rfl⟩
        | acknowledges looks hlook hbits hack hx =>
          rcases hx with hx | ⟨hx, -⟩
          · cases hx
            rw [← List.append_assoc]
            exact .acknowledges (quiet.append (unacknowledged_of_reads looks)) hlook hbits hack
              (.inl rfl)
          · cases hx
  · obtain ⟨access, rfl, hquiet⟩ := hlog
    exact .stops nofun (by simpa [Unacknowledged] using hquiet)

theorem enclosed {p : Procedure α} (h : d.Enclosable p) :
    Reporting bus failureOf (d.enclosed p).run := by
  refine waitIdle.operation fun _ => settled ?_
  cases h with
  | @write r h word =>
    have hack : r ≠ .errorAck := fun hr => absurd (hr ▸ h) (by decide)
    exact (Driver.yields_write r word).mono fun _ _ ⟨access, hlog, hsends, _⟩ =>
      ⟨access, hlog, fun h => hack (hsends.writesTo.eq h)⟩
  | send word =>
    exact (Driver.yields_writeWord _ word).mono fun _ _ ⟨access, hlog, hsends, _⟩ =>
      ⟨access, hlog, fun h => nomatch hsends.writesTo.eq h⟩
  | receive =>
    exact (Driver.yields_readWord _).mono fun _ _ ⟨access, hlog, hreads, _⟩ =>
      ⟨access, hlog, hreads.not_writesTo _⟩

theorem rest {call : Call} {op : Operation Unit} (h : d.Resting call op) :
    Reporting bus failureOf op.run := by
  cases h with
  | waitIdle => exact waitIdle
  | writeSettled h =>
    rw [← Driver.enclosed_write]
    exact enclosed (.write h.mem_checked _)

end Reporting

/-! ### The discipline -/

/-- Steps that are not part of a traced run. -/
def Scope.isUntraced : Scope → Bool
  | .calling call => !call.isTraced
  | .transferring => true
  | .following => false

/-- What keeps to the discipline ends as reported, but for traced runs. -/
theorem reporting_of_disciplined {d : Driver} {scope : Scope} {failure : α → Option DriverError}
    {p : Procedure α} (h : Disciplined d scope failure p) (hscope : scope.isUntraced = true) :
    Reporting bus failure p := by
  induction h with
  | done a h => exact .done h
  | spent => exact .spent
  | notify => exact fun _ => .succeeds rfl nofun throughout_nil
  | read h => exact .read h.ne_readData
  | write h =>
    obtain ⟨hr, hack⟩ := Sink.isFree_iff.mp h
    exact .write (fun hchecked => hr (Sink.guarded_of_checked hchecked)) hack _
  | rest h => exact .rest h
  | look h => exact (Reporting.rest h).operation fun _ => .lift (.read (by decide)) fun _ => .done nofun
  | glance => exact (Reporting.read (by decide)).andThen fun _ => .done nofun
  | settle => cases hscope
  | enclosed h => exact .enclosed h
  | transmit _ _ _ ih => exact ih rfl
  | receive _ _ _ _ ih => exact ih rfl
  | @entropy _ r h word =>
    have hwrite : Reporting bus (fun _ => none) (d.write r word) := by
      rcases h with rfl | rfl
      · exact .write (by decide) (by decide) word
      · exact .write (by decide) (by decide) word
    exact Reporting.waitIdle.operation fun _ => .lift hwrite fun _ => .waitIdle
  | pursue h =>
    -- A traced run may fail with an error of its own after its release has acknowledged others.
    rw [Scope.isUntraced, h] at hscope
    cases hscope
  | bind _ _ fails ih ihf => exact (ih hscope).bind (fun a ha => ihf a ha hscope) fails

/-! ### Operations -/

/-- How an operation deals with the errors that an engine shows it. -/
structure ErrorProtocol (failure : α → Option DriverError) (x : Option α) (log : List Access) :
    Prop where
  /-- Errors are acknowledged last, those that the status before has shown, and the operation
  fails with them. -/
  acknowledged : ∀ before ack after, log = before ++ ack :: after → ack.WritesTo .errorAck →
    after = [] ∧ ∃ earlier look bits, before = earlier ++ [look] ∧ look.Latched bits ∧ bits ≠ 0 ∧
      ack.Sends .errorAck (bits <<< 16) ∧
      (x.bind failure = some (.hardware bits) ∨ x = none ∧ ack.Refused)
  /-- It fails with errors of the engine's only if it has acknowledged them. -/
  reported : ∀ bits, x.bind failure = some (.hardware bits) → ∃ earlier look ack,
    log = earlier ++ [look, ack] ∧ look.Latched bits ∧ bits ≠ 0 ∧
      ack.Sends .errorAck (bits <<< 16)
  /-- If it succeeds, the engine has shown no error after any of its checked accesses. -/
  clear : ∀ a, x = some a → failure a = none → Throughout FoundClear log

theorem Reports.protocol {failure : α → Option DriverError} {x : Option α}
    {log : List Access} (h : Reports failure x log) : ErrorProtocol failure x log := by
  have hnoack {before after : List Access} {ack : Access} (quiet : Unacknowledged log)
      (hlog : log = before ++ ack :: after) (hack : ack.WritesTo .errorAck) : False :=
    quiet ack (by simp [hlog]) hack
  cases h with
  | succeeds h quiet clear =>
    refine ⟨fun _ _ _ hlog hack => (hnoack quiet hlog hack).elim, fun bits hbits => ?_,
      fun _ _ _ => clear⟩
    cases h.symm.trans hbits
  | stops h quiet =>
    refine ⟨fun _ _ _ hlog hack => (hnoack quiet hlog hack).elim, fun bits hbits => ?_,
      fun a ha hsucceeds => ?_⟩
    · obtain ⟨a, ha, hfailure⟩ := Option.bind_eq_some_iff.mp hbits
      obtain ⟨e, he, hsoft⟩ := h a ha
      cases he.symm.trans hfailure
      cases hsoft
    · obtain ⟨e, he, -⟩ := h a ha
      cases hsucceeds.symm.trans he
  | @acknowledges _ earlier look ack bits quiet hlook hbits hack h =>
    rw [Latch.ackWord_eq] at hack
    refine ⟨fun before ack' after hlog hwrites => ?_, fun bits' hfails => ?_, fun a ha hsucceeds => ?_⟩
    · have hlast : (earlier ++ [look]) ++ [ack] = before ++ ack' :: after := by simpa using hlog
      rcases mem_or_last hlast with hin | ⟨rfl, rfl, rfl⟩
      · obtain ⟨word, hword, -⟩ := hlook
        rcases List.mem_append.mp hin with hin | hin
        · exact absurd hwrites (quiet ack' hin)
        · obtain rfl := List.mem_singleton.mp hin
          exact absurd hwrites (hword.readsFrom.not_writesTo _)
      · exact ⟨rfl, earlier, look, bits, rfl, hlook, hbits, hack, h⟩
    · rcases h with h | ⟨rfl, -⟩
      · cases h.symm.trans hfails
        exact ⟨earlier, look, ack, rfl, hlook, hbits, hack⟩
      · cases hfails
    · rcases h with h | ⟨h, -⟩
      · rw [ha, Option.bind_some, hsucceeds] at h
        cases h
      · cases ha.symm.trans h

namespace Driver

/-- Whatever answers a driver, each of its operations keeps to the error protocol, but for traced
multiplications. -/
theorem errorProtocol (bus : Bus σ) (d : Driver) (s : σ) :
    ErrorProtocol failureOf (d.startUp.run.run bus s).1.result? (d.startUp.run.accesses bus s) ∧
      ∀ call : Call, call.isTraced = false →
        ErrorProtocol (fun answer => failureOf answer.result)
          ((call.perform d).run bus s).1.result? ((call.perform d).accesses bus s) := by
  refine ⟨?_, fun call huntraced => ?_⟩
  · exact (reporting_of_disciplined startUp_disciplined rfl s).protocol
  · exact (reporting_of_disciplined (perform_disciplined d call)
      (by rw [Scope.isUntraced, huntraced]; rfl) s).protocol

/-- Enabling the interrupt line succeeds if the status shows no error. If it shows one, even one
without a name, it is acknowledged in the end. -/
theorem errorProtocol_enableIrq :
    Throughout FoundClear
        ((Call.enableIrq.perform ⟨⟨.narrow, some 1⟩, 0⟩).accesses (.answering 0) ()) ∧
      ∃ earlier look ack, (Call.enableIrq.perform ⟨⟨.narrow, some 1⟩, 0⟩).accesses
          (.answering 0x80000000) () = earlier ++ [look, ack] ∧
        look.Latched 0x8000 ∧ (0x8000 : UInt32) ≠ 0 ∧ ack.Sends .errorAck ((0x8000 : UInt32) <<< 16) := by
  constructor
  · exact ((errorProtocol (.answering 0) ⟨⟨.narrow, some 1⟩, 0⟩ ()).2 .enableIrq rfl).clear _ rfl rfl
  · exact ((errorProtocol (.answering 0x80000000) ⟨⟨.narrow, some 1⟩, 0⟩ ()).2
      .enableIrq rfl).reported 0x8000 (by rfl)

end Driver

end CurveEngine
