import CurveEngine.Proofs.Dialogue

/-! Guarded accesses come right after an idle status.

Whatever answers a driver, no register that an engine has to be idle for is written, and no data
word is read, unless the access before has shown the engine idle (`guarded_after_idle`). Every step
of the discipline has a log of this kind, and logs of this kind are joined to such a log
(`guards_of_disciplined`). -/
namespace CurveEngine
open Register Procedure

variable {σ α β ρ : Type} {bus : Bus σ}

/-- An access that an engine has to be idle for. -/
def Access.Guarded (access : Access) : Prop :=
  (∃ r ∈ Sink.guarded, access.WritesTo r) ∨ access.ReadsFrom .readData

/-- A guarded access comes right after a look at the status that shows an idle engine. -/
def ComesIdle (before : List Access) (access : Access) (_ : List Access) : Prop :=
  access.Guarded → ∃ earlier look, before = earlier ++ [look] ∧ look.Idle

theorem Access.ReadsFrom.not_guarded {access : Access} {r : Source} (h : access.ReadsFrom r)
    (hr : r ≠ .readData) : ¬ access.Guarded := h.not_listed Sink.guarded hr

theorem Access.WritesTo.not_guarded {access : Access} {r : Sink} (h : access.WritesTo r)
    (hr : r ∉ Sink.guarded) : ¬ access.Guarded := h.not_listed hr

/-! ### Logs -/

section Logs
variable {log log' : List Access}

theorem comesIdle_of_unguarded (h : ∀ access ∈ log, ¬ access.Guarded) :
    Throughout ComesIdle log := by
  intro before access after hlog hguarded
  exact absurd hguarded (h access (by simp [hlog]))

theorem comesIdle_append (h : Throughout ComesIdle log) (h' : Throughout ComesIdle log') :
    Throughout ComesIdle (log ++ log') := by
  refine h.append h' (fun _ _ _ hP => hP) fun before access after hP hguarded => ?_
  obtain ⟨earlier, look, rfl, hidle⟩ := hP hguarded
  exact ⟨log ++ earlier, look, by simp, hidle⟩

theorem Driver.EndsIdle.comesIdle (h : Driver.EndsIdle log) (hlooks : ∀ access ∈ log, ¬ access.Guarded)
    (access : Access) : Throughout ComesIdle (log ++ [access]) := by
  intro before access' after hlog hguarded
  rcases mem_or_last hlog with hin | ⟨-, rfl, rfl⟩
  · exact absurd hguarded (hlooks access' hin)
  · obtain ⟨busy, idle, hbefore, -, hidle⟩ := h
    exact ⟨busy, idle, hbefore, hidle⟩

theorem Driver.Settles.unguarded {x : Option (Except DriverError Unit)}
    (h : Driver.Settles x log) : ∀ access ∈ log, ¬ access.Guarded := by
  have hstatus {access : Access} (hreads : access.ReadsFrom .status) : ¬ access.Guarded :=
    hreads.not_guarded (by decide)
  have hgets {access : Access} {word : UInt32} (hword : access.Gets .status word) :
      ¬ access.Guarded := hstatus hword.readsFrom
  cases h with
  | waits looks => exact fun access hin => hstatus (looks access hin)
  | clear idle hclear =>
    obtain ⟨busy, idle, rfl, hbusy, word, hidle, -⟩ := idle
    obtain ⟨word', hclear, -⟩ := hclear
    intro access hin
    simp only [List.mem_append, List.mem_singleton] at hin
    rcases hin with (hin | rfl) | rfl
    · obtain ⟨_, hword, -⟩ := hbusy access hin
      exact hgets hword
    · exact hgets hidle
    · exact hgets hclear
  | acknowledges looks hlook hbits hack =>
    obtain ⟨word, hlook, -⟩ := hlook
    intro access hin
    simp only [List.mem_append, List.mem_cons, List.not_mem_nil, or_false] at hin
    rcases hin with hin | rfl | rfl
    · exact hstatus (looks access hin)
    · exact hgets hlook
    · exact hack.writesTo.not_guarded (by decide)

end Logs

/-! ### Procedures -/

/-- Wherever it starts, what the procedure guards comes right after an idle status. -/
def Guards (bus : Bus σ) (p : Procedure α) : Prop :=
  Yields bus (fun _ log => Throughout ComesIdle log) p

/-- One access, answered or not. -/
theorem yields_single_write {d : Driver} (r : Sink) (word : UInt32) :
    Yields bus (fun _ log => ∃ access, log = [access]) (d.write r word) :=
  (Driver.yields_write r word).mono fun _ _ ⟨access, hlog, _⟩ => ⟨access, hlog⟩

namespace Guards

theorem pure (a : α) : Guards bus (pure a) := fun _ => throughout_nil

theorem bind {p : Procedure α} {f : α → Procedure β} (h : Guards bus p)
    (hf : ∀ a, Guards bus (f a)) : Guards bus (p >>= f) :=
  Yields.bind h (fun a _ hlog => (hf a).mono fun _ _ hrest => comesIdle_append hlog hrest)
    fun _ hlog => hlog

theorem operation {op : Operation α} {f : α → Operation β} (h : Guards bus op.run)
    (hf : ∀ a, Guards bus (f a).run) : Guards bus (op >>= f).run :=
  Operation.yields_bind h (fun a _ hlog => (hf a).mono fun _ _ hrest => comesIdle_append hlog hrest)
    fun _ _ hlog => hlog

theorem lift {p : Procedure α} {f : α → Operation β} (h : Guards bus p)
    (hf : ∀ a, Guards bus (f a).run) : Guards bus ((liftM p : Operation α) >>= f).run := by
  rw [Operation.run_lift_bind]
  exact h.bind hf

variable {d : Driver}

theorem read {r : Source} (hr : r ≠ .readData) : Guards bus (d.read r) := by
  refine (Driver.yields_read r).mono fun x log hlog => ?_
  obtain ⟨access, rfl, hreads, -⟩ := hlog
  exact comesIdle_of_unguarded (by simpa using hreads.not_guarded hr)

theorem write {r : Sink} (hr : r ∉ Sink.guarded) (word : UInt32) : Guards bus (d.write r word) := by
  refine (Driver.yields_write r word).mono fun x log hlog => ?_
  obtain ⟨access, rfl, hsends, -⟩ := hlog
  exact comesIdle_of_unguarded (by simpa using hsends.writesTo.not_guarded hr)

theorem waitIdle : Guards bus d.waitIdle.run :=
  Driver.yields_waitIdle.mono fun _ _ hlog =>
    comesIdle_of_unguarded fun access hin => (hlog.1 access hin).not_guarded (by decide)

theorem settle : Guards bus d.settle.run :=
  Driver.yields_settle.mono fun _ _ hlog => comesIdle_of_unguarded hlog.unguarded

/-- Any single access may follow a wait. -/
theorem afterWait {p : Procedure α} {f : α → Procedure β} {log : List Access}
    (hp : Yields bus (fun _ seen => ∃ access, seen = [access]) p) (hf : ∀ a, Guards bus (f a))
    (hlog : Driver.Waits (some (.ok ())) log) :
    Yields bus (fun _ rest => Throughout ComesIdle (log ++ rest)) (p >>= f) := by
  have hunguarded : ∀ access ∈ log, ¬ access.Guarded :=
    fun access hin => (hlog.1 access hin).not_guarded (by decide)
  have hidle : Driver.EndsIdle log := hlog.2.1 rfl
  refine hp.bind (fun a seen hseen => ?_) fun seen hseen => ?_
  · obtain ⟨access, rfl⟩ := hseen
    refine (hf a).mono fun x rest hrest => ?_
    rw [← List.append_assoc]
    exact comesIdle_append (hidle.comesIdle hunguarded access) hrest
  · obtain ⟨access, rfl⟩ := hseen
    exact hidle.comesIdle hunguarded access

theorem access {p : Procedure α} {f : α → Operation β}
    (hp : Yields bus (fun _ log => ∃ access, log = [access]) p) (hf : ∀ a, Guards bus (f a).run) :
    Guards bus (do d.waitIdle; let a ← p; f a : Operation β).run := by
  refine Operation.yields_bind Driver.yields_waitIdle (fun _ log hlog => ?_) fun e log hlog => ?_
  · rw [Operation.run_lift_bind]
    exact afterWait hp hf hlog
  · exact comesIdle_of_unguarded fun access hin => (hlog.1 access hin).not_guarded (by decide)

theorem enclosed {p : Procedure α} (h : d.Enclosable p) : Guards bus (d.enclosed p).run := by
  refine access ?_ fun a => settle.operation fun _ => pure _
  cases h with
  | write _ word => exact yields_single_write _ word
  | send word => exact (Driver.yields_writeWord _ word).mono fun _ _ ⟨access, hlog, _⟩ => ⟨access, hlog⟩
  | receive => exact (Driver.yields_readWord _).mono fun _ _ ⟨access, hlog, _⟩ => ⟨access, hlog⟩

end Guards

/-! ### The discipline -/

theorem Guards.rest {d : Driver} {call : Call} {op : Operation Unit} (h : d.Resting call op) :
    Guards bus op.run := by
  cases h with
  | waitIdle => exact waitIdle
  | writeSettled h =>
    rw [← Driver.enclosed_write]
    exact enclosed (.write h.mem_checked _)

theorem Guards.startAndFollow {d : Driver} {layout : LimbLayout} (t : Trace)
    (follow : Guards bus ((d.followRun layout).on t)) (release : Guards bus d.release.run) :
    Guards bus ((d.startAndFollow layout).on t) := by
  rw [Driver.startAndFollow, Recording.on_lift_bind]
  refine Yields.bind Driver.yields_waitIdle (fun x log hlog => ?_) fun log hlog => ?_
  · cases x with
    | error e =>
      refine Yields.pure ?_
      rw [List.append_nil]
      exact comesIdle_of_unguarded fun access hin => (hlog.1 access hin).not_guarded (by decide)
    | ok _ =>
      simp only [Recording.on_procedure_bind]
      refine Guards.afterWait (yields_single_write _ _) (fun _ => ?_) hlog
      rw [Driver.followAndRelease_on]
      exact follow.bind fun _ => release.bind fun _ => Guards.bind (fun _ => throughout_nil)
        fun _ => .pure _
  · exact comesIdle_of_unguarded fun access hin => (hlog.1 access hin).not_guarded (by decide)

/-- What keeps to the discipline guards its accesses. -/
theorem guards_of_disciplined {d : Driver} {scope : Scope} {failure : α → Option DriverError}
    {p : Procedure α} (h : Disciplined d scope failure p) : Guards bus p := by
  induction h with
  | done a => exact .pure a
  | spent => exact fun _ => throughout_nil
  | notify => exact fun _ => throughout_nil
  | read h => exact .read h.ne_readData
  | write h => exact .write (Sink.isFree_iff.mp h).1 _
  | rest h => exact .rest h
  | look h => exact (Guards.rest h).operation fun _ => .lift (.read (by decide)) fun _ => .pure _
  | glance => exact (Guards.read (by decide)).bind fun _ => .pure _
  | settle => exact .settle
  | enclosed h => exact .enclosed h
  | transmit _ _ _ ih => exact ih
  | receive _ _ _ _ ih => exact ih
  | entropy _ word => exact .access (yields_single_write _ word) fun _ => .waitIdle
  | pursue _ address layout t _ _ _ arm follow release =>
    rw [Recording.on_lift_bind]
    refine arm.bind fun x => ?_
    cases x with
    | error e => exact .pure _
    | ok _ => exact .startAndFollow t follow release
  | @bind _ _ _ failure _ _ _ _ _ fails ih ihf =>
    refine ih.bind fun a => ?_
    rcases hfailure : failure a with _ | e
    · exact ihf a hfailure
    · obtain ⟨b, hb, -⟩ := fails a e hfailure
      rw [hb]
      exact .pure b

namespace Driver

/-- Whatever a driver is asked to do, and whatever answers it, the accesses that it guards come
right after an idle status. -/
theorem guarded_after_idle (bus : Bus σ) (d : Driver) (s : σ) :
    Throughout ComesIdle (d.startUp.run.accesses bus s) ∧
      ∀ call : Call, Throughout ComesIdle ((call.perform d).accesses bus s) :=
  ⟨guards_of_disciplined startUp_disciplined s,
    fun call => guards_of_disciplined (perform_disciplined d call) s⟩

/-- On a bus that answers zero, the interrupt line is enabled right after the first look. -/
example :
    (Call.enableIrq.perform ⟨⟨.narrow, some 1⟩, 0⟩).accesses (.answering 0) () =
    [.read .word Source.status.offset (.ok 0), .write .word Sink.irq.offset 1 (.ok ()),
      .read .word Source.status.offset (.ok 0), .read .word Source.status.offset (.ok 0)] := by
  rfl

end Driver

end CurveEngine
