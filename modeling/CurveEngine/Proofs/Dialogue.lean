import CurveEngine.Proofs.Accesses
import CurveEngine.Proofs.Conduct

/-! What a procedure says on a bus, whatever the bus answers.

`Yields` speaks of the outcome of a run and of its accesses together, from any state of any
bus, and is read along the text of a procedure. A property of single accesses and of what comes
before and after them holds throughout a log (`Throughout`); logs are joined as procedures are
sequenced. The operations at the bottom have logs of a known shape: a wait looks at the status
and returns as soon as it shows an idle engine (`yields_waitIdle`). -/
namespace CurveEngine
open Register Procedure Device

variable {σ α β : Type} {bus : Bus σ}

/-! ### Accesses -/

namespace Access

/-- The access loads a register, answered or not. -/
def ReadsFrom (r : Source) : Access → Prop
  | .read _ offset _ => offset = r.offset
  | .write .. => False

/-- The access stores to a register, answered or not. -/
def WritesTo (r : Sink) : Access → Prop
  | .read .. => False
  | .write _ offset _ _ => offset = r.offset

/-- The access is answered with a word from a register. -/
def Gets (r : Source) (word : UInt32) : Access → Prop
  | .read size offset (.ok value) => offset = r.offset ∧ (State.onBus size value).toUInt32 = word
  | _ => False

/-- The bus refuses the access. -/
def Refused : Access → Prop
  | .read _ _ (.error _) => True
  | .write _ _ _ (.error _) => True
  | _ => False

/-- A look at the status that shows a busy engine. -/
def Busy (access : Access) : Prop :=
  ∃ word, access.Gets .status word ∧ Status.busy.test word = true

/-- A look at the status that shows an idle engine. -/
def Idle (access : Access) : Prop :=
  ∃ word, access.Gets .status word ∧ Status.busy.test word = false

/-- A look at the status that shows these errors. -/
def Latched (bits : UInt32) (access : Access) : Prop :=
  ∃ word, access.Gets .status word ∧ Status.errors.get word = bits

variable {access : Access}

theorem Gets.readsFrom {r : Source} {word : UInt32} (h : access.Gets r word) :
    access.ReadsFrom r := by
  cases access with
  | write => exact h
  | read size offset answer =>
    cases answer with
    | ok value => exact h.1
    | error fault => exact h.elim

theorem Sends.writesTo {r : Sink} {word : UInt32} (h : access.Sends r word) :
    access.WritesTo r := by
  cases access with
  | read => exact h
  | write => exact h.1

theorem ReadsFrom.not_writesTo {r : Source} (h : access.ReadsFrom r) (r' : Sink) :
    ¬ access.WritesTo r' := by
  cases access with
  | read => exact id
  | write => exact h.elim

theorem WritesTo.not_readsFrom {r : Sink} (h : access.WritesTo r) (r' : Source) :
    ¬ access.ReadsFrom r' := fun h' => h'.not_writesTo r h

theorem ReadsFrom.eq {r r' : Source} (h : access.ReadsFrom r) (h' : access.ReadsFrom r') :
    r = r' := by
  cases access with
  | read => exact Source.eq_of_offset (h.symm.trans h')
  | write => exact h.elim

theorem WritesTo.eq {r r' : Sink} (h : access.WritesTo r) (h' : access.WritesTo r') : r = r' := by
  cases access with
  | read => exact h.elim
  | write => exact Sink.eq_of_offset (h.symm.trans h')

theorem ReadsFrom.not_listed (sinks : List Sink) {r : Source} (h : access.ReadsFrom r)
    (hr : r ≠ .readData) : ¬ ((∃ r ∈ sinks, access.WritesTo r) ∨ access.ReadsFrom .readData) := by
  rintro (⟨r', -, hwrites⟩ | hreads)
  · exact h.not_writesTo r' hwrites
  · exact hr (h.eq hreads)

theorem WritesTo.not_listed {sinks : List Sink} {r : Sink} (h : access.WritesTo r)
    (hr : r ∉ sinks) : ¬ ((∃ r ∈ sinks, access.WritesTo r) ∨ access.ReadsFrom .readData) := by
  rintro (⟨r', hr', hwrites⟩ | hreads)
  · exact hr (h.eq hwrites ▸ hr')
  · exact h.not_readsFrom _ hreads

end Access

/-- A bus that answers every load with the same word. -/
def Bus.answering (word : UInt64) : Bus Unit where
  read _ _ s := (.ok word, s)
  write _ _ _ s := (.ok (), s)
  hear _ s := s

/-! ### Logs -/

/-- Something holds of every access in a log, of what comes before it and of what comes after. -/
def Throughout (P : List Access → Access → List Access → Prop) (log : List Access) : Prop :=
  ∀ before access after, log = before ++ access :: after → P before access after

section Throughout
variable {P : List Access → Access → List Access → Prop} {log log' : List Access}

theorem throughout_nil : Throughout P [] := by
  intro before access after h
  simp at h

/-- What is shown of the accesses in the first part of a log, and true in the second, holds
throughout. -/
theorem throughout_append
    (left : ∀ before access after, log = before ++ access :: after →
      P before access (after ++ log'))
    (h' : Throughout P log')
    (right : ∀ before access after, P before access after → P (log ++ before) access after) :
    Throughout P (log ++ log') := by
  intro before access after hlog
  rcases List.append_eq_append_iff.mp hlog with ⟨middle, rfl, hrest⟩ | ⟨middle, hleft, hrest⟩
  · exact right _ _ _ (h' middle access after hrest)
  · cases middle with
    | nil =>
      rw [List.append_nil] at hleft
      subst hleft
      have hfirst := right [] access after (h' [] access after hrest.symm)
      rwa [List.append_nil] at hfirst
    | cons first middle =>
      obtain ⟨rfl, rfl⟩ := List.cons_eq_cons.mp hrest
      exact left before access middle hleft

/-- What is true of an access in either part of a log has to stay true in the whole. -/
theorem Throughout.append (h : Throughout P log) (h' : Throughout P log')
    (left : ∀ before access after, P before access after → P before access (after ++ log'))
    (right : ∀ before access after, P before access after → P (log ++ before) access after) :
    Throughout P (log ++ log') :=
  throughout_append (fun _ _ _ hlog => left _ _ _ (h _ _ _ hlog)) h' right

/-- An access in a log is one of the accesses before the last, or the last. -/
theorem mem_or_last {before after : List Access} {access last : Access}
    (h : log ++ [last] = before ++ access :: after) :
    access ∈ log ∨ after = [] ∧ before = log ∧ access = last := by
  rcases List.eq_nil_or_concat after with rfl | ⟨after, last', rfl⟩
  · obtain ⟨rfl, hlast⟩ := List.append_inj' h rfl
    exact .inr ⟨rfl, rfl, (List.singleton_inj.mp hlast).symm⟩
  · rw [List.concat_eq_append, ← List.cons_append, ← List.append_assoc] at h
    obtain ⟨rfl, -⟩ := List.append_inj' h rfl
    exact .inl (List.mem_append_right before List.mem_cons_self)

end Throughout

/-! ### Results and logs -/

/-- The result of a run that is done. -/
def Outcome.result? : Outcome α → Option α
  | .done a => some a
  | _ => none

namespace Procedure

/-- Wherever a run starts on the bus, its result, if it has one, goes with its log. -/
def Yields (bus : Bus σ) (Q : Option α → List Access → Prop) (p : Procedure α) : Prop :=
  ∀ s, Q (p.run bus s).1.result? (p.accesses bus s)

namespace Yields
variable {Q Q' : Option α → List Access → Prop} {p : Procedure α}

theorem mono (h : Yields bus Q p) (hQ : ∀ x log, Q x log → Q' x log) : Yields bus Q' p :=
  fun s => hQ _ _ (h s)

theorem pure {a : α} (h : Q (some a) []) : Yields bus Q (pure a) := fun _ => h

theorem bind {Q' : Option β → List Access → Prop} {f : α → Procedure β} (h : Yields bus Q p)
    (hdone : ∀ a log, Q (some a) log → Yields bus (fun x rest => Q' x (log ++ rest)) (f a))
    (hnone : ∀ log, Q none log → Q' none log) : Yields bus Q' (p >>= f) := by
  intro s
  have hp := h s
  have hrun : (p >>= f).run bus s = _ := run_bind bus p f s
  have hlog : (p >>= f).accesses bus s = _ := accesses_bind p f s
  rw [hrun, hlog]
  rcases hend : p.run bus s with ⟨x, t⟩
  rw [hend] at hp
  cases x with
  | done a => exact hdone a _ hp t
  | refused refusal =>
    rw [List.append_nil]
    exact hnone _ hp
  | spent =>
    rw [List.append_nil]
    exact hnone _ hp

end Yields

/-- Wherever a run starts on the bus, if it is done its result goes with its log. -/
def Finishes (bus : Bus σ) (Q : α → List Access → Prop) (p : Procedure α) : Prop :=
  Yields bus (fun x log => ∀ a ∈ x, Q a log) p

namespace Finishes
variable {Q Q' : α → List Access → Prop} {p : Procedure α}

theorem mono (h : Finishes bus Q p) (hQ : ∀ a log, Q a log → Q' a log) : Finishes bus Q' p :=
  Yields.mono h fun _ _ hx a ha => hQ a _ (hx a ha)

theorem of_yields {Q : Option α → List Access → Prop} (h : Yields bus Q p) :
    Finishes bus (fun a log => Q (some a) log) p :=
  h.mono fun _ _ hx _ ha => by rwa [Option.mem_def.mp ha] at hx

theorem of_avoids {P : Access → Prop} (h : Avoids bus P p) :
    Finishes bus (fun _ log => ∀ access ∈ log, ¬ P access) p :=
  fun s _ _ access haccess hP => h s ⟨access, haccess, hP⟩

theorem and (h : Finishes bus Q p) (h' : Finishes bus Q' p) :
    Finishes bus (fun a log => Q a log ∧ Q' a log) p := fun s a ha => ⟨h s a ha, h' s a ha⟩

theorem pure {a : α} (h : Q a []) : Finishes bus Q (pure a) := by
  intro s b hb
  obtain rfl := Option.some_inj.mp hb
  exact h

theorem bind {Q' : β → List Access → Prop} {f : α → Procedure β} (h : Finishes bus Q p)
    (hf : ∀ a log, Q a log → Finishes bus (fun b rest => Q' b (log ++ rest)) (f a)) :
    Finishes bus Q' (p >>= f) :=
  Yields.bind h (fun a log ha => hf a log (ha a rfl)) fun _ _ b hb => absurd hb (Option.not_mem_none b)

end Finishes

end Procedure

/-! ### Operations -/

namespace Operation

/-- An operation that throws, or that is not done, ends a sequence. -/
theorem yields_bind {Q : Option (Except DriverError α) → List Access → Prop}
    {Q' : Option (Except DriverError β) → List Access → Prop} {op : Operation α}
    {f : α → Operation β} (h : Yields bus Q op.run)
    (hok : ∀ a log, Q (some (.ok a)) log →
      Yields bus (fun x rest => Q' x (log ++ rest)) (f a).run)
    (hfails : ∀ (e : Option DriverError) log, Q (e.map .error) log → Q' (e.map .error) log) :
    Yields bus Q' (op >>= f).run := by
  rw [ExceptT.run_bind]
  refine h.bind (fun x log hx => ?_) (hfails none)
  cases x with
  | ok a => exact hok a log hx
  | error e =>
    refine Yields.pure ?_
    rw [List.append_nil]
    exact hfails (some e) log hx

theorem yields_lift_bind {Q : Option α → List Access → Prop}
    {Q' : Option (Except DriverError β) → List Access → Prop} {p : Procedure α}
    {f : α → Operation β} (h : Yields bus Q p)
    (hdone : ∀ a log, Q (some a) log → Yields bus (fun x rest => Q' x (log ++ rest)) (f a).run)
    (hnone : ∀ log, Q none log → Q' none log) :
    Yields bus Q' ((liftM p : Operation α) >>= f).run := by
  rw [run_lift_bind]
  exact h.bind hdone hnone

end Operation

namespace Driver
variable {d : Driver}

/-! ### Single accesses -/

/-- The width of the accesses of a driver. -/
def accessSize (d : Driver) : AccessSize :=
  match d.config.width with
  | .narrow => .word
  | .wide => .doubleWord

theorem readWord_eq (r : Source) :
    d.readWord r = .load d.accessSize r.offset fun value =>
      .note (.registerRead r.offset (State.onBus d.accessSize value)) fun _ =>
        .done (State.onBus d.accessSize value) := by
  unfold readWord accessSize
  cases d.config.width <;> rfl

theorem writeWord_eq (r : Sink) (value : UInt64) :
    d.writeWord r value = .note (.registerWrite r.offset value) fun _ =>
      .store d.accessSize r.offset (State.onBus d.accessSize value) .done := by
  unfold writeWord accessSize
  cases d.config.width <;> rfl

theorem toUInt32_onBus (size : AccessSize) (value : UInt64) :
    (State.onBus size (State.onBus size value)).toUInt32 = value.toUInt32 := by
  cases size with
  | word => simp only [State.onBus, toUInt32_lowHalf]
  | doubleWord => simp only [State.onBus, swapHalves_swapHalves]

theorem yields_readWord (r : Source) :
    Yields bus (fun x log => ∃ access, log = [access] ∧ access.ReadsFrom r ∧
      ∀ value ∈ x, access.Gets r value.toUInt32) (d.readWord r) := by
  intro s
  rw [readWord_eq]
  rcases hread : bus.read d.accessSize r.offset s with ⟨answer, t⟩
  simp only [run, accesses, hread]
  cases answer with
  | ok value =>
    refine ⟨_, rfl, rfl, fun value' hvalue => ?_⟩
    cases hvalue
    exact ⟨rfl, rfl⟩
  | error fault =>
    refine ⟨_, rfl, rfl, fun value' hvalue => ?_⟩
    cases hvalue

theorem yields_read (r : Source) :
    Yields bus (fun x log => ∃ access, log = [access] ∧ access.ReadsFrom r ∧
      ∀ word ∈ x, access.Gets r word) (d.read r) := by
  refine (yields_readWord r).bind (fun value log hlog => Yields.pure ?_) fun log hlog => ?_
  · obtain ⟨access, rfl, hreads, hgets⟩ := hlog
    refine ⟨access, rfl, hreads, fun word hword => ?_⟩
    cases hword
    exact hgets value rfl
  · obtain ⟨access, rfl, hreads, -⟩ := hlog
    exact ⟨access, rfl, hreads, nofun⟩

/-- A write that is not done has been refused. -/
theorem yields_writeWord (r : Sink) (value : UInt64) :
    Yields bus (fun x log => ∃ access, log = [access] ∧ access.Sends r value.toUInt32 ∧
      (x = none → access.Refused)) (d.writeWord r value) := by
  intro s
  rw [writeWord_eq]
  rcases hwrite : bus.write d.accessSize r.offset (State.onBus d.accessSize value)
    (bus.hear (.registerWrite r.offset value) s) with ⟨answer, t⟩
  simp only [run, accesses, hwrite]
  cases answer with
  | ok _ =>
    refine ⟨_, rfl, ⟨rfl, toUInt32_onBus _ _⟩, fun hrefused => ?_⟩
    cases hrefused
  | error fault => exact ⟨_, rfl, ⟨rfl, toUInt32_onBus _ _⟩, fun _ => trivial⟩

theorem yields_write (r : Sink) (word : UInt32) :
    Yields bus (fun x log => ∃ access, log = [access] ∧ access.Sends r word ∧
      (x = none → access.Refused)) (d.write r word) := by
  have hwrite : Yields bus _ _ := yields_writeWord (d := d) r word.toUInt64
  rwa [UInt32.toUInt32_toUInt64] at hwrite

/-! ### Waiting -/

/-- What polling for an idle engine looks like when it returns: looks that show it busy, and one
that shows it idle. -/
def EndsIdle (log : List Access) : Prop :=
  ∃ busy idle, log = busy ++ [idle] ∧ (∀ look ∈ busy, look.Busy) ∧ idle.Idle

/-- An operation that looks at the status only, until it shows an idle engine. It throws no error
of the engine's. -/
def Waits (x : Option (Except DriverError Unit)) (log : List Access) : Prop :=
  (∀ access ∈ log, access.ReadsFrom .status) ∧ (x = some (.ok ()) → EndsIdle log) ∧
    ∀ e, x = some (.error e) → e.isHardware = false

theorem yields_isIdle :
    Yields bus (fun x log => ∃ look, log = [look] ∧ look.ReadsFrom .status ∧
      ∀ b ∈ x, if b then look.Idle else look.Busy) d.isIdle := by
  refine (yields_read .status).bind (fun word log hlog => Yields.pure ?_) fun log hlog => ?_
  · obtain ⟨look, rfl, hreads, hgets⟩ := hlog
    refine ⟨look, rfl, hreads, fun b hb => ?_⟩
    cases hb
    cases hbusy : Status.busy.test word with
    | true => exact ⟨word, hgets word rfl, hbusy⟩
    | false => exact ⟨word, hgets word rfl, hbusy⟩
  · obtain ⟨look, rfl, hreads, -⟩ := hlog
    exact ⟨look, rfl, hreads, nofun⟩

theorem yields_waitIdle : Yields bus Waits d.waitIdle.run := by
  have hpoll {exhausted : Operation Unit} (hexhausted : Yields bus (fun x log => log = [] ∧
      x ≠ some (.ok ()) ∧ ∀ e, x = some (.error e) → e.isHardware = false) exhausted.run)
      (count : Nat) : Yields bus Waits (poll exhausted d.isIdle count).run := by
    induction count with
    | zero =>
      refine hexhausted.mono fun x log hx => ?_
      obtain ⟨rfl, hreturns, hthrows⟩ := hx
      exact ⟨by simp, fun h => absurd h hreturns, hthrows⟩
    | succ count ih =>
      refine Operation.yields_lift_bind yields_isIdle (fun b log hlog => ?_) fun log hlog => ?_
      · obtain ⟨look, rfl, hreads, hb⟩ := hlog
        have hlook := hb b rfl
        cases b with
        | true =>
          exact Yields.pure ⟨by simpa using hreads, fun _ => ⟨[], look, rfl, by simp, hlook⟩, nofun⟩
        | false =>
          refine ih.mono fun x rest hrest => ?_
          obtain ⟨hreads', hidle, hthrows⟩ := hrest
          refine ⟨by simpa using ⟨hreads, hreads'⟩, fun hx => ?_, hthrows⟩
          obtain ⟨busy, idle, rfl, hbusy, hidle⟩ := hidle hx
          exact ⟨look :: busy, idle, rfl, by simpa using ⟨hlook, hbusy⟩, hidle⟩
      · obtain ⟨look, rfl, hreads, -⟩ := hlog
        exact ⟨by simpa using hreads, nofun, nofun⟩
  unfold waitIdle pollUntil
  split
  · refine hpoll ?_ _
    refine Yields.pure ⟨rfl, nofun, fun e he => ?_⟩
    cases he
    rfl
  · exact hpoll (fun _ => ⟨rfl, by nofun, by nofun⟩) _

/-! ### Settling -/

/-- The three ways in which settling goes: it gives up or is cut off, it finds no error, or it
finds errors and acknowledges them. -/
inductive Settles : Option (Except DriverError Unit) → List Access → Prop
  | waits {x : Option (Except DriverError Unit)} {log : List Access}
      (looks : ∀ access ∈ log, access.ReadsFrom .status)
      (returns : x ≠ some (.ok ())) (throws : ∀ e, x = some (.error e) → e.isHardware = false) :
      Settles x log
  | clear {log : List Access} {clear : Access} (idle : EndsIdle log) (hclear : clear.Latched 0) :
      Settles (some (.ok ())) (log ++ [clear])
  | acknowledges {x : Option (Except DriverError Unit)} {log : List Access} {look ack : Access}
      {bits : UInt32} (looks : ∀ access ∈ log, access.ReadsFrom .status)
      (hlook : look.Latched bits) (hbits : bits ≠ 0)
      (hack : ack.Sends .errorAck (Latch.ackWord bits))
      (hx : x = some (.error (.hardware bits)) ∨ x = none ∧ ack.Refused) :
      Settles x (log ++ [look, ack])

theorem yields_report (latched : UInt32) :
    Yields bus (fun x log => x = some (.ok ()) ∧ log = []) (report latched).run := by
  have hnotify (notice : Notice) : Yields bus (fun x log => x = some (.ok ()) ∧ log = [])
      (liftM (notify notice) : Operation Unit).run := fun _ => ⟨rfl, rfl⟩
  have hall (errors : List HardwareError) : Yields bus (fun x log => x = some (.ok ()) ∧ log = [])
      (errors.forM fun error => (liftM (notify (.latched error)) : Operation Unit)).run := by
    induction errors with
    | nil => exact fun _ => ⟨rfl, rfl⟩
    | cons error rest ih =>
      refine Operation.yields_bind (hnotify _) (fun _ log hlog => ?_) fun e log hlog => ?_
      · rw [hlog.2]
        exact ih
      · cases e <;> cases hlog.1
  refine Operation.yields_bind (hall _) (fun _ log hlog => ?_) fun e log hlog => ?_
  · rw [hlog.2]
    split
    · exact fun _ => ⟨rfl, rfl⟩
    · exact hnotify _
  · cases e <;> cases hlog.1

theorem yields_settle : Yields bus Settles d.settle.run := by
  refine Operation.yields_bind yields_waitIdle (fun _ log hlog => ?_) fun e log hlog => ?_
  · obtain ⟨hlooks, hidle, -⟩ := hlog
    refine Operation.yields_lift_bind (yields_read .status) (fun word seen hseen => ?_)
      fun seen hseen => ?_
    · obtain ⟨look, rfl, -, hgets⟩ := hseen
      have hlook : look.Latched (Status.errors.get word) := ⟨word, hgets word rfl, rfl⟩
      dsimp only
      split
      · rename_i hclear
        rw [hclear] at hlook
        exact Yields.pure (.clear (hidle rfl) hlook)
      · rename_i hbits
        refine Operation.yields_bind (yields_report _) (fun _ quiet hquiet => ?_) fun e quiet hquiet => ?_
        · obtain rfl := hquiet.2
          refine Operation.yields_lift_bind (yields_write .errorAck _) (fun _ stored hstored => ?_)
            fun stored hstored => ?_
          · obtain ⟨ack, rfl, hack, -⟩ := hstored
            exact Yields.pure (.acknowledges hlooks hlook hbits hack (.inl rfl))
          · obtain ⟨ack, rfl, hack, hrefused⟩ := hstored
            exact .acknowledges hlooks hlook hbits hack (.inr ⟨rfl, hrefused rfl⟩)
        · cases e <;> cases hquiet.1
    · obtain ⟨look, rfl, hreads, -⟩ := hseen
      exact .waits (by simpa [or_imp, forall_and] using ⟨hlooks, hreads⟩) nofun nofun
  · refine .waits hlog.1 ?_ ?_
    · cases e <;> nofun
    · cases e with
      | none => nofun
      | some e =>
        intro e' he'
        cases he'
        exact hlog.2.2 e rfl

end Driver

end CurveEngine
