import CurveEngine.Proofs.Dialogue

/-! The states that a run passes through.

Where an invariant speaks of the states at the ends of operations, `Passes` speaks of those in
between as well: what the error latch holds in each of them, where the run ends, and that errors
it fails with have been in the latch on the way. It is read along the text of a procedure like
`Ends`, and weakened step by step; a failure that is kept for later is found where it came from
(`Passes.bind`). -/
namespace CurveEngine
open Register Procedure Device

namespace Procedure
variable {σ α β : Type} {bus : Bus σ}

/-- The states that a run passes through, the first and the last included. -/
def states (bus : Bus σ) : Procedure α → σ → List σ
  | .done _, s => [s]
  | .load size offset next, s =>
    s :: match bus.read size offset s with
      | (.ok v, t) => (next v).states bus t
      | (.error _, t) => [t]
  | .store size offset value next, s =>
    s :: match bus.write size offset value s with
      | (.ok _, t) => (next ()).states bus t
      | (.error _, t) => [t]
  | .note notice next, s => s :: (next ()).states bus (bus.hear notice s)
  | .spent, s => [s]

theorem mem_states_self (p : Procedure α) (s : σ) : s ∈ p.states bus s := by
  cases p with
  | done | spent => exact List.mem_singleton.mpr rfl
  | load | store | note =>
    rw [states]
    exact List.mem_cons_self

theorem mem_states_bind (p : Procedure α) (f : α → Procedure β) (s u : σ) :
    u ∈ (p >>= f).states bus s ↔
      u ∈ p.states bus s ∨ ∃ a t, Ends bus p s a t ∧ u ∈ (f a).states bus t := by
  show u ∈ (p.bind f).states bus s ↔ _
  unfold Ends
  induction p generalizing s with
  | done a =>
    simp only [bind, states, run, List.mem_singleton, Prod.mk.injEq, Outcome.done.injEq]
    constructor
    · exact fun h => .inr ⟨a, s, ⟨rfl, rfl⟩, h⟩
    · rintro (rfl | ⟨_, _, ⟨rfl, rfl⟩, h⟩)
      · exact mem_states_self _ _
      · exact h
  | spent => simp [bind, states, run]
  | load size offset next ih =>
    rcases hanswer : bus.read size offset s with ⟨answer, t⟩
    cases answer with
    | ok v => simp only [bind, states, run, hanswer, List.mem_cons, ih, or_assoc]
    | error fault => simp [bind, states, run, hanswer]
  | store size offset value next ih =>
    rcases hanswer : bus.write size offset value s with ⟨answer, t⟩
    cases answer with
    | ok v => simp only [bind, states, run, hanswer, List.mem_cons, ih, or_assoc]
    | error fault => simp [bind, states, run, hanswer]
  | note notice next ih => simp only [bind, states, run, List.mem_cons, ih, or_assoc]

end Procedure

namespace Driver
variable {α β ρ : Type} {P : UInt32 → Prop} {s t : State}

/-- A run on an engine: `P` holds of the latch in every state that it passes through, `Q` where it
ends, and errors that it fails with have been in the latch. -/
structure Passes (P : UInt32 → Prop) (failure : α → Option DriverError) (Q : α → State → Prop)
    (p : Procedure α) (s : State) : Prop where
  throughout : ∀ t ∈ p.states bus s, P t.errors
  ends : ∀ a t, Ends bus p s a t → Q a t
  found : ∀ a t bits, Ends bus p s a t → failure a = some (.hardware bits) →
    bits ≠ 0 ∧ ∃ u ∈ p.states bus s, u.errors = bits

namespace Passes
variable {failure : α → Option DriverError} {failure' : β → Option DriverError}
  {Q : α → State → Prop} {Q' : β → State → Prop} {p : Procedure α}

theorem mono {Q' : α → State → Prop} (h : Passes P failure Q p s)
    (hQ : ∀ a t, Q a t → Q' a t) : Passes P failure Q' p s :=
  ⟨h.throughout, fun a t hend => hQ a t (h.ends a t hend), h.found⟩

/-- What is known of the end otherwise. -/
theorem and {Q' : α → State → Prop} (h : Passes P failure Q p s)
    (hQ : ∀ a t, Ends bus p s a t → Q' a t) : Passes P failure (fun a t => Q a t ∧ Q' a t) p s :=
  ⟨h.throughout, fun a t hend => ⟨h.ends a t hend, hQ a t hend⟩, h.found⟩

theorem pure {a : α} (hs : P s.errors) (ha : Q a s)
    (hsoft : ∀ e, failure a = some e → e.isHardware = false) : Passes P failure Q (pure a) s where
  throughout _ ht := List.mem_singleton.mp ht ▸ hs
  ends b t hend := by
    obtain ⟨rfl, rfl⟩ := (ends_pure a b s t).mp hend
    exact ha
  found b t bits hend hfails := by
    obtain ⟨rfl, rfl⟩ := (ends_pure a b s t).mp hend
    cases hsoft _ hfails

theorem spent (hs : P s.errors) : Passes P failure Q .spent s where
  throughout _ ht := List.mem_singleton.mp ht ▸ hs
  ends _ _ hend := nomatch hend
  found _ _ _ hend := nomatch hend

/-- What comes after fails as it does, or as what comes before has failed. -/
theorem bind {g : α → β → Option DriverError} {f : α → Procedure β}
    (hp : Passes P failure Q p s)
    (hf : ∀ a t, Q a t → Passes P (g a)
      (fun b u => Q' b u ∧ (failure' b = failure a ∨ failure' b = g a b)) (f a) t) :
    Passes P failure' Q' (p >>= f) s where
  throughout u hu := by
    rcases (mem_states_bind p f s u).mp hu with hu | ⟨a, t, hend, hu⟩
    · exact hp.throughout u hu
    · exact (hf a t (hp.ends a t hend)).throughout u hu
  ends b u hend := by
    obtain ⟨a, t, ha, hb⟩ := (ends_bind p f s u b).mp hend
    exact ((hf a t (hp.ends a t ha)).ends b u hb).1
  found b u bits hend hfails := by
    obtain ⟨a, t, ha, hb⟩ := (ends_bind p f s u b).mp hend
    have hrest := hf a t (hp.ends a t ha)
    rcases (hrest.ends b u hb).2 with hsame | hsame
    · obtain ⟨hbits, v, hv, hlatched⟩ := hp.found a t bits ha (hsame ▸ hfails)
      exact ⟨hbits, v, (mem_states_bind p f s v).mpr (.inl hv), hlatched⟩
    · obtain ⟨hbits, v, hv, hlatched⟩ := hrest.found b u bits hb (hsame ▸ hfails)
      exact ⟨hbits, v, (mem_states_bind p f s v).mpr (.inr ⟨a, t, ha, hv⟩), hlatched⟩

/-- A failure ends a sequence. -/
theorem sequence {f : α → Procedure β} (hp : Passes P failure Q p s)
    (hf : ∀ a t, Q a t → failure a = none → Passes P failure' Q' (f a) t)
    (fails : ∀ a t e, Q a t → failure a = some e → P t.errors ∧
      ∃ b, f a = Pure.pure b ∧ failure' b = some e ∧ Q' b t) :
    Passes P failure' Q' (p >>= f) s := by
  refine bind (g := fun a b => if failure a = none then failure' b else none) hp
    fun a t ha => ?_
  rcases hfailure : failure a with _ | e
  · exact (hf a t ha hfailure).mono fun b u hb => ⟨hb, .inr rfl⟩
  · obtain ⟨hlatch, b, hb, hfails, hQ⟩ := fails a t e ha hfailure
    rw [hb]
    exact pure hlatch ⟨hQ, .inl hfails⟩ (by simp)

theorem andThen {f : α → Procedure β} (hp : Passes P (fun _ => none) Q p s)
    (hf : ∀ a t, Q a t → Passes P failure' Q' (f a) t) : Passes P failure' Q' (p >>= f) s :=
  hp.sequence (fun a t ha _ => hf a t ha) fun _ _ _ _ h => nomatch h

/-- What is made of a result keeps its failure. -/
theorem map {g : α → β} (hp : Passes P failure Q p s) (hQ : ∀ a t, Q a t → P t.errors ∧ Q' (g a) t)
    (hg : ∀ a, failure' (g a) = failure a) :
    Passes P failure' Q' (p >>= fun a => Pure.pure (g a)) s := by
  refine hp.sequence (fun a t ha hnone => pure (hQ a t ha).1 (hQ a t ha).2 fun e he => ?_)
    fun a t e ha he => ⟨(hQ a t ha).1, g a, rfl, (hg a).trans he, (hQ a t ha).2⟩
  rw [hg, hnone] at he
  cases he

/-- Errors that are in the latch at the start have been there. -/
theorem raising (hp : Passes P (fun _ => none) Q p s)
    (hlatched : ∀ a t bits, Q a t → failure a = some (.hardware bits) →
      bits ≠ 0 ∧ s.errors = bits) : Passes P failure Q p s where
  throughout := hp.throughout
  ends := hp.ends
  found a t bits hend hfails := by
    obtain ⟨hbits, hs⟩ := hlatched a t bits (hp.ends a t hend) hfails
    exact ⟨hbits, s, mem_states_self p s, hs⟩

/-! ### Operations -/

/-- An operation that returns. -/
theorem returning {op : Operation α} {f : α → Operation β}
    {failure' : Except DriverError β → Option DriverError}
    {Q' : Except DriverError β → State → Prop}
    (hop : Passes P (fun _ => none) (fun x t => ∃ a, x = .ok a ∧ Q a t) op.run s)
    (hf : ∀ a t, Q a t → Passes P failure' Q' (f a).run t) :
    Passes P failure' Q' (op >>= f).run s := by
  rw [ExceptT.run_bind]
  refine hop.andThen ?_
  rintro _ t ⟨a, rfl, ha⟩
  exact hf a t ha

theorem operation {op : Operation α} {f : α → Operation β}
    {Q : Except DriverError α → State → Prop} {Q' : Except DriverError β → State → Prop}
    (hop : Passes P failureOf Q op.run s)
    (hf : ∀ a t, Q (.ok a) t → Passes P failureOf Q' (f a).run t)
    (fails : ∀ e t, Q (.error e) t → P t.errors ∧ Q' (.error e) t) :
    Passes P failureOf Q' (op >>= f).run s := by
  rw [ExceptT.run_bind]
  refine hop.sequence (fun x t hx hnone => ?_) fun x t e hx hsome => ?_
  · cases x with
    | ok a => exact hf a t hx
    | error e => cases hnone
  · cases x with
    | ok a => cases hsome
    | error e' => exact ⟨(fails e' t hx).1, .error e', rfl, hsome, (fails e' t hx).2⟩

theorem lift {f : α → Operation β} {failure' : Except DriverError β → Option DriverError}
    {Q' : Except DriverError β → State → Prop} (hp : Passes P (fun _ => none) Q p s)
    (hf : ∀ a t, Q a t → Passes P failure' Q' (f a).run t) :
    Passes P failure' Q' ((liftM p : Operation α) >>= f).run s := by
  rw [Operation.run_lift_bind]
  exact hp.andThen hf

theorem lifted {Q' : Except DriverError α → State → Prop} (hp : Passes P (fun _ => none) Q p s)
    (hQ : ∀ a t, Q a t → P t.errors ∧ Q' (.ok a) t) :
    Passes P failureOf Q' (liftM p : Operation α).run s := by
  show Passes P failureOf Q' (Except.ok <$> p) s
  rw [← bind_pure_comp]
  exact hp.map hQ fun _ => rfl

theorem throw {error : DriverError} {Q : Except DriverError α → State → Prop} (hs : P s.errors)
    (hsoft : error.isHardware = false) (ha : Q (.error error) s) :
    Passes P failureOf Q (throw error : Operation α).run s :=
  pure hs ha fun _ he => Option.some_inj.mp he ▸ hsoft

theorem notify {Q : Unit → State → Prop} {notice : Notice} (hs : P s.errors) (ha : Q () s) :
    Passes P (fun _ => none) Q (notify notice) s where
  throughout t ht := by
    simp only [Procedure.notify, states, List.mem_cons, List.not_mem_nil, or_false] at ht
    rcases ht with rfl | rfl
    · exact hs
    · exact hs
  ends a t hend := by
    obtain rfl := (ends_notify notice s t a).mp hend
    exact ha
  found _ _ _ _ h := nomatch h

theorem recording {op : Operation α} {f : α → Recording ρ β} {r : ρ}
    {Q : Except DriverError α → State → Prop} {Q' : Except DriverError β × ρ → State → Prop}
    (hop : Passes P failureOf Q op.run s)
    (hf : ∀ a t, Q (.ok a) t → Passes P (fun x => failureOf x.1) Q' ((f a).on r) t)
    (fails : ∀ e t, Q (.error e) t → P t.errors ∧ Q' (.error e, r) t) :
    Passes P (fun x => failureOf x.1) Q' (((liftM op : Recording ρ α) >>= f).on r) s := by
  rw [Recording.on_lift_bind]
  refine hop.sequence (fun x t hx hnone => ?_) fun x t e hx hsome => ?_
  · cases x with
    | ok a => exact hf a t hx
    | error e => cases hnone
  · cases x with
    | ok a => cases hsome
    | error e' => exact ⟨(fails e' t hx).1, (.error e', r), rfl, hsome, (fails e' t hx).2⟩

/-! ### Accesses -/

variable {d : Driver}

theorem onBus_onBus (d : Driver) (value : UInt64) :
    State.onBus d.accessSize (State.onBus d.accessSize value) = d.cut value := by
  unfold accessSize cut
  cases d.config.width with
  | narrow => exact lowHalf_lowHalf value
  | wide => exact swapHalves_swapHalves value

theorem readWord {Q : UInt64 → State → Prop} {r : Source} (hs : P s.errors)
    (ht : P (s.readSource r).2.errors) (hQ : Q (d.cut (s.readSource r).1) (s.readSource r).2) :
    Passes P (fun _ => none) Q (d.readWord r) s where
  throughout t hin := by
    have hread : bus.read d.accessSize r.offset s =
        (.ok (State.onBus d.accessSize (s.readSource r).1), (s.readSource r).2) := by
      simp only [bus, State.read, Source.ofOffset?_offset]
    simp only [readWord_eq, states, hread, List.mem_cons, List.not_mem_nil, or_false] at hin
    rcases hin with rfl | rfl | rfl
    · exact hs
    · exact ht
    · exact ht
  ends value t hend := by
    obtain ⟨rfl, rfl⟩ := (d.ends_readWord r value).mp hend
    exact hQ
  found _ _ _ _ h := nomatch h

theorem read {Q : UInt32 → State → Prop} {r : Source} (hs : P s.errors)
    (ht : P (s.readSource r).2.errors)
    (hQ : Q (s.readSource r).1.toUInt32 (s.readSource r).2) :
    Passes P (fun _ => none) Q (d.read r) s := by
  have hcut := d.toUInt32_cut (s.readSource r).1
  refine (readWord (Q := fun value t => t = (s.readSource r).2 ∧ value = d.cut (s.readSource r).1)
    hs ht ⟨rfl, rfl⟩).andThen ?_
  rintro _ _ ⟨rfl, rfl⟩
  exact pure ht (hcut ▸ hQ) fun _ h => nomatch h

/-- Looking at the status leaves the latch alone. -/
theorem status {Q : UInt32 → State → Prop} (hs : P s.errors)
    (hQ : Q s.readStatus.1 s.readStatus.2) : Passes P (fun _ => none) Q d.status s := by
  have hsource : s.readSource .status = (s.readStatus.1.toUInt64, s.readStatus.2) := rfl
  refine read ?_ ?_ ?_
  · exact hs
  · exact hs
  · rwa [hsource, UInt32.toUInt32_toUInt64]

theorem writeWord {Q : Unit → State → Prop} {r : Sink} {value : UInt64} (hs : P s.errors)
    (ht : P (s.writeSink r (d.cut value)).errors) (hQ : Q () (s.writeSink r (d.cut value))) :
    Passes P (fun _ => none) Q (d.writeWord r value) s where
  throughout t hin := by
    have hwrite : bus.write d.accessSize r.offset (State.onBus d.accessSize value) s =
        (.ok (), s.writeSink r (d.cut value)) := by
      simp only [bus, State.write, Sink.ofOffset?_offset, onBus_onBus]
    rw [writeWord_eq, states, states, show bus.hear _ s = s from rfl, hwrite] at hin
    simp only [states, List.mem_cons, List.not_mem_nil, or_false] at hin
    rcases hin with rfl | rfl | rfl
    · exact hs
    · exact hs
    · exact ht
  ends a t hend := by
    obtain rfl := (d.ends_writeWord r value a).mp hend
    exact hQ
  found _ _ _ _ h := nomatch h

theorem write {Q : Unit → State → Prop} {r : Sink} {word : UInt32} (hs : P s.errors)
    (ht : P (s.writeSink r word.toUInt64).errors) (hQ : Q () (s.writeSink r word.toUInt64)) :
    Passes P (fun _ => none) Q (d.write r word) s := by
  rw [← d.cut_toUInt64 word] at ht hQ
  exact writeWord hs ht hQ

/-! ### Waiting -/

/-- A poll keeps what its checks keep. -/
theorem pollUntil {check : Procedure Bool} {I R : State → Prop} (hI : ∀ u, I u → P u.errors)
    (hcheck : ∀ u, I u → Passes P (fun _ => none) (fun b v => I v ∧ (b = true → R v)) check u)
    (hs : I s) :
    Passes P failureOf (fun x t => I t ∧ (x = .ok () → R t)) (d.pollUntil check).run s := by
  have hpoll {exhausted : Operation Unit} (hexhausted : ∀ u, I u →
      Passes P failureOf (fun x t => I t ∧ (x = .ok () → R t)) exhausted.run u) (count : Nat) :
      ∀ u, I u → Passes P failureOf (fun x t => I t ∧ (x = .ok () → R t))
        (poll exhausted check count).run u := by
    induction count with
    | zero => exact hexhausted
    | succ count ih =>
      refine fun u hu => lift (hcheck u hu) fun b v hv => ?_
      cases b with
      | true => exact pure (hI v hv.1) ⟨hv.1, fun _ => hv.2 rfl⟩ fun _ h => nomatch h
      | false => exact ih v hv.1
  unfold Driver.pollUntil
  split
  · exact hpoll (fun u hu => throw (hI u hu) rfl ⟨hu, fun h => nomatch h⟩) _ s hs
  · exact hpoll (fun u hu => spent (hI u hu)) _ s hs

/-- A wait changes nothing but waiting times, and it ends at a patient driver, unless a
multiplication is in progress. -/
theorem waitIdle (hs : P s.errors) (hcoherent : s.Coherent) :
    Passes P failureOf (fun x t => t.Alike s ∧ t.Coherent ∧ t.warmup ≤ s.warmup ∧
      (x = .ok () → t.multiplying = false) ∧ (Awaitable d s → x = .ok ())) d.waitIdle.run s := by
  have hwait : Passes P failureOf (fun x t => (t.Alike s ∧ t.Coherent ∧ t.warmup ≤ s.warmup) ∧
      (x = .ok () → t.multiplying = false)) d.waitIdle.run s := by
    refine pollUntil (fun u hu => ?_) (fun u hu => ?_) ⟨.refl s, hcoherent, Nat.le_refl _⟩
    · rw [hu.1.field State.errors fun _ => rfl]
      exact hs
    · obtain ⟨halike, hu, hwarmup⟩ := hu
      have herrors : P u.errors := by
        rw [halike.field State.errors fun _ => rfl]
        exact hs
      refine (status herrors ⟨rfl, rfl⟩ (Q := fun word v => word = u.readStatus.1 ∧
        v = u.readStatus.2)).andThen ?_
      rintro _ _ ⟨rfl, rfl⟩
      refine pure herrors ⟨⟨u.settled_readStatus.trans halike, hu.readStatus,
        Nat.le_trans (Nat.sub_le _ _) hwarmup⟩, fun hidle => ?_⟩ fun _ h => nomatch h
      rw [State.busy_readStatus] at hidle
      show u.multiplying = false
      cases hm : u.multiplying with
      | false => rfl
      | true =>
        rw [hm, Bool.or_true] at hidle
        cases hidle
  have hreturns (x : Except DriverError Unit) (t : State) (hend : Ends bus d.waitIdle.run s x t)
      (hawaitable : Awaitable d s) : x = .ok () := by
    obtain ⟨u, hreturns, -⟩ := waitIdle_ends hawaitable
    exact (Ends.unique hreturns hend).1
  exact (hwait.and hreturns).mono fun x t h => ⟨h.1.1.1, h.1.1.2.1, h.1.1.2.2, h.1.2, h.2⟩

end Passes

end Driver

end CurveEngine
