import CurveEngine.Proofs.Dialogue
import CurveEngine.Proofs.Holding

/-! A token masks one result.

A `History` is all that is asked of an engine from power-up on; its accesses are named by
their positions. A token lives from the access that generates it to the next one that ends
its life: a later token, a soft reset, or the completion of a multiplication
(`History.Holds`). By induction over the positions, the token that an engine has is the one
that is held, and it has none if nothing was generated since the last of these
(`held_or_bare`); likewise the run in progress is the one that was started last
(`run_started`). So each completion takes the token that is held there, and leaves none
(`token_masks_once`). -/
namespace CurveEngine.Device
open Register State

/-- What an engine is asked for, from power-up on. -/
structure History where
  params : Parameters
  entropy : Nat → UInt8
  requests : List Request

namespace History

/-- The engine when it is asked for the access at a position. -/
def engine (h : History) (n : Nat) : State :=
  (State.powerUp h.params h.entropy).serveAll (h.requests.take n)

/-- The access at a position has a property. -/
def Asks (h : History) (n : Nat) (P : Request → Prop) : Prop :=
  ∃ request, h.requests[n]? = some request ∧ P request

/-- The access generates a token. -/
def Generates (h : History) (n : Nat) : Prop := h.Asks n (Request.Writes .token)

/-- The token that is generated at a position. -/
def generated (h : History) (n : Nat) : Nat := ((h.engine n).draw (h.engine n).size .axi).1

/-- The access resets the engine. -/
def Resets (h : History) (n : Nat) : Prop := h.Asks n (Request.Writes .softReset)

/-- The access starts a multiplication. -/
def Begins (h : History) (n : Nat) : Prop := h.Asks n (h.engine n).Starts

/-- The access goes on with a run, the one that it starts or the one in progress. -/
def Executes (h : History) (n : Nat) (run : LadderRun) : Prop :=
  h.Asks n fun request => (h.engine n).Executes request run

/-- The access goes on with a run, and afterwards no multiplication is in progress. -/
def Completes (h : History) (n : Nat) (run : LadderRun) : Prop :=
  h.Executes n run ∧ (h.engine (n + 1)).multiplying = false

/-- The access resets the engine or completes a multiplication. -/
def Ends (h : History) (n : Nat) : Prop := h.Resets n ∨ ∃ run, h.Completes n run

/-- The multiplication that is in progress at position `n`, or starts there, is the one that
was started at `k`. -/
structure Runs (h : History) (k n : Nat) : Prop where
  begins : h.Begins k
  le : k ≤ n
  lasts : ∀ j < n, k ≤ j → ¬h.Ends j

/-- The latest token before position `n` was generated at `i`, since the last completion or
reset. -/
structure Holds (h : History) (i n : Nat) : Prop where
  generates : h.Generates i
  lt : i < n
  latest : ∀ k < n, i < k → ¬h.Generates k
  lasts : ∀ k < n, i < k → ¬h.Ends k

/-- No token was generated since the last completion or reset before position `n`. -/
def Bare (h : History) (n : Nat) : Prop :=
  ∀ i < n, h.Generates i → ∃ k < n, i < k ∧ h.Ends k

/-- The token that was generated at `i` is there for the completion at `n`. -/
def Spends (h : History) (i n : Nat) : Prop := h.Holds i n ∧ ∃ run, h.Completes n run

/-- What is read at position `l` belongs to the transfer of the token that is asked for at `m`. -/
structure ReadsToken (h : History) (m l : Nat) : Prop where
  asks : h.Asks m (Request.Commands AsksToken)
  lt : m < l
  transfer : ∀ k < l, m < k → ¬h.Asks k (Request.Writes .control)

variable {h : History} {n : Nat} {run : LadderRun}

/-! ### From one position to the next -/

theorem engine_succ {request : Request} (hrequest : h.requests[n]? = some request) :
    h.engine (n + 1) = (h.engine n).serve request := by
  rw [engine, List.take_add_one, hrequest, serveAll, List.foldl_append]
  rfl

theorem engine_end (hend : h.requests[n]? = none) : h.engine (n + 1) = h.engine n := by
  rw [engine, List.take_add_one, hend, Option.toList_none, List.append_nil]
  rfl

theorem orderly_engine (h : History) (n : Nat) : (h.engine n).Orderly :=
  ((Reachable.powerUp h.params h.entropy).serveAll _).orderly

/-- What happens between two positions. -/
theorem succ_cases (h : History) (n : Nat) :
    h.Generates n ∨ h.Resets n ∨ (∃ run, h.Executes n run) ∨
      (h.engine (n + 1)).holding = (h.engine n).holding := by
  cases hrequest : h.requests[n]? with
  | none =>
    rw [engine_end hrequest]
    exact .inr (.inr (.inr rfl))
  | some request =>
    rw [engine_succ hrequest]
    rcases serve_cases (h.orderly_engine n) request with hwrites | hwrites | ⟨run, hexecutes⟩ | hkept
    · exact .inl ⟨request, hrequest, hwrites⟩
    · exact .inr (.inl ⟨request, hrequest, hwrites⟩)
    · exact .inr (.inr (.inl ⟨run, request, hrequest, hexecutes⟩))
    · exact .inr (.inr (.inr hkept))

theorem Generates.holding (hn : h.Generates n) :
    (h.engine (n + 1)).holding = (some (h.generated n), (h.engine n).sequencer.run) := by
  obtain ⟨request, hrequest, hwrites⟩ := hn
  rw [engine_succ hrequest, holding_token hwrites]
  rfl

theorem Resets.holding (hn : h.Resets n) : (h.engine (n + 1)).holding = (none, none) := by
  obtain ⟨request, hrequest, hwrites⟩ := hn
  rw [engine_succ hrequest, holding_softReset hwrites]

theorem Executes.brought (hn : h.Executes n run) :
    (h.engine (n + 1)).Brought (h.engine n).token (h.engine n).mask run.result := by
  obtain ⟨request, hrequest, hexecutes⟩ := hn
  rw [engine_succ hrequest]
  exact hexecutes.brought (h.orderly_engine n)

/-! ### What ends the life of a token -/

/-- A multiplication that is over has delivered its result and left no token. -/
theorem Completes.delivers (hn : h.Completes n run) :
    (h.engine (n + 1)).token = none ∧ (h.engine (n + 1)).Receives run.result (h.engine n).mask := by
  obtain ⟨hexecutes, hresting⟩ := hn
  cases hexecutes.brought with
  | halted hrun =>
    rw [multiplying, hrun] at hresting
    cases hresting
  | delivered hrun htoken hreceives => exact ⟨htoken, hreceives⟩

theorem Ends.token (hn : h.Ends n) : (h.engine (n + 1)).token = none := by
  rcases hn with hreset | ⟨run, hcompletes⟩
  · exact congrArg Prod.fst hreset.holding
  · exact hcompletes.delivers.1

theorem Ends.resting (hn : h.Ends n) : (h.engine (n + 1)).multiplying = false := by
  rcases hn with hreset | ⟨run, hcompletes⟩
  · rw [multiplying, show (h.engine (n + 1)).sequencer.run = none from congrArg Prod.snd hreset.holding]
    rfl
  · exact hcompletes.2

/-- An access that generates a token ends the life of none by a completion or a reset. -/
theorem Generates.not_ends (hn : h.Generates n) : ¬h.Ends n := by
  intro hends
  have htoken : (h.engine (n + 1)).token = some (h.generated n) := congrArg Prod.fst hn.holding
  rw [hends.token] at htoken
  cases htoken

/-- Any other access keeps the token. -/
theorem token_succ (hgenerates : ¬h.Generates n) (hends : ¬h.Ends n) :
    (h.engine (n + 1)).token = (h.engine n).token := by
  rcases h.succ_cases n with hn | hn | ⟨run, hn⟩ | hn
  · exact absurd hn hgenerates
  · exact absurd (.inl hn) hends
  · cases hn.brought with
    | halted _ _ htoken => exact htoken
    | delivered hrun =>
      refine absurd (.inr ⟨run, hn, ?_⟩) hends
      rw [multiplying, hrun]
      rfl
  · exact congrArg Prod.fst hn

/-- A run that is in progress was executed by the last access, or in progress before it. -/
theorem run_succ (hrun : (h.engine (n + 1)).sequencer.run = some run) :
    (∃ earlier, h.Executes n earlier ∧ run.result = earlier.result) ∨
      (h.engine n).sequencer.run = some run := by
  rcases h.succ_cases n with hn | hn | ⟨earlier, hn⟩ | hn
  · exact .inr ((congrArg Prod.snd hn.holding).symm.trans hrun)
  · cases hrun.symm.trans (congrArg Prod.snd hn.holding)
  · refine .inl ⟨earlier, hn, ?_⟩
    cases hn.brought with
    | halted hlater hresult =>
      obtain rfl := Option.some.inj (hrun.symm.trans hlater)
      exact hresult
    | delivered hnone => cases hrun.symm.trans hnone
  · exact .inr ((congrArg Prod.snd hn).symm.trans hrun)

/-! ### Over a whole history -/

theorem Holds.succ {i : Nat} (hi : h.Holds i n) (hgenerates : ¬h.Generates n) (hends : ¬h.Ends n) :
    h.Holds i (n + 1) where
  generates := hi.generates
  lt := Nat.lt_succ_of_lt hi.lt
  latest := Nat.forall_lt_succ_right.mpr ⟨hi.latest, fun _ => hgenerates⟩
  lasts := Nat.forall_lt_succ_right.mpr ⟨hi.lasts, fun _ => hends⟩

theorem Bare.succ (hn : h.Bare n) (hgenerates : ¬h.Generates n) : h.Bare (n + 1) := by
  refine Nat.forall_lt_succ_right.mpr ⟨fun i hin hi => ?_, fun hi => absurd hi hgenerates⟩
  obtain ⟨k, hkn, hends⟩ := hn i hin hi
  exact ⟨k, Nat.lt_succ_of_lt hkn, hends⟩

theorem Ends.bare (hn : h.Ends n) : h.Bare (n + 1) :=
  Nat.forall_lt_succ_right.mpr
    ⟨fun _ hin _ => ⟨n, Nat.lt_succ_self n, hin, hn⟩, fun hi => absurd hn hi.not_ends⟩

theorem Generates.holds (hn : h.Generates n) : h.Holds n (n + 1) where
  generates := hn
  lt := Nat.lt_succ_self n
  latest _ hk hnk := absurd hnk (Nat.not_lt.mpr (Nat.le_of_lt_succ hk))
  lasts _ hk hnk := absurd hnk (Nat.not_lt.mpr (Nat.le_of_lt_succ hk))

theorem Begins.runs (hn : h.Begins n) : h.Runs n n where
  begins := hn
  le := Nat.le_refl n
  lasts _ hj hnj := absurd hj (Nat.not_lt.mpr hnj)

theorem Runs.succ {k : Nat} (hk : h.Runs k n) (hends : ¬h.Ends n) : h.Runs k (n + 1) where
  begins := hk.begins
  le := Nat.le_succ_of_le hk.le
  lasts := Nat.forall_lt_succ_right.mpr ⟨hk.lasts, fun _ => hends⟩

/-- **The token of an engine is the one that is held**: the latest to be generated since the
last completion or reset. It has none if there is no such token. -/
theorem held_or_bare (h : History) (n : Nat) :
    (∃ i, h.Holds i n ∧ (h.engine n).token = some (h.generated i)) ∨
      h.Bare n ∧ (h.engine n).token = none := by
  induction n with
  | zero => exact .inr ⟨fun _ hi => absurd hi (Nat.not_lt_zero _), rfl⟩
  | succ n ih =>
    by_cases hgenerates : h.Generates n
    · exact .inl ⟨n, hgenerates.holds, congrArg Prod.fst hgenerates.holding⟩
    by_cases hends : h.Ends n
    · exact .inr ⟨hends.bare, hends.token⟩
    rw [token_succ hgenerates hends]
    rcases ih with ⟨i, hi, htoken⟩ | ⟨hbare, htoken⟩
    · exact .inl ⟨i, hi.succ hgenerates hends, htoken⟩
    · exact .inr ⟨hbare.succ hgenerates, htoken⟩

/-- The run that an access goes on with is the one that was started last. -/
theorem Executes.started (hn : h.Executes n run)
    (hprogress : ∀ run, (h.engine n).sequencer.run = some run →
      ∃ k, h.Runs k n ∧ run.result = (LadderRun.start (h.engine k).begun.inputs).result) :
    ∃ k, h.Runs k n ∧ run.result = (LadderRun.start (h.engine k).begun.inputs).result := by
  obtain ⟨request, hrequest, hexecutes⟩ := hn
  cases hexecutes with
  | start hstarts =>
    have hbegins : h.Begins n := ⟨request, hrequest, hstarts⟩
    exact ⟨n, hbegins.runs, rfl⟩
  | goOn _ hrun => exact hprogress run hrun

/-- **The run in progress is the one that was started last**, and it has its result. -/
theorem run_started (h : History) (n : Nat) (run : LadderRun)
    (hrun : (h.engine n).sequencer.run = some run) :
    ∃ k, h.Runs k n ∧ run.result = (LadderRun.start (h.engine k).begun.inputs).result := by
  induction n generalizing run with
  | zero => cases hrun
  | succ n ih =>
    have hends : ¬h.Ends n := by
      intro hends
      have hresting := hends.resting
      rw [multiplying, hrun] at hresting
      cases hresting
    rcases run_succ hrun with ⟨earlier, hn, hresult⟩ | hearlier
    · obtain ⟨k, hk, hstarted⟩ := hn.started ih
      exact ⟨k, hk.succ hends, hresult.trans hstarted⟩
    · obtain ⟨k, hk, hstarted⟩ := ih run hearlier
      exact ⟨k, hk.succ hends, hstarted⟩

/-- What is held after a completion was generated after it. -/
theorem Holds.after {i m : Nat} (hi : h.Holds i m) (hn : h.Completes n run) (hnm : n < m) :
    n < i := by
  by_contra hle
  rcases Nat.lt_or_eq_of_le (Nat.not_lt.mp hle) with hin | rfl
  · exact hi.lasts n hnm hin (.inr ⟨run, hn⟩)
  · exact hi.generates.not_ends (.inr ⟨run, hn⟩)

/-- After a completion there is no token until one is generated. -/
theorem Completes.token (hn : h.Completes n run) {m : Nat} (hnm : n < m)
    (hnone : ∀ k < m, n < k → ¬h.Generates k) : (h.engine m).token = none := by
  rcases h.held_or_bare m with ⟨i, hi, -⟩ | ⟨-, htoken⟩
  · exact absurd hi.generates (hnone i hi.lt (hi.after hn hnm))
  · exact htoken

/-- A transfer of the token that is asked for when there is none yields zeros. -/
theorem ReadsToken.silent {m l : Nat} (hread : h.ReadsToken m l)
    (htoken : (h.engine m).token = none) : (h.engine l).Silent := by
  obtain ⟨hasks, hlt, htransfer⟩ := hread
  induction l, hlt using Nat.le_induction with
  | base =>
    obtain ⟨request, hrequest, hcommands⟩ := hasks
    rw [engine_succ hrequest]
    exact silent_serve (h.orderly_engine m) htoken hcommands
  | succ l hml ih =>
    obtain ⟨hearlier, hlast⟩ := Nat.forall_lt_succ_right.mp htransfer
    have hl := ih hearlier
    cases hrequest : h.requests[l]? with
    | none => rwa [engine_end hrequest]
    | some request =>
      rw [engine_succ hrequest]
      exact hl.serve fun hwrites => hlast hml ⟨request, hrequest, hwrites⟩

/-- What a completion does with the token that is held, or without one. -/
theorem Completes.masked (hn : h.Completes n run) (hmask : (h.engine n).tokenMask = true) :
    (∃ i, h.Holds i n ∧ (h.engine (n + 1)).Receives run.result (h.generated i)) ∨
      h.Bare n ∧ (h.engine (n + 1)).Receives run.result 0 := by
  have hreceives := hn.delivers.2
  rw [mask, if_pos hmask] at hreceives
  rcases h.held_or_bare n with ⟨i, hi, htoken⟩ | ⟨hbare, htoken⟩
  · rw [htoken] at hreceives
    exact .inl ⟨i, hi, hreceives⟩
  · rw [htoken] at hreceives
    exact .inr ⟨hbare, hreceives⟩

theorem Completes.unmasked (hn : h.Completes n run) (hmask : (h.engine n).tokenMask = false) :
    (h.engine (n + 1)).Receives run.result 0 := by
  have hreceives := hn.delivers.2
  rwa [mask, hmask, if_neg Bool.false_ne_true] at hreceives

/-- A token is there for one completion only. -/
theorem Spends.unique {i n' : Nat} (hn : h.Spends i n) (hn' : h.Spends i n') : n = n' := by
  obtain ⟨hi, run, hcompletes⟩ := hn
  obtain ⟨hi', run', hcompletes'⟩ := hn'
  rcases Nat.lt_trichotomy n n' with hlt | rfl | hlt
  · exact absurd (hi'.after hcompletes hlt) (Nat.lt_asymm hi.lt)
  · rfl
  · exact absurd (hi.after hcompletes' hlt) (Nat.lt_asymm hi'.lt)

/-- A multiplication that is no longer in progress was thrown away or completed. -/
theorem ends_of_resting (hbusy : (h.engine n).multiplying = true)
    (hresting : (h.engine (n + 1)).multiplying = false) : h.Ends n := by
  have hkept (hsame : (h.engine (n + 1)).sequencer.run = (h.engine n).sequencer.run) : h.Ends n := by
    rw [multiplying, hsame, ← multiplying, hbusy] at hresting
    cases hresting
  rcases h.succ_cases n with hn | hn | ⟨run, hn⟩ | hn
  · exact hkept (congrArg Prod.snd hn.holding)
  · exact .inl hn
  · exact .inr ⟨run, hn, hresting⟩
  · exact hkept (congrArg Prod.snd hn)

end History

/-- **One token masks at most one result.** Whatever is asked of an engine from power-up on,
each multiplication that completes is the one that was started last, and its result arrives in
R1: under the latest token generated since the last completion or soft reset, plain if there
was none, and plain if masking is off. Then there is no token, and a transfer of it yields zeros,
until another is generated. No token is there for two completions, and a multiplication in
progress ends by a completion or by a reset. -/
theorem token_masks_once (h : History) :
    (∀ n run, h.Completes n run →
      (∃ k, h.Runs k n ∧ run.result = (LadderRun.start (h.engine k).begun.inputs).result) ∧
      ((h.engine n).tokenMask = true →
        (∃ i, h.Holds i n ∧ (h.engine (n + 1)).Receives run.result (h.generated i)) ∨
          h.Bare n ∧ (h.engine (n + 1)).Receives run.result 0) ∧
      ((h.engine n).tokenMask = false → (h.engine (n + 1)).Receives run.result 0) ∧
      ∀ m, n < m → (∀ k < m, n < k → ¬h.Generates k) →
        (h.engine m).token = none ∧
          ∀ l size, h.ReadsToken m l →
            ((h.engine l).read size Source.readData.offset).1 = .ok 0) ∧
    (∀ i n n', h.Spends i n → h.Spends i n' → n = n') ∧
    ∀ n, (h.engine n).multiplying = true → (h.engine (n + 1)).multiplying = false → h.Ends n := by
  refine ⟨fun n run hn => ⟨?_, hn.masked, hn.unmasked, fun m hnm hnone => ?_⟩,
    fun i n n' hn hn' => hn.unique hn', fun n => h.ends_of_resting⟩
  · exact hn.1.started (h.run_started n)
  · have htoken := hn.token hnm hnone
    exact ⟨htoken, fun l size hread => (hread.silent htoken).read size⟩

/-- The small engine with the random bytes 1, 2, 3 and so on. It generates a token, halts a
multiplication on its first opcode, generates another token, refuses a second multiplication,
and lets the first go on to its end. -/
def redrawn97 : History where
  params := { maxSize := 8, size := 8, opcodes := 0, rawSize := 0 }
  entropy i := UInt8.ofNat (i + 1)
  requests := Driver.curve97Stores.map (fun store => .write .word store.1.offset store.2) ++ [
    .write .word Sink.control.offset (Command.writeNumber Number.xR1.address).word.toUInt64,
    .write .word Sink.writeData.offset 3,
    .write .word Sink.control.offset (Command.writeNumber Number.yR1.address).word.toUInt64,
    .write .word Sink.writeData.offset 6,
    .write .word Sink.smallScalar.offset 1,
    .write .word Sink.token.offset 0,
    .write .word Sink.halt.offset 1,
    .write .word Sink.control.offset (Command.operate .multiply).word.toUInt64,
    .write .word Sink.token.offset 0,
    .write .word Sink.control.offset (Command.operate .multiply).word.toUInt64,
    .write .word Sink.steps.offset (Steps.resume.put true 0).toUInt64]

/-- The result is masked by the second token, and no token is left. -/
theorem token_masks_once_redrawn97 :
    redrawn97.generated 14 = 1 ∧ redrawn97.generated 17 = 7 ∧
      ∃ run, redrawn97.Completes 19 run ∧ (redrawn97.engine 20).Receives run.result 7 ∧
        (redrawn97.engine 20).token = none := by
  have hbusy : (redrawn97.engine 19).multiplying = true := by decide +kernel
  have hsecond : redrawn97.generated 17 = 7 := by decide +kernel
  obtain ⟨run, hrun⟩ := Option.isSome_iff_exists.mp hbusy
  have hcompletes : redrawn97.Completes 19 run :=
    ⟨⟨_, rfl, .goOn rfl hrun⟩, by decide +kernel⟩
  obtain ⟨-, hmasked, -, hafter⟩ := (token_masks_once redrawn97).1 19 run hcompletes
  refine ⟨by decide +kernel, hsecond, run, hcompletes, ?_, ?_⟩
  · have hgenerates : redrawn97.Generates 17 := ⟨_, rfl, rfl⟩
    rcases hmasked (by decide +kernel) with ⟨i, hi, hreceives⟩ | ⟨hbare, -⟩
    · have hlast : ¬redrawn97.Generates 18 := by
        rintro ⟨request, hrequest, hwrites⟩
        cases hrequest
        exact absurd hwrites (by decide)
      have h17 : 17 ≤ i := Nat.le_of_not_lt fun hlt => hi.latest 17 (by decide) hlt hgenerates
      have hne : i ≠ 18 := by
        rintro rfl
        exact hlast hi.generates
      have hlt := hi.lt
      obtain rfl : i = 17 := by omega
      rwa [hsecond] at hreceives
    · obtain ⟨k, h19, h17, hends⟩ := hbare 17 (by decide) hgenerates
      obtain rfl : k = 18 := by omega
      rw [hends.resting] at hbusy
      cases hbusy
  · exact (hafter 20 (by decide) fun k hhigh hlow => by omega).1

end CurveEngine.Device
