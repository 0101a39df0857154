import CurveEngine.Proofs.Upheld
import Mathlib.Data.List.Induction

/-! The bound on the blinding size.

The engine checks a blinding size against the prime size when it is written, and a reset
turns blinding off. But it does not look at the blinding size when the prime size is written.
So blinding stays below the prime size through any traffic on the bus, as long as no prime
size is accepted that the blinding size has outgrown (`blindingFits_iff`); such a write is the
only way to lose the bound (`blindingFits_serve`), and the engine does take it
(`blinding_outgrows`). -/
namespace CurveEngine.Device
open Register

namespace State
variable {s : State}

/-- Scalars are blinded by fewer bits than the prime has, or not at all. -/
def BlindingFits (s : State) : Prop := s.blinding = 0 ∨ s.blinding < s.size

/-- The prime size that a request sets, if the engine takes it. -/
def newSize? (s : State) : Request → Option Nat
  | .read .. => none
  | .write size offset value =>
    let n := ((onBus size value).toUInt32 &&& 0xffff).toNat
    if Sink.ofOffset? offset = some .primeSize ∧ s.params.dynamicSize = true ∧ minSize ≤ n ∧
      n ≤ s.params.maxSize then some n
    else none

/-- The request sets a prime size that is not above the blinding size. -/
def OutgrownBy (s : State) (request : Request) : Prop :=
  ∃ n ∈ s.newSize? request, 0 < s.blinding ∧ n ≤ s.blinding

/-! ### What leaves both sizes alone -/

def sizes (s : State) : Nat × Nat := (s.blinding, s.size)

theorem blindingFits_frame {t : State} (same : t.sizes = s.sizes) :
    t.BlindingFits ↔ s.BlindingFits := by
  rw [sizes, sizes, Prod.mk.injEq] at same
  rw [BlindingFits, BlindingFits, same.1, same.2]

theorem sizes_readSource (r : Source) (s : State) : (s.readSource r).2.sizes = s.sizes :=
  readSource_keeps (P := fun t => t.sizes = s.sizes) (fun _ _ _ _ _ _ => rfl) r

theorem sizes_step (s : State) (word : UInt32) : (s.step word).sizes = s.sizes :=
  step_keeps (P := fun t => t.sizes = s.sizes) word fun _ _ _ _ _ _ _ _ => rfl

theorem sizes_control (s : State) (word : UInt32) : (s.control word).sizes = s.sizes :=
  control_keeps (P := fun t => t.sizes = s.sizes) (fun _ _ _ _ _ _ _ _ _ _ _ _ _ _ _ => rfl) word

theorem sizes_writeData (s : State) (value : UInt64) : (s.writeData value).sizes = s.sizes :=
  writeData_keeps (P := fun t => t.sizes = s.sizes) (fun _ _ _ _ _ => rfl) value

theorem sizes_setShuffle (s : State) (enable : Bool) : (s.setShuffle enable).sizes = s.sizes :=
  setShuffle_keeps (P := fun t => t.sizes = s.sizes) (fun _ _ => rfl) enable

/-- No other register has a say in either size. -/
theorem sizes_writeSink {r : Sink} (hsize : r ≠ .primeSize) (hblinding : r ≠ .blinding)
    (hreset : r ≠ .softReset) (value : UInt64) (s : State) :
    (s.writeSink r value).sizes = s.sizes := by
  have hdebug (t : State) (ht : t.sizes = s.sizes) :=
    debug_keeps (P := fun u => u.sizes = s.sizes) rfl ht
  cases r with
  | primeSize => exact absurd rfl hsize
  | blinding => exact absurd rfl hblinding
  | softReset => exact absurd rfl hreset
  | control => exact s.sizes_control _
  | writeData => exact s.sizes_writeData value
  | shuffle => exact s.sizes_setShuffle _
  | steps => exact hdebug _ (s.sizes_step _)
  | r0Null | r1Null | zremask | token | irq | errorAck | smallScalar => rfl
  | halt => exact hdebug _ (writeDebug_halt_keeps (P := fun u => u.sizes = s.sizes) (fun _ => rfl) _)
  | _ => exact hdebug _ rfl

/-! ### What changes one of them -/

/-- A reset turns blinding off. -/
theorem blindingFits_softReset (s : State) : s.softReset.BlindingFits := .inl rfl

/-- A blinding size that is not below the prime size is refused. -/
theorem blindingFits_setBlinding (h : s.BlindingFits) (word : UInt32) :
    (s.setBlinding word).BlindingFits := by
  unfold State.setBlinding
  dsimp only
  split
  · exact .inl rfl
  · split
    · exact h
    · rename_i hsmall
      exact .inr (by simp_all)

/-- A prime size is taken whatever the blinding size is. -/
theorem blindingFits_setSize (h : s.BlindingFits) (n : Nat) :
    (s.setSize n).BlindingFits ↔
      ¬ (s.params.dynamicSize = true ∧ minSize ≤ n ∧ n ≤ s.params.maxSize ∧ 0 < s.blinding ∧
        n ≤ s.blinding) := by
  unfold State.setSize
  split
  · rename_i hrefused
    have hrange : ¬ (s.params.dynamicSize = true ∧ minSize ≤ n ∧ n ≤ s.params.maxSize) := by
      rintro ⟨hdynamic, hmin, hmax⟩
      simp [hdynamic, Nat.not_lt.mpr hmin, Nat.not_lt.mpr hmax] at hrefused
    exact ⟨fun _ htaken => hrange ⟨htaken.1, htaken.2.1, htaken.2.2.1⟩, fun _ => h⟩
  · rename_i htaken
    have hrange : s.params.dynamicSize = true ∧ minSize ≤ n ∧ n ≤ s.params.maxSize := by
      simpa [and_assoc] using htaken
    obtain ⟨hdynamic, hmin, hmax⟩ := hrange
    show s.blinding = 0 ∨ s.blinding < n ↔ _
    constructor
    · rintro hfits ⟨-, -, -, hpos, hle⟩
      omega
    · intro hroom
      by_contra hneither
      exact hroom ⟨hdynamic, hmin, hmax, by omega, by omega⟩

/-- **One kind of access loses the bound.** Where blinding fits, it still does after any access
but one that sets a prime size not above it. -/
theorem blindingFits_serve (h : s.BlindingFits) (request : Request) :
    (s.serve request).BlindingFits ↔ ¬ s.OutgrownBy request := by
  -- an access that sets no prime size cannot outgrow anything
  have hkept (hnone : s.newSize? request = none) (hfits : (s.serve request).BlindingFits) :
      (s.serve request).BlindingFits ↔ ¬ s.OutgrownBy request := by
    simp [OutgrownBy, hnone, hfits]
  cases request with
  | read size offset =>
    refine hkept rfl ?_
    show (s.read size offset).2.BlindingFits
    unfold State.read
    split
    · exact h
    · exact (blindingFits_frame (s.sizes_readSource _)).mpr h
  | write size offset value =>
    cases hsink : Sink.ofOffset? offset with
    | none =>
      refine hkept (by simp [newSize?, hsink]) ?_
      show (s.write size offset value).2.BlindingFits
      unfold State.write
      rw [hsink]
      dsimp only
      split
      · exact h
      · exact h
    | some r =>
      have hserve : s.serve (.write size offset value) = s.writeSink r (onBus size value) := by
        simp only [serve, State.write, hsink]
      rw [hserve]
      rw [hserve] at hkept
      by_cases hr : r = .primeSize
      · subst hr
        show (s.setSize _).BlindingFits ↔ _
        rw [blindingFits_setSize h]
        simp [OutgrownBy, newSize?, hsink, and_assoc]
      · refine hkept (by simp [newSize?, hsink, hr]) ?_
        by_cases hblinding : r = .blinding
        · subst hblinding
          exact blindingFits_setBlinding h _
        by_cases hreset : r = .softReset
        · subst hreset
          exact s.blindingFits_softReset
        · exact (blindingFits_frame (sizes_writeSink hr hblinding hreset _ s)).mpr h

/-- Throughout a run of accesses blinding fits if and only if none of them outgrows it. -/
theorem blindingFits_run (h : s.BlindingFits) (requests : List Request) :
    (∀ before, before <+: requests → (s.serveAll before).BlindingFits) ↔
      ∀ before request, before ++ [request] <+: requests →
        ¬ (s.serveAll before).OutgrownBy request := by
  have hserve (before : List Request) (request : Request) :
      s.serveAll (before ++ [request]) = (s.serveAll before).serve request := List.foldl_append
  constructor
  · intro hfits before request hprefix
    have hbefore := hfits before ((List.prefix_append _ _).trans hprefix)
    have hafter := hfits _ hprefix
    rw [hserve] at hafter
    exact (blindingFits_serve hbefore request).mp hafter
  · intro hroom before hprefix
    induction before using List.reverseRecOn with
    | nil => exact h
    | append_singleton before request ih =>
      rw [hserve]
      exact (blindingFits_serve (ih ((List.prefix_append _ _).trans hprefix)) request).mpr
        (hroom before request hprefix)

end State

/-- **What the bound on the blinding size rests on.** Of whatever is asked of an engine after
power-up: throughout, scalars are blinded by fewer bits than the prime has or not at all, if and
only if the engine never takes a prime size that is not above the blinding size. -/
theorem blindingFits_iff (params : Parameters) (entropy : Nat → UInt8) (requests : List Request) :
    (∀ before, before <+: requests → ((State.powerUp params entropy).serveAll before).BlindingFits) ↔
      ∀ before request, before ++ [request] <+: requests →
        ¬ ((State.powerUp params entropy).serveAll before).OutgrownBy request :=
  State.blindingFits_run (.inl rfl) requests

/-- Blinding by a hundred bits, and then a prime size of 64. -/
def shrinking : List Request :=
  [.write .word Sink.blinding.offset (Blinding.bits.set 100 (Blinding.enable.put true 0)).toUInt64,
    .write .word Sink.primeSize.offset 64]

/-- **Blinding can outgrow the prime.** Both writes are taken, without an error. -/
theorem blinding_outgrows :
    minSize ≤ ({} : Parameters).size ∧
      let s := (State.powerUp {} fun _ => 0).serveAll shrinking
      s.blinding = 100 ∧ s.size = 64 ∧ s.errors = 0 ∧ ¬ s.BlindingFits := by
  have hblinding : ((State.powerUp {} fun _ => 0).serveAll shrinking).blinding = 100 := by decide
  have hsize : ((State.powerUp {} fun _ => 0).serveAll shrinking).size = 64 := by decide
  refine ⟨by decide, hblinding, hsize, by decide, ?_⟩
  rw [State.BlindingFits, hblinding, hsize]
  decide

end CurveEngine.Device
