import CurveEngine.Proofs.Reduced
import CurveEngine.Proofs.RunReadings

/-! What a run stores on the way.

A run executes a few routines, with the points of the ladder or its random values
(`Executes`, `has_pending`). Each of their opcodes stores all that its phase is read for
(`Has.selfContained`), and what it stores fits into its slot (`Has.fits`) if the point is
reduced and the random values are no longer than the prime. -/
namespace CurveEngine
open LadderRun (pointsAt drawnAt)

/-- The pair after the addition of the iteration for bit `j`. -/
def LadderInputs.addedAt (run : LadderInputs) (j : Nat) : Point × Point :=
  (run.curve.ladderStep (run.scalar.testBit j) (run.pairAt (j + 1)).1 (run.pairAt (j + 1)).2).1

/-- The routines that a run executes, with what they store. -/
inductive LadderInputs.Executes (run : LadderInputs) :
    Microcode.Routine → List (Nat × SlotWrite) → Prop where
  | checkOnCurve : Executes run Microcode.checkOnCurve []
  | blindInit {alpha : Nat} (h : run.randoms.alpha = some alpha) :
    Executes run Microcode.blindInit
      [(Microcode.Address.alphaReady, ⟨Microcode.Slot.alpha, alpha⟩)]
  | setup :
    Executes run Microcode.setup
      (drawnAt run.randoms ++ pointsAt Microcode.Address.setupDone .infinity run.point)
  | zaddu (j : Nat) :
    Executes run Microcode.zaddu
      (pointsAt Microcode.Address.zadduDone (run.addedAt j).1 (run.addedAt j).2)
  | zaddc (j : Nat) :
    Executes run Microcode.zaddc
      (pointsAt Microcode.Address.zaddcDone (run.pairAt j).1 (run.pairAt j).2)
  | subtractP :
    Executes run Microcode.subtractP
      (pointsAt Microcode.Address.subtractPDone (run.pairAt 0).1 (run.pairAt 0).2)
  | exit :
    Executes run Microcode.exit
      (pointsAt Microcode.Address.exitDone (run.pairAt 0).2 (run.pairAt 0).1)
  | exitCheck : Executes run Microcode.exitCheck []

/-- An opcode of one of those routines. -/
def LadderInputs.Has (run : LadderInputs) (p : Position) : Prop :=
  ∃ f r ws, run.Executes r ws ∧ p ∈ LadderFrame.routine f r ws

namespace LadderRun
variable {run : LadderInputs} {p : Position}

theorem has_opening (h : p ∈ opening run (initialFrame run)) : run.Has p := by
  rw [opening_eq, List.mem_append, List.mem_append] at h
  rcases h with (h | h) | h
  · exact ⟨_, _, _, .checkOnCurve, h⟩
  · unfold blinding at h
    split at h
    · rename_i alpha halpha
      exact ⟨_, _, _, .blindInit halpha, h⟩
    · exact absurd h List.not_mem_nil
  · exact ⟨_, _, _, .setup, h⟩

theorem has_iteration {j : Nat} (hj : j < run.bits)
    (h : p ∈ (iteration run.curve (enter run.scalar j (run.frameAt (j + 1)))).1) : run.Has p := by
  have hzaddc : run.Executes _ _ := .zaddc j
  rw [pairAt_step hj] at hzaddc
  rcases List.mem_append.mp h with h | h
  · exact ⟨_, _, _, .zaddu j, h⟩
  · exact ⟨_, _, _, hzaddc, h⟩

theorem has_ladderOpcodes {n : Nat} (hn : n ≤ run.bits)
    (h : p ∈ ladderOpcodes run.curve run.scalar n (run.frameAt n)) : run.Has p := by
  induction n with
  | zero => exact absurd h List.not_mem_nil
  | succ n ih =>
    rw [ladderOpcodes_frameAt hn, List.mem_append] at h
    rcases h with h | h
    · exact has_iteration hn h
    · exact ih (Nat.le_of_succ_le hn) h

theorem has_closing (h : p ∈ closing (run.frameAt 0)) : run.Has p := by
  rw [closing, List.mem_append, List.mem_append] at h
  rcases h with (h | h) | h
  · exact ⟨_, _, _, .subtractP, h⟩
  · exact ⟨_, _, _, .exit, h⟩
  · exact ⟨_, _, _, .exitCheck, h⟩

/-- A run consists of opcodes of its routines. -/
theorem has_pending (h : p ∈ (start run).pending) : run.Has p := by
  rw [pending_start, List.mem_append, List.mem_append, lastFrame_eq] at h
  rcases h with h | h | h
  · exact has_opening h
  · rw [initialFrame_eq] at h
    exact has_ladderOpcodes (Nat.le_refl _) h
  · exact has_closing h

end LadderRun

theorem places_pointsAt (pc : Nat) (P Q : Point) :
    (pointsAt pc P Q).map (fun w => (w.1, w.2.slot)) =
      [Microcode.Slot.xR0, Microcode.Slot.yR0, Microcode.Slot.xR1, Microcode.Slot.yR1,
        Microcode.Slot.zR01].map (fun slot => (pc, slot)) := rfl

theorem places_drawnAt (randoms : LadderRandoms) :
    (drawnAt randoms).map (fun w => (w.1, w.2.slot)) =
      [(Microcode.Address.phi0Ready, Microcode.Slot.phi0),
        (Microcode.Address.phi1Ready, Microcode.Slot.phi1),
        (Microcode.Address.lambdaReady, Microcode.Slot.lambda)] := rfl

/-- Every opcode of a run stores all that its phase is read for. -/
theorem LadderInputs.Has.selfContained {run : LadderInputs} {p : Position} (h : run.Has p) :
    p.selfContained = true := by
  obtain ⟨f, r, ws, hexecutes, hp⟩ := h
  refine LadderFrame.selfContained_routine ?_ p hp
  cases hexecutes with
  | checkOnCurve | exitCheck => decide
  | blindInit =>
    show LadderFrame.storesItsOwn Microcode.blindInit
      [(Microcode.Address.alphaReady, Microcode.Slot.alpha)] = true
    decide
  | setup =>
    rw [List.map_append, places_drawnAt, places_pointsAt]
    decide
  | zaddu | zaddc | subtractP | exit =>
    rw [places_pointsAt]
    decide

/-! ### Numbers that fit -/

/-- The random values of a run take no more bits than a prime of that size. -/
structure LadderRandoms.Fits (size : Nat) (randoms : LadderRandoms) : Prop where
  alpha : ∀ alpha, randoms.alpha = some alpha → alpha < 2 ^ size
  phi0 : randoms.phi0 < 2 ^ size
  phi1 : randoms.phi1 < 2 ^ size
  lambda : randoms.lambda < 2 ^ size

variable {run : LadderInputs}

theorem LadderInputs.reduced_pairAt (h : run.curve.Reduced run.point) (j : Nat) :
    run.curve.Reduced (run.pairAt j).1 ∧ run.curve.Reduced (run.pairAt j).2 :=
  Curve.reduced_ladder _ _ Curve.reduced_infinity h

theorem LadderInputs.reduced_addedAt (h : run.curve.Reduced run.point) (j : Nat) :
    run.curve.Reduced (run.addedAt j).1 ∧ run.curve.Reduced (run.addedAt j).2 := by
  obtain ⟨hleft, hright⟩ := run.reduced_pairAt h (j + 1)
  exact (Curve.reduced_ladderStep _ hleft hright).1

theorem fits_pointsAt {c : Curve} {size : Nat} (hp : c.p < 2 ^ size) {P Q : Point}
    (h : c.Reduced P ∧ c.Reduced Q) (pc : Nat) :
    ∀ w ∈ pointsAt pc P Q, w.2.value < 2 ^ (size + 4) := by
  have hsize : 2 ^ size < 2 ^ (size + 4) := Nat.pow_lt_pow_right (by decide) (by omega)
  have hone := Nat.one_le_two_pow (n := size)
  obtain ⟨⟨hxP, hyP⟩, hxQ, hyQ⟩ := h
  intro w hw
  simp only [pointsAt, LadderFrame.writes, List.map_cons, List.map_nil, List.mem_cons,
    List.not_mem_nil, or_false] at hw
  rcases hw with rfl | rfl | rfl | rfl | rfl
  · show P.coords.1 < 2 ^ (size + 4)
    omega
  · show P.coords.2 < 2 ^ (size + 4)
    omega
  · show Q.coords.1 < 2 ^ (size + 4)
    omega
  · show Q.coords.2 < 2 ^ (size + 4)
    omega
  · show 1 < 2 ^ (size + 4)
    omega

theorem fits_drawnAt {size : Nat} {randoms : LadderRandoms} (h : randoms.Fits size) :
    ∀ w ∈ drawnAt randoms, w.2.value < 2 ^ (size + 4) := by
  have hsize : 2 ^ size < 2 ^ (size + 4) := Nat.pow_lt_pow_right (by decide) (by omega)
  intro w hw
  simp only [drawnAt, List.mem_cons, List.not_mem_nil, or_false] at hw
  rcases hw with rfl | rfl | rfl
  · exact Nat.lt_trans h.phi0 hsize
  · exact Nat.lt_trans h.phi1 hsize
  · exact Nat.lt_trans h.lambda hsize

/-- Every number that a run stores fits into its slot. -/
theorem LadderInputs.Has.fits {p : Position} (h : run.Has p) {size : Nat}
    (hp : run.curve.p < 2 ^ size) (hpoint : run.curve.Reduced run.point)
    (hrandoms : run.randoms.Fits size) : p.Fits size := by
  obtain ⟨f, r, ws, hexecutes, hmem⟩ := h
  refine LadderFrame.fits_routine ?_ p hmem
  have hpair := run.reduced_pairAt hpoint
  cases hexecutes with
  | checkOnCurve | exitCheck => exact fun w hw => absurd hw List.not_mem_nil
  | blindInit halpha =>
    intro w hw
    obtain rfl := List.mem_singleton.mp hw
    exact Nat.lt_trans (hrandoms.alpha _ halpha) (Nat.pow_lt_pow_right (by decide) (by omega))
  | setup =>
    intro w hw
    rcases List.mem_append.mp hw with hw | hw
    · exact fits_drawnAt hrandoms w hw
    · exact fits_pointsAt hp ⟨Curve.reduced_infinity, hpoint⟩ _ w hw
  | zaddu j => exact fits_pointsAt hp (run.reduced_addedAt hpoint j) _
  | zaddc j => exact fits_pointsAt hp (hpair j) _
  | subtractP => exact fits_pointsAt hp (hpair 0) _
  | exit => exact fits_pointsAt hp ⟨(hpair 0).2, (hpair 0).1⟩ _

end CurveEngine
