import CurveEngine.Proofs.Group
import CurveEngine.Proofs.RunStores

/-! The operations stay on the curve.

Over an odd prime a chord or a tangent of the curve meets it in a third point, whether the curve
has a singular point or not. So sums, doubles and negatives of points on the curve are on it
(`contains_add`, `contains_double`, `contains_neg`), both pairs of a ladder step are
(`contains_ladderStep`), and by induction all that a ladder goes through. A run stores nothing
else as the points of the ladder (`points_of_has`). -/
namespace CurveEngine
open WeierstrassCurve.Affine

namespace Curve
variable {c : Curve}

section Odd
variable [Fact c.p.Prime]

theorem contains_neg {P : Point} (hP : c.contains P = true) : c.contains (c.neg P) = true := by
  cases P with
  | infinity => rfl
  | affine x y =>
    obtain ⟨hx, -, hequation⟩ := (c.contains_affine x y).mp hP
    refine (c.contains_affine _ _).mpr ⟨hx, c.sub_lt 0 y, ?_⟩
    rw [cast_sub, Nat.cast_zero, zero_sub, ← negY_eq]
    exact (equation_neg _ _).mpr hequation

variable (hp : 2 < c.p)
include hp

theorem contains_double {P : Point} (hP : c.contains P = true) :
    c.contains (c.double P) = true := by
  cases P with
  | infinity => rfl
  | affine x y =>
    by_cases hy : (y : ZMod c.p) = 0
    · simp only [double, reduce_eq_zero_iff, if_pos hy]
      rfl
    · obtain ⟨-, -, hequation⟩ := (c.contains_affine x y).mp hP
      obtain ⟨x₃, y₃, hdouble, hx₃, hy₃, hcastX, hcastY⟩ := double_affine hp hy
      have htangent : ¬((x : ZMod c.p) = x ∧ (y : ZMod c.p) = c.weierstrass.negY x y) := by
        rwa [negY_eq, eq_neg_self_iff hp, and_iff_right rfl]
      rw [hdouble]
      refine (c.contains_affine _ _).mpr ⟨hx₃, hy₃, ?_⟩
      rw [hcastX, hcastY]
      exact equation_add hequation hequation htangent

theorem contains_add {P Q : Point} (hP : c.contains P = true) (hQ : c.contains Q = true) :
    c.contains (c.add P Q) = true := by
  cases P with
  | infinity => exact hQ
  | affine x₁ y₁ =>
    cases Q with
    | infinity => exact hP
    | affine x₂ y₂ =>
      by_cases hx : (x₁ : ZMod c.p) = x₂
      · simp only [add, reduce_eq_reduce_iff, if_pos hx]
        split
        · exact contains_double hp hP
        · rfl
      · obtain ⟨-, -, heq₁⟩ := (c.contains_affine x₁ y₁).mp hP
        obtain ⟨-, -, heq₂⟩ := (c.contains_affine x₂ y₂).mp hQ
        obtain ⟨x₃, y₃, hadd, hx₃, hy₃, hcastX, hcastY⟩ := add_affine hp y₁ y₂ hx
        rw [hadd]
        refine (c.contains_affine _ _).mpr ⟨hx₃, hy₃, ?_⟩
        rw [hcastX, hcastY]
        exact equation_add heq₁ heq₂ fun h => hx h.1

/-- Both points are on the curve. -/
def ContainsBoth (c : Curve) (pair : Point × Point) : Prop :=
  c.contains pair.1 = true ∧ c.contains pair.2 = true

theorem contains_ladderStep (bit : Bool) {P Q : Point} (hP : c.contains P = true)
    (hQ : c.contains Q = true) :
    c.ContainsBoth (c.ladderStep bit P Q).1 ∧ c.ContainsBoth (c.ladderStep bit P Q).2 := by
  have hsum := contains_add hp hP hQ
  cases bit with
  | true => exact ⟨⟨hsum, hQ⟩, hsum, contains_double hp hQ⟩
  | false => exact ⟨⟨hP, hsum⟩, contains_double hp hP, hsum⟩

theorem contains_ladder (k n : Nat) {pair : Point × Point} (h : c.ContainsBoth pair) :
    c.ContainsBoth (c.ladder k n pair) := by
  induction n generalizing pair with
  | zero => exact h
  | succ n ih => exact ih (contains_ladderStep hp (k.testBit n) h.1 h.2).2

end Odd

end Curve

/-! ### What a run stores -/

open LadderRun (pointsAt drawnAt)

/-- The slots of the coordinates of the ladder's points. -/
def Microcode.Slot.coordinates : List Nat := [Slot.xR0, Slot.yR0, Slot.xR1, Slot.yR1]

/-- A coordinate is stored. -/
def Position.StoresPoints (p : Position) : Prop :=
  ∃ w ∈ p.writes, w.slot ∈ Microcode.Slot.coordinates

instance (p : Position) : Decidable p.StoresPoints :=
  inferInstanceAs (Decidable (∃ w ∈ p.writes, w.slot ∈ Microcode.Slot.coordinates))

/-- Where a routine stores a coordinate it stores both points, and nothing else. -/
theorem writes_of_storesPoints {f : LadderFrame} {r : Microcode.Routine} {pc : Nat} {P Q : Point}
    {others : List (Nat × SlotWrite)} {p : Position} (hp : p ∈ f.routine r (others ++ pointsAt pc P Q))
    (hothers : ∀ place ∈ others.map (fun w => (w.1, w.2.slot)),
      place.1 ≠ pc ∧ place.2 ∉ Microcode.Slot.coordinates)
    (hstores : p.StoresPoints) : p.writes = LadderFrame.writes P Q := by
  have hother {w : Nat × SlotWrite} (hw : w ∈ others) :=
    hothers (w.1, w.2.slot) (List.mem_map_of_mem hw)
  obtain ⟨i, -, rfl⟩ := List.mem_map.mp hp
  obtain ⟨w, hw, hslot⟩ := hstores
  simp only [List.filter_append, LadderFrame.filter_pointsAt] at hw ⊢
  split at hw
  · rename_i hpc
    have hnone : others.filter (fun w => w.1 == r.start + i) = [] := by
      refine List.filter_eq_nil_iff.mpr fun v hv => ?_
      rw [beq_iff_eq, ← hpc]
      exact (hother hv).1
    rw [if_pos hpc, hnone]
    rfl
  · rw [List.append_nil] at hw
    obtain ⟨v, hv, rfl⟩ := List.mem_map.mp hw
    exact absurd hslot (hother (List.mem_of_mem_filter hv)).2

/-- Where a routine stores nothing but points, it stores both. -/
theorem writes_of_pointsAt {f : LadderFrame} {r : Microcode.Routine} {pc : Nat} {P Q : Point}
    {p : Position} (hp : p ∈ f.routine r (pointsAt pc P Q)) (hstores : p.StoresPoints) :
    p.writes = LadderFrame.writes P Q := by
  have hnone : p ∈ f.routine r ([] ++ pointsAt pc P Q) := hp
  exact writes_of_storesPoints hnone nofun hstores

namespace LadderInputs
variable {run : LadderInputs} {p : Position} [Fact run.curve.p.Prime]

theorem contains_pairAt (hp : 2 < run.curve.p) (hpoint : run.curve.contains run.point = true)
    (j : Nat) : run.curve.ContainsBoth (run.pairAt j) :=
  Curve.contains_ladder hp _ _ ⟨rfl, hpoint⟩

theorem contains_addedAt (hp : 2 < run.curve.p) (hpoint : run.curve.contains run.point = true)
    (j : Nat) : run.curve.ContainsBoth (run.addedAt j) := by
  obtain ⟨hleft, hright⟩ := run.contains_pairAt hp hpoint (j + 1)
  exact (Curve.contains_ladderStep hp _ hleft hright).1

/-- The points that a run stores are on the curve. -/
theorem points_of_has (hp : 2 < run.curve.p) (hpoint : run.curve.contains run.point = true)
    (h : run.Has p) (hstores : p.StoresPoints) :
    ∃ R₀ R₁, run.curve.contains R₀ = true ∧ run.curve.contains R₁ = true ∧
      p.writes = LadderFrame.writes R₀ R₁ := by
  have hpair := run.contains_pairAt hp hpoint
  obtain ⟨f, r, ws, hexecutes, hmem⟩ := h
  -- a routine that stores no points has none of their slots
  have hnothing {ws : List (Nat × SlotWrite)} (hmem : p ∈ f.routine r ws)
      (hws : ∀ w ∈ ws, w.2.slot ∉ Microcode.Slot.coordinates) : False := by
    obtain ⟨i, -, rfl⟩ := List.mem_map.mp hmem
    obtain ⟨w, hw, hslot⟩ := hstores
    obtain ⟨v, hv, rfl⟩ := List.mem_map.mp hw
    exact hws v (List.mem_of_mem_filter hv) hslot
  cases hexecutes with
  | checkOnCurve | exitCheck => exact (hnothing hmem fun w hw => absurd hw List.not_mem_nil).elim
  | blindInit halpha =>
    refine (hnothing hmem fun w hw => ?_).elim
    obtain rfl := List.mem_singleton.mp hw
    show Microcode.Slot.alpha ∉ Microcode.Slot.coordinates
    decide
  | setup =>
    refine ⟨.infinity, run.point, rfl, hpoint, writes_of_storesPoints hmem ?_ hstores⟩
    rw [places_drawnAt]
    decide
  | zaddu j =>
    obtain ⟨hleft, hright⟩ := run.contains_addedAt hp hpoint j
    exact ⟨_, _, hleft, hright, writes_of_pointsAt hmem hstores⟩
  | zaddc j =>
    exact ⟨_, _, (hpair j).1, (hpair j).2, writes_of_pointsAt hmem hstores⟩
  | subtractP =>
    exact ⟨_, _, (hpair 0).1, (hpair 0).2, writes_of_pointsAt hmem hstores⟩
  | exit =>
    exact ⟨_, _, (hpair 0).2, (hpair 0).1, writes_of_pointsAt hmem hstores⟩

end LadderInputs

/-- **The operations stay on the curve.** Over any odd prime and for any coefficients, a singular
curve included: sums, doubles, negatives, ladder steps and multiples of points on the curve are
on it, infinity or with reduced coordinates; and all that a run stores as points of the ladder,
and its result, are points on the curve. -/
theorem Curve.onCurve_closed (c : Curve) (hp : c.p.Prime) (hodd : c.p ≠ 2) :
    (∀ P, c.contains P = true →
      P = .infinity ∨ ∃ x y, P = .affine x y ∧ x < c.p ∧ y < c.p) ∧
    (∀ P Q, c.contains P = true → c.contains Q = true → c.contains (c.add P Q) = true) ∧
    (∀ P, c.contains P = true →
      c.contains (c.double P) = true ∧ c.contains (c.neg P) = true) ∧
    (∀ bit P Q, c.contains P = true → c.contains Q = true →
      c.ContainsBoth (c.ladderStep bit P Q).1 ∧ c.ContainsBoth (c.ladderStep bit P Q).2) ∧
    (∀ k n P, c.contains P = true → c.contains (c.scalarMul k P n) = true) ∧
    ∀ inputs : LadderInputs, inputs.curve = c → c.contains inputs.point = true →
      c.contains (LadderRun.start inputs).result = true ∧
      ∀ p ∈ (LadderRun.start inputs).positions, p.StoresPoints →
        ∃ R₀ R₁, c.contains R₀ = true ∧ c.contains R₁ = true ∧
          p.writes = LadderFrame.writes R₀ R₁ := by
  have : Fact c.p.Prime := ⟨hp⟩
  have htwo : 2 < c.p := Nat.lt_of_le_of_ne hp.two_le (Ne.symm hodd)
  have hmultiple (k n : Nat) (P : Point) (hP : c.contains P = true) :
      c.contains (c.scalarMul k P n) = true := (contains_ladder htwo k n ⟨rfl, hP⟩).1
  refine ⟨fun P hP => ?_, fun P Q hP hQ => contains_add htwo hP hQ,
    fun P hP => ⟨contains_double htwo hP, contains_neg hP⟩,
    fun bit P Q hP hQ => contains_ladderStep htwo bit hP hQ, hmultiple, ?_⟩
  · cases P with
    | infinity => exact .inl rfl
    | affine x y =>
      obtain ⟨hx, hy, -⟩ := (c.contains_affine x y).mp hP
      exact .inr ⟨x, y, rfl, hx, hy⟩
  · rintro inputs rfl hpoint
    refine ⟨?_, fun p hmem hstores => ?_⟩
    · rw [LadderRun.result_start]
      exact hmultiple _ _ _ hpoint
    · rw [LadderRun.positions_start] at hmem
      exact LadderInputs.points_of_has htwo hpoint (LadderRun.has_pending hmem) hstores

/-- A run on a cuspidal curve, `y² = x³` modulo 97, from the point `(4, 8)`. -/
def cusp97 : LadderInputs where
  curve := ⟨97, 0, 0, 97⟩
  point := .affine 4 8
  scalar := 5
  bits := 3
  randoms := ⟨none, 0, 0, 0⟩

theorem Curve.onCurve_closed_cusp97 :
    Nat.Prime cusp97.curve.p ∧ cusp97.curve.p ≠ 2 ∧
      cusp97.curve.contains cusp97.point = true ∧
      cusp97.curve.contains (LadderRun.start cusp97).result = true ∧
      ∃ p ∈ (LadderRun.start cusp97).positions, p.StoresPoints ∧
        ∃ R₀ R₁, cusp97.curve.contains R₀ = true ∧ cusp97.curve.contains R₁ = true ∧
          p.writes = LadderFrame.writes R₀ R₁ := by
  have hprime : Nat.Prime cusp97.curve.p := by
    show Nat.Prime 97
    norm_num
  have hpoint : cusp97.curve.contains cusp97.point = true := by decide
  obtain ⟨-, -, -, -, -, hrun⟩ := onCurve_closed cusp97.curve hprime (by decide)
  obtain ⟨hresult, hstored⟩ := hrun cusp97 rfl hpoint
  obtain ⟨p, hmem, hstores⟩ : ∃ p ∈ (LadderRun.start cusp97).positions, p.StoresPoints := by
    decide +kernel
  exact ⟨hprime, by decide, hpoint, hresult, p, hmem, hstores, hstored p hmem hstores⟩

end CurveEngine
