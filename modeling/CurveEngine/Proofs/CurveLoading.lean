import CurveEngine.Proofs.Operands
import CurveEngine.Proofs.Resizing
import Mathlib.Data.List.TakeWhile

/-! Loading a curve.

A curve is loaded in steps: the prime size is set for the longer of `p` and `q`, and then `p`, `a`,
`b` and `q` are sent, in this order. None of the steps is taken back. So an error before anything
has been sent leaves everything as it was; but a number that turns out not to fit leaves the new
prime size, and a curve of which the numbers before it are the new ones (`setCurve_loads`,
`setCurve_mixes`). -/
namespace CurveEngine
open Register Procedure Device Operation

namespace Driver
variable {d : Driver} {s t : State} {a b p q : Bytes}

/-! ### What has been received -/

theorem gathered_received (operand : Destination × Bytes) (bytes : Bytes) :
    d.gathered (d.received s operand) bytes = d.gathered s bytes := by
  obtain ⟨destination, _⟩ := operand
  cases destination <;> rfl

theorem size_foldl_received (operands : List (Destination × Bytes)) :
    (operands.foldl d.received s).size = s.size := by
  induction operands generalizing s with
  | nil => rfl
  | cons operand rest ih => rw [List.foldl_cons, ih, size_received]

/-- What nothing has been received for keeps its content. -/
theorem content_foldl_received_of_notMem {operands : List (Destination × Bytes)}
    {destination : Destination} (h : destination ∉ operands.map Prod.fst) :
    (operands.foldl d.received s).content destination = s.content destination := by
  induction operands generalizing s with
  | nil => rfl
  | cons operand rest ih =>
    rw [List.map_cons, List.mem_cons, not_or] at h
    rw [List.foldl_cons, ih h.2, received, State.content_receiving, if_neg h.1]

/-- Of operands that go to different places, each is there in the end. -/
theorem content_foldl_received {operands : List (Destination × Bytes)}
    (hdistinct : (operands.map Prod.fst).Nodup) {operand : Destination × Bytes}
    (h : operand ∈ operands) :
    (operands.foldl d.received s).content operand.1 = d.gathered s operand.2 := by
  induction operands generalizing s with
  | nil => cases h
  | cons first rest ih =>
    rw [List.map_cons, List.nodup_cons] at hdistinct
    rw [List.foldl_cons]
    rcases List.mem_cons.mp h with rfl | hmem
    · rw [content_foldl_received_of_notMem hdistinct.1, received, State.content_receiving, if_pos rfl]
    · rw [ih hdistinct.2 hmem, gathered_received]

/-- If not all operands fit, there is a first that does not. -/
theorem fitting_append_of_not_allFit {operands : List (Destination × Bytes)}
    (h : d.allFit s operands = false) :
    ∃ refused rest, operands = d.fitting s operands ++ refused :: rest ∧
      ¬ d.Fits s refused.2.length := by
  induction operands with
  | nil => cases h
  | cons operand rest ih =>
    by_cases hfits : d.Fits s operand.2.length
    · simp only [allFit, List.all_cons, hfits, decide_true, Bool.true_and] at h
      obtain ⟨refused, unsent, hrest, hrefused⟩ := ih h
      refine ⟨refused, unsent, ?_, hrefused⟩
      rw [fitting_cons hfits, List.cons_append, ← hrest]
    · exact ⟨operand, rest, by rw [fitting_stops hfits, List.nil_append], hfits⟩

/-! ### The numbers of a curve -/

/-- The numbers of a curve with the registers they go to, in the order in which they are sent. -/
def curveOperands (a b p q : Bytes) : List (Destination × Bytes) :=
  [(.number .p, p), (.number .a, a), (.number .b, b), (.number .q, q)]

theorem nodup_curveOperands : ((curveOperands a b p q).map Prod.fst).Nodup := by
  show [Destination.number .p, .number .a, .number .b, .number .q].Nodup
  decide

theorem curveSize_eq (p q : Bytes) :
    curveSize p q = 8 * (max p.length q.length % 2 ^ 32) % 2 ^ 32 := by
  rw [curveSize, UInt32.toNat_mul, UInt32.toNat_ofNat']
  rfl

/-- Words of 32 bits lose bits of the size, but none that the register of the size has. -/
theorem curveSize_mod (p q : Bytes) :
    curveSize p q % 2 ^ 16 = 8 * max p.length q.length % 2 ^ 16 := by
  rw [curveSize_eq]
  omega

theorem curveSize_le (p q : Bytes) : curveSize p q ≤ 8 * max p.length q.length := by
  rw [curveSize_eq]
  omega

theorem setCurve_eq (d : Driver) (a b p q : Bytes) :
    d.setCurve a b p q = (do
      notify (.curveSet (curveSize p q))
      d.setSize (curveSize p q)
      d.send (curveOperands a b p q)) := by
  have hlast : d.writeNumber q (.number .q) = d.writeNumber q (.number .q) >>= fun _ => pure () :=
    (bind_pure_unit (x := d.writeNumber q (.number .q))).symm
  rw [setCurve, hlast]
  rfl

theorem ends_setCurve (u : State) (result : Except DriverError Unit) :
    Ends bus (d.setCurve a b p q).run s result u ↔
      Ends bus (do
        d.setSize (curveSize p q)
        d.send (curveOperands a b p q) : Operation Unit).run s result u := by
  rw [setCurve_eq, (returns_notify (.curveSet (curveSize p q)) s).ends_run_bind]
  rfl

/-- The numbers are sent to an engine that has been given its prime size. -/
theorem setCurve_sends {u : State} (hsize : Returns bus (d.setSize (curveSize p q)) s () u)
    (hready : Ready d u) (hu : u.Alike t) :
    ∃ v, Ends bus (d.setCurve a b p q).run s
        (if d.allFit t (curveOperands a b p q) then .ok () else .error .numberTooLarge) v ∧
      v.Alike ((d.fitting t (curveOperands a b p q)).foldl d.received t) := by
  obtain ⟨v, hsend, -, hv⟩ := send_received hu hready (curveOperands a b p q)
  refine ⟨v, ?_, hv⟩
  rw [ends_setCurve]
  exact hsize.ends_run_bind.mpr hsend

/-- A prime size of which the register loses bits is too small for the number it was set for. -/
theorem size_of_fits {len : Nat} (hsize : s.size = 8 * len % 2 ^ 16) (h : d.Fits s len) :
    8 * len ≤ 0xffff := by
  have hbytes : s.numberBytes = len % 2 ^ 13 := by
    rw [State.numberBytes, hsize]
    omega
  have hpos := d.wordBytes_pos
  have hle := d.wordBytes_le
  have hneeds : len ≤ d.wordBytes * Bytes.wordsFor len d.wordBytes := Bytes.le_wordsFor len hpos
  have hmoves : d.wordBytes * d.words s ≤ s.numberBytes + d.wordBytes - 1 := Nat.mul_div_le _ _
  have hroom := Nat.le_trans hneeds (Nat.mul_le_mul_left _ h)
  omega

/-! ### What is left when a curve has been loaded, or not -/

/-- Numbers that all fit make up the curve. -/
theorem curve_received (hmatch : d.Matches s) (h : d.allFit s (curveOperands a b p q) = true) :
    ((d.fitting s (curveOperands a b p q)).foldl d.received s).curve =
      ⟨p.toNat, a.toNat, b.toNat, q.toNat⟩ := by
  have hfitting : d.fitting s (curveOperands a b p q) = curveOperands a b p q :=
    List.takeWhile_eq_self_iff.mpr (List.all_eq_true.mp h)
  have hnumber (n : Number) (bytes : Bytes) (hmem : (.number n, bytes) ∈ curveOperands a b p q) :
      ((curveOperands a b p q).foldl d.received s).numbers.get n = bytes.toNat := by
    have hfits := of_decide_eq_true (List.all_eq_true.mp h _ hmem)
    exact (content_foldl_received nodup_curveOperands hmem).trans (gathered_of_matches hmatch hfits)
  rw [hfitting]
  rw [State.curve, NumberFile.curve, Curve.mk.injEq]
  exact ⟨hnumber .p p (by simp [curveOperands]), hnumber .a a (by simp [curveOperands]),
    hnumber .b b (by simp [curveOperands]), hnumber .q q (by simp [curveOperands])⟩

/-- Of numbers that do not all fit, those before the first such number are at their registers, and
it and the others are not. -/
theorem content_interrupted (h : d.allFit s (curveOperands a b p q) = false) :
    ∃ sent refused unsent, curveOperands a b p q = sent ++ refused :: unsent ∧
      ¬ d.Fits s refused.2.length ∧
      (∀ operand ∈ sent, d.Fits s operand.2.length ∧ (d.Matches s →
        ((d.fitting s (curveOperands a b p q)).foldl d.received s).content operand.1 =
          operand.2.toNat)) ∧
      ∀ operand ∈ refused :: unsent,
        ((d.fitting s (curveOperands a b p q)).foldl d.received s).content operand.1 =
          s.content operand.1 := by
  obtain ⟨refused, unsent, hsplit, hrefused⟩ := fitting_append_of_not_allFit h
  have hdistinct := nodup_curveOperands (a := a) (b := b) (p := p) (q := q)
  rw [hsplit, List.map_append] at hdistinct
  obtain ⟨hsent, -, hdisjoint⟩ := List.nodup_append.mp hdistinct
  refine ⟨_, refused, unsent, hsplit, hrefused, fun operand hmem => ?_, fun operand hmem => ?_⟩
  · have hfits : d.Fits s operand.2.length := of_decide_eq_true (List.mem_takeWhile_imp
      (p := fun operand : Destination × Bytes => decide (d.Fits s operand.2.length)) hmem)
    exact ⟨hfits, fun hmatch => (content_foldl_received hsent hmem).trans
      (gathered_of_matches hmatch hfits)⟩
  · exact content_foldl_received_of_notMem fun hsent =>
      hdisjoint _ hsent _ (List.mem_map_of_mem hmem) rfl

/-- What loading a curve leaves of an engine, by how it ends. -/
def CurveLoaded (d : Driver) (s : State) (a b p q : Bytes) (t : State) :
    Except DriverError Unit → Prop
  | .ok () =>
    (d.Matches s → t.curve = ⟨p.toNat, a.toNat, b.toNat, q.toNat⟩) ∧
      (s.params.dynamicSize = true → t.size = 8 * max p.length q.length)
  | .error .sizeTooLarge =>
    8 * max p.length q.length > s.shownMaxSize ∧ t.size = s.size ∧ t.curve = s.curve
  | .error (.hardware _) =>
    (8 * max p.length q.length ≤ 0xffff → max p.length q.length = 0) ∧
      t.size = s.size ∧ t.curve = s.curve
  | .error .numberTooLarge =>
    (s.params.dynamicSize = true → 8 * max p.length q.length ≤ 0xffff →
      t.size = 8 * max p.length q.length) ∧
    (s.params.dynamicSize = false → t.size = s.size) ∧
    ∃ sent refused unsent, curveOperands a b p q = sent ++ refused :: unsent ∧
      ¬ d.Fits t refused.2.length ∧
      (∀ operand ∈ sent, d.Fits t operand.2.length ∧
        (d.Matches s → t.content operand.1 = operand.2.toNat)) ∧
      ∀ operand ∈ refused :: unsent, t.content operand.1 = s.content operand.1
  | .error _ => False

/-- The numbers are sent to an engine whose prime size is the one asked for, or fixed. -/
theorem curveLoaded_sent {s' u : State} (hparams : s'.params = s.params)
    (hcontent : s'.content = s.content)
    (hdynamic : s.params.dynamicSize = true → s'.size = 8 * max p.length q.length % 2 ^ 16)
    (hfixed : s.params.dynamicSize = false → s'.size = s.size)
    (hu : u.Alike ((d.fitting s' (curveOperands a b p q)).foldl d.received s')) :
    CurveLoaded d s a b p q u
      (if d.allFit s' (curveOperands a b p q) then .ok () else .error .numberTooLarge) := by
  have hmatches (hmatch : d.Matches s) : d.Matches s' := by rwa [Matches, hparams]
  have hsize : u.size = s'.size := (hu.field State.size fun _ => rfl).trans (size_foldl_received _)
  have hsent (destination : Destination) :
      u.content destination =
        ((d.fitting s' (curveOperands a b p q)).foldl d.received s').content destination :=
    hu.field (fun u => u.content destination) fun _ => by cases destination <;> rfl
  cases hall : d.allFit s' (curveOperands a b p q) with
  | true =>
    refine ⟨fun hmatch => ?_, fun hdyn => ?_⟩
    · exact (hu.field State.curve fun _ => rfl).trans (curve_received (hmatches hmatch) hall)
    -- the longer of `p` and `q` fits, so the register has lost nothing of the size
    have hfits : d.Fits s' (max p.length q.length) := by
      rcases Nat.le_total p.length q.length with hle | hle
      · rw [Nat.max_eq_right hle]
        exact of_decide_eq_true (List.all_eq_true.mp hall (.number .q, q) (by simp [curveOperands]))
      · rw [Nat.max_eq_left hle]
        exact of_decide_eq_true (List.all_eq_true.mp hall (.number .p, p) (by simp [curveOperands]))
    have hsmall := size_of_fits (hdynamic hdyn) hfits
    rw [hsize, hdynamic hdyn]
    omega
  | false =>
    obtain ⟨sent, refused, unsent, hsplit, hrefused, hnew, hold⟩ := content_interrupted hall
    refine ⟨fun hdyn hsmall => ?_, fun hfix => hsize.trans (hfixed hfix), sent, refused, unsent,
      hsplit, mt (fits_of_size hsize).mp hrefused, fun operand hmem => ?_, fun operand hmem => ?_⟩
    · rw [hsize, hdynamic hdyn]
      omega
    · obtain ⟨hfits, hvalue⟩ := hnew operand hmem
      exact ⟨(fits_of_size hsize).mpr hfits, fun hmatch =>
        (hsent _).trans (hvalue (hmatches hmatch))⟩
    · rw [hsent, hold operand hmem, hcontent]

/-- **A curve is loaded step by step.** On an engine at rest that has latched no error: where the call
returns, the four numbers are at their registers, given a driver of the engine's width, and the
prime size is that of the longer of `p` and `q` if it can be changed. Where the size is refused, by
the driver or by the engine, neither the size nor a number has changed. Where a number is refused
the size has been set before, the numbers sent before it have replaced the old ones, and it and
those after it have not. There is no other error. -/
theorem setCurve_loads (d : Driver) (s : State) (a b p q : Bytes) (hs : Reachable s)
    (hresting : s.multiplying = false) (hclear : s.errors = 0)
    (hpatient : max s.params.latency 3 < d.checks) :
    ∃ result t, Ends bus (d.setCurve a b p q).run s result t ∧ CurveLoaded d s a b p q t result := by
  have hready : Ready d s := ⟨⟨hs.coherent, hresting, hpatient⟩, hclear⟩
  have hregister := curveSize_mod p q
  by_cases hlarge : curveSize p q > s.shownMaxSize
  · refine ⟨_, s, (ends_setCurve _ _).mpr (setSize_tooLarge hlarge).bind, ?_, rfl, rfl⟩
    exact Nat.lt_of_lt_of_le hlarge (curveSize_le p q)
  have hsize := Nat.le_of_not_lt hlarge
  cases hdynamic : s.params.dynamicSize with
  | false =>
    obtain ⟨u, hsends, hu⟩ := setCurve_sends (a := a) (b := b) (setSize_fixed hsize hdynamic) hready
      (.refl s)
    exact ⟨_, u, hsends, curveLoaded_sent rfl rfl (by simp [hdynamic]) (fun _ => rfl) hu⟩
  | true =>
    by_cases hmin : minSize ≤ curveSize p q % 2 ^ 16
    · obtain ⟨v, htaken, hv, halike⟩ := setSize_taken hready hsize hdynamic hmin
      obtain ⟨u, hsends, hu⟩ := setCurve_sends (a := a) (b := b) htaken hv halike
      exact ⟨_, u, hsends, curveLoaded_sent rfl rfl (fun _ => hregister) (by simp [hdynamic]) hu⟩
    · obtain ⟨v, hrefused, -, hv⟩ := setSize_refused hready hsize hdynamic (Nat.lt_of_not_le hmin)
      refine ⟨_, v, (ends_setCurve _ _).mpr hrefused.bind, fun hsmall => ?_,
        hv.field State.size fun _ => rfl, hv.field State.curve fun _ => rfl⟩
      unfold minSize at hmin
      omega

/-- The curve `y² = x³ + 2x + 3` modulo 97, loaded into an engine after power-up. -/
theorem setCurve_loads_97 :
    ∃ t, Returns bus ((⟨{}, 10⟩ : Driver).setCurve [2] [3] [97] [5]) (.powerUp {} fun _ => 0) () t ∧
      t.curve = ⟨97, 2, 3, 5⟩ ∧ t.size = 8 := by
  obtain ⟨result, t, hends, hloaded⟩ := setCurve_loads ⟨{}, 10⟩ (.powerUp {} fun _ => 0) [2] [3] [97]
    [5] (.powerUp _ _) rfl rfl (by decide)
  match result, hloaded with
  | .ok (), ⟨hcurve, hsize⟩ => exact ⟨t, hends, hcurve rfl, hsize rfl⟩
  | .error .sizeTooLarge, ⟨hlarge, _⟩ => exact absurd hlarge (by decide)
  | .error (.hardware _), ⟨hempty, _⟩ => exact absurd (hempty (by decide)) (by decide)
  | .error .numberTooLarge, ⟨hsize, _, sent, refused, unsent, hsplit, hrefused, _⟩ =>
    -- each of the four numbers takes one byte, as the prime size does
    have hall : ∀ operand ∈ curveOperands [2] [3] [97] [5], operand.2.length = 1 := by decide
    have hone : refused.2.length = 1 := hall refused (by simp [hsplit])
    have hbytes : t.numberBytes = 1 := by rw [State.numberBytes, hsize rfl (by decide)]; rfl
    exact absurd (fits_of_le (by rw [hone, hbytes])) hrefused

/-- **A refused curve can leave a mixture.** A curve for which `a` is too long is refused, and leaves
its `p` and its prime size with the other three numbers as they were before. A driver of the other
width does not even put into the registers what it has sent. -/
theorem setCurve_mixes :
    let s : State := .powerUp {} fun _ => 0
    Reachable s ∧ s.multiplying = false ∧ s.errors = 0 ∧
      max s.params.latency 3 < (⟨{}, 10⟩ : Driver).checks ∧ s.params.dynamicSize = true ∧
      s.size = 256 ∧ s.curve = ⟨0, 0, 0, 0⟩ ∧
      (∃ t, Throws bus ((⟨{}, 10⟩ : Driver).setCurve [0, 0, 0, 0, 0] [1] [11, 11, 11, 11] [7]) s
          .numberTooLarge t ∧ t.size = 32 ∧ t.curve = ⟨0x0b0b0b0b, 0, 0, 0⟩) ∧
      ∃ t, Returns bus
          ((⟨{ width := .wide }, 10⟩ : Driver).setCurve [2] [3] [0, 0, 0, 1, 0, 0, 0, 97] [5]) s () t ∧
        t.curve = ⟨97, 2, 3, 5⟩ := by
  intro s
  have hs : Reachable s := .powerUp _ _
  refine ⟨hs, rfl, rfl, by decide, rfl, rfl, rfl, ?_, ?_⟩
  · obtain ⟨v, htaken, hv, halike⟩ := setSize_taken (d := ⟨{}, 10⟩) (s := s)
      ⟨⟨hs.coherent, rfl, by decide⟩, rfl⟩ (show 32 ≤ s.shownMaxSize by decide) rfl (by decide)
    obtain ⟨t, hends, ht⟩ := setCurve_sends (a := [0, 0, 0, 0, 0]) (b := [1])
      (p := [11, 11, 11, 11]) (q := [7]) htaken hv halike
    rw [if_neg (by decide)] at hends
    refine ⟨t, hends, (ht.field State.size fun _ => rfl).trans (size_foldl_received _), ?_⟩
    exact (ht.field State.curve fun _ => rfl).trans (by decide)
  · obtain ⟨v, htaken, hv, halike⟩ := setSize_taken (d := ⟨{ width := .wide }, 10⟩) (s := s)
      ⟨⟨hs.coherent, rfl, by decide⟩, rfl⟩ (show 64 ≤ s.shownMaxSize by decide) rfl (by decide)
    obtain ⟨t, hends, ht⟩ := setCurve_sends (a := [2]) (b := [3]) (p := [0, 0, 0, 1, 0, 0, 0, 97])
      (q := [5]) htaken hv halike
    rw [if_pos (by decide)] at hends
    exact ⟨t, hends, (ht.field State.curve fun _ => rfl).trans (by decide)⟩

end Driver

end CurveEngine
