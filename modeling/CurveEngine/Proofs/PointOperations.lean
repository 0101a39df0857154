import CurveEngine.Proofs.LostFlags

/-! Point operations, end to end.

An operation sends its operands to R0 and R1, restores the infinity flags that this has
cleared, and has the engine compute (`does_operate`). A point that was flagged as infinity
before is infinity for the operation, whatever is sent; any other is what is sent, reduced
or not. The result comes back from R1, the answer of a test from the status
(`point_operations`), and nothing else of the engine has changed (`Spares`). -/
namespace CurveEngine
open Register Procedure Device Operation

namespace Device.State

/-- What an operation on points makes of a state. -/
def effect (operation : PointOperation) (s : State) : State :=
  match operation with
  | .multiply => s
  | .add => s.setR1 (s.curve.add s.pointR0 s.pointR1)
  | .double => s.setR1 (s.curve.double s.pointR0)
  | .negate => s.setR1 (s.curve.neg s.pointR0)
  | .check => { s with yes := s.curve.contains s.pointR0 }
  | .equal => { s with yes := s.pointR0 == s.pointR1 }
  | .opposite => { s with yes := s.pointR0 == s.curve.neg s.pointR1 }

theorem operate_word (s : State) (operation : PointOperation) :
    s.operate (Command.operate operation).word =
      { s.effect operation with operationTime := 1 } := by
  cases operation <;> rfl

@[simp]
theorem curve_begun (s : State) : s.begun.curve = s.curve := rfl

@[simp]
theorem pointR0_begun (s : State) : s.begun.pointR0 = s.pointR0 := rfl

@[simp]
theorem pointR1_begun (s : State) : s.begun.pointR1 = s.pointR1 := rfl

theorem pointR0_content (s : State) : s.pointR0 =
    if s.r0Null then .infinity
    else .affine (s.content (.number .xR0)) (s.content (.number .yR0)) := rfl

theorem pointR1_content (s : State) : s.pointR1 =
    if s.r1Null then .infinity
    else .affine (s.content (.number .xR1)) (s.content (.number .yR1)) := rfl

/-- A state without what an operation on points works on: the coordinates of the points,
the flag of R1, the answer of a test, the transfer, the operation time, and the passage of
time. -/
def surroundings (s : State) : State :=
  { s.settled with
    numbers := { s.numbers with xR0 := 0, yR0 := 0, xR1 := 0, yR1 := 0 }
    r1Null := false
    yes := false
    transfer := none
    operationTime := 0 }

theorem surroundings_setR1 (s : State) (P : Point) :
    ({ s.begun.setR1 P with operationTime := 1 } : State).surroundings = s.surroundings := rfl

/-- What does not depend on what an operation works on is the same where the rest is. -/
theorem field_of_surroundings {α : Type} {s t : State} (h : t.surroundings = s.surroundings)
    (f : State → α) (hf : ∀ u : State, f u.surroundings = f u) : f t = f s := by
  rw [← hf t, h, hf]

end Device.State

namespace Driver
variable {d : Driver} {s : State}

/-! ### Sending operands -/

/-- Whatever is received, what is still to be sent fits as before. -/
theorem fits_received (operand : Destination × Bytes) {rest : List (Destination × Bytes)}
    (h : ∀ other ∈ rest, d.Fits s other.2.length) :
    ∀ other ∈ rest, d.Fits (d.received s operand) other.2.length :=
  fun other hother => (fits_of_size (size_received s operand)).mpr (h other hother)

theorem content_received (hwidth : d.Matches s) {operand : Destination × Bytes}
    (h : d.Fits s operand.2.length) (r : Destination) :
    (d.received s operand).content r =
      if r = operand.1 then operand.2.toNat else s.content r := by
  rw [received, State.content_receiving, gathered_of_matches hwidth h]

theorem does_send {operands : List (Destination × Bytes)}
    (h : ∀ operand ∈ operands, d.Fits s operand.2.length) :
    Does (Ready d) (d.send operands) s () (operands.foldl d.received s) := by
  induction operands generalizing s with
  | nil => exact Does.pure ()
  | cons operand rest ih =>
    obtain ⟨hfirst, hrest⟩ := List.forall_mem_cons.mp h
    exact (does_writeNumber operand.1 hfirst).bind (ih (fits_received operand hrest))

/-- An engine with the operands of an operation in place, and its flags as they were. -/
def primed (d : Driver) (operands : List (Destination × Bytes)) (s : State) : State :=
  { operands.foldl d.received s with r0Null := s.r0Null, r1Null := s.r1Null }

/-- What was sent last to a register is in it, if it was sent to at all. -/
theorem content_primed (hwidth : d.Matches s) {operands : List (Destination × Bytes)}
    (h : ∀ operand ∈ operands, d.Fits s operand.2.length) (r : Destination) :
    (d.primed operands s).content r =
      operands.foldl (fun value operand => if r = operand.1 then operand.2.toNat else value)
        (s.content r) := by
  have hfold : (operands.foldl d.received s).content r =
      operands.foldl (fun value operand => if r = operand.1 then operand.2.toNat else value)
        (s.content r) := by
    induction operands generalizing s with
    | nil => rfl
    | cons operand rest ih =>
      obtain ⟨hfirst, hrest⟩ := List.forall_mem_cons.mp h
      rw [List.foldl_cons, List.foldl_cons, ← content_received hwidth hfirst]
      exact ih (matches_receiving hwidth _ _ _) (fits_received operand hrest)
  rw [← hfold]
  cases r <;> rfl

/-- Points that are sent change nothing but what an operation on points works on. -/
theorem surroundings_primed {operands : List (Destination × Bytes)}
    (h : ∀ operand ∈ operands, ∃ point, operand.1.belongsTo point = true) :
    (d.primed operands s).surroundings = s.surroundings := by
  suffices hfold : ∀ flag, ({ operands.foldl d.received s with r0Null := flag } : State).surroundings =
      ({ s with r0Null := flag } : State).surroundings from hfold s.r0Null
  intro flag
  induction operands generalizing s with
  | nil => rfl
  | cons operand rest ih =>
    obtain ⟨destination, bytes⟩ := operand
    obtain ⟨⟨point, hpoint⟩, hrest⟩ := List.forall_mem_cons.mp h
    refine (ih hrest).trans ?_
    cases destination with
    | number n => cases n <;> cases point <;> cases hpoint <;> rfl
    | scalar => cases hpoint

/-- The command of an operation on points is carried out at once. -/
theorem does_command {operation : PointOperation} (h : operation ≠ .multiply) :
    Does (Ready d) (d.execute operation) s ()
      { s.begun.effect operation with operationTime := 1 } := by
  refine does_writeSettled _ _ (fun u hu hresting => ?_) ?_
  · have hword : u.writeSink .control (Command.operate operation).word.toUInt64 =
        u.begun.operate (Command.operate operation).word := by
      obtain ⟨hwrite, hread⟩ := not_or.mp (not_opensTransfer operation)
      have hmultiply : Control.multiply.test (Command.operate operation).word = false := by
        cases operation <;> first | exact absurd rfl h | decide
      show u.control (UInt64.toUInt32 _) = _
      rw [UInt32.toUInt32_toUInt64, State.control_begun hresting hwrite hread, hmultiply]
      rfl
    rw [hword, ← State.operate_word]
    exact (hu.apply (show State.Timeless State.begun from fun _ => rfl)).apply
      (State.timeless_operate _)
  · cases operation <;> rfl

/-- An operation on points computes with the operands that it has sent. -/
theorem does_operate {operation : PointOperation} (h : operation ≠ .multiply)
    {operands : List (Destination × Bytes)}
    (hfits : ∀ operand ∈ operands, d.Fits s operand.2.length) :
    Does (Ready d) (d.operate operation operands) s ()
      { (d.primed operands s).begun.effect operation with operationTime := 1 } :=
  (does_notify _).bind (does_saveFlags.bind ((does_send hfits).bind
    ((does_restoreFlags _).bind (does_command h))))

/-! ### What comes back -/

/-- An operation on points has latched no error, and has left alone what it does not work
on. -/
structure Spares (s t : State) : Prop where
  errors : t.errors = 0
  r0Null : t.r0Null = s.r0Null
  curve : t.curve = s.curve
  scalar : t.scalar = s.scalar
  surroundings : t.surroundings = s.surroundings

/-- An operation returns a point, which is then in R1. -/
def Yields (op : Operation PointAnswer) (s : State) (result : Point) : Prop :=
  ∃ out t, Returns bus op s out t ∧ out.isInfinity = result.isInfinity ∧
    (out.x.length = (s.size + 7) / 8 ∧ out.x.toNat = result.coords.1) ∧
    (out.y.length = (s.size + 7) / 8 ∧ out.y.toNat = result.coords.2) ∧
    t.r1Null = result.isInfinity ∧ Spares s t

/-- An operation returns the answer of a test, and leaves R1 alone. -/
def Decides (op : Operation Bool) (s : State) (result : Bool) : Prop :=
  ∃ t, Returns bus op s result t ∧ t.r1Null = s.r1Null ∧ Spares s t

theorem Spares.of_alike {t u : State} (hclear : s.errors = 0) (ht : t.Alike u)
    (same : u.surroundings = s.surroundings) : Spares s t := by
  have hrest : t.surroundings = s.surroundings :=
    (ht.field State.surroundings fun _ => rfl).trans same
  have hfield {α : Type} := State.field_of_surroundings (α := α) hrest
  exact ⟨(hfield State.errors fun _ => rfl).trans hclear, hfield State.r0Null fun _ => rfl,
    hfield State.curve fun _ => rfl, hfield State.scalar fun _ => rfl, hrest⟩

section Results
variable {operation : PointOperation} {operands : List (Destination × Bytes)}

/-- What an operation computes comes back from R1, as far as it fits there. -/
theorem yields_of_effect (hready : Ready d s) (hwidth : d.Matches s) (hsize : s.size ≤ 0xffff)
    (hoperation : operation ≠ .multiply) (hfits : ∀ operand ∈ operands, d.Fits s operand.2.length)
    (hrest : (d.primed operands s).surroundings = s.surroundings) {result : Point}
    (heffect : (d.primed operands s).begun.effect operation =
      (d.primed operands s).begun.setR1 result)
    (hbelow : result.Below (256 ^ ((s.size + 7) / 8))) :
    Yields (do d.operate operation operands; d.readPoint .r1) s result := by
  have hoperate := does_operate hoperation hfits
  rw [heffect] at hoperate
  have hdoes := hoperate.bind (f := fun _ => d.readPoint .r1) (does_readPoint .r1)
  generalize hstate : ({ (d.primed operands s).begun.setR1 result with operationTime := 1 } : State) =
    u at hdoes
  have hsame : u.surroundings = s.surroundings := by
    rw [← hstate, State.surroundings_setR1, hrest]
  have hmatch : d.Matches u := by
    rwa [Matches, State.field_of_surroundings hsame State.params fun _ => rfl]
  have hbytes : u.numberBytes = (s.size + 7) / 8 := by
    rw [State.numberBytes, State.field_of_surroundings hsame State.size fun _ => rfl,
      Nat.mod_eq_of_lt (by omega)]
  have hcoordinate (n : Number) (hn : u.numbers.get n < 256 ^ ((s.size + 7) / 8)) :
      (d.coordinateBytes u n).length = (s.size + 7) / 8 ∧
        (d.coordinateBytes u n).toNat = u.numbers.get n := by
    refine ⟨(length_coordinateBytes n).trans hbytes, ?_⟩
    rw [coordinateBytes, toNat_delivered_blank hmatch, hbytes, Nat.mod_eq_of_lt hn]
  have hx : u.numbers.get .xR1 = result.coords.1 := by
    rw [← hstate]
    rfl
  have hy : u.numbers.get .yR1 = result.coords.2 := by
    rw [← hstate]
    rfl
  have hnull : u.r1Null = result.isInfinity := by
    rw [← hstate]
    rfl
  obtain ⟨t, hreturns, -⟩ := hdoes.returns s (.refl s) hready
  have halike := (hdoes.only s _ t (.refl s) hreturns).2
  obtain ⟨hlx, hvx⟩ := hcoordinate .xR1 (hx ▸ hbelow.1)
  obtain ⟨hly, hvy⟩ := hcoordinate .yR1 (hy ▸ hbelow.2)
  exact ⟨_, t, hreturns, hnull, ⟨hlx, hvx.trans hx⟩, ⟨hly, hvy.trans hy⟩,
    (halike.field State.r1Null fun _ => rfl).trans hnull, .of_alike hready.clear halike hsame⟩

/-- The answer of a test comes back from the status. -/
theorem decides_of_effect (hready : Ready d s) (hoperation : operation ≠ .multiply)
    (hfits : ∀ operand ∈ operands, d.Fits s operand.2.length)
    (hrest : (d.primed operands s).surroundings = s.surroundings) {result : Bool}
    (heffect : (d.primed operands s).begun.effect operation =
      { (d.primed operands s).begun with yes := result }) :
    Decides (do d.operate operation operands; d.answer) s result := by
  have hoperate := does_operate hoperation hfits
  rw [heffect] at hoperate
  have hanswer : Does (Ready d) (liftM d.answer)
      { (d.primed operands s).begun with yes := result, operationTime := 1 } result
      { (d.primed operands s).begun with yes := result, operationTime := 1 } := by
    refine Does.lift fun t ht => ⟨t.readStatus.2, ?_, t.settled_readStatus.trans ht,
      Ready.readStatus⟩
    simp only [answer, ends_bind, ends_status, ends_pure]
    refine ⟨_, _, ⟨rfl, rfl⟩, ?_, rfl⟩
    rw [State.yes_readStatus]
    exact (ht.field State.yes fun _ => rfl).symm
  have hdoes := hoperate.bind (f := fun _ => liftM d.answer) hanswer
  obtain ⟨t, hreturns, -⟩ := hdoes.returns s (.refl s) hready
  have halike := (hdoes.only s _ t (.refl s) hreturns).2
  exact ⟨t, hreturns, halike.field State.r1Null fun _ => rfl, .of_alike hready.clear halike hrest⟩

end Results

/-! ### The operands -/

/-- A point as an operation takes it: what is sent, unless its register is flagged. -/
def operandOf (flagged : Bool) (p : Coordinates) : Point :=
  if flagged then .infinity else .affine p.x.toNat p.y.toNat

theorem below_operandOf (flagged : Bool) {p : Coordinates} {n : Nat} (hx : p.x.length ≤ n)
    (hy : p.y.length ≤ n) : (operandOf flagged p).Below (256 ^ n) := by
  have hbound {bytes : Bytes} (h : bytes.length ≤ n) : bytes.toNat < 256 ^ n :=
    Nat.lt_of_lt_of_le (Bytes.toNat_lt bytes) (Nat.pow_le_pow_right (by decide) h)
  unfold operandOf
  split
  · exact ⟨Nat.pos_of_ne_zero (by simp), Nat.pos_of_ne_zero (by simp)⟩
  · exact ⟨hbound hx, hbound hy⟩

section Operands
variable {p q : Coordinates}

theorem pointOperands_fit (point : PointRegister) (hx : d.Fits s p.x.length)
    (hy : d.Fits s p.y.length) :
    ∀ operand ∈ Call.pointOperands point p, d.Fits s operand.2.length :=
  List.forall_mem_cons.mpr ⟨hx, List.forall_mem_singleton.mpr hy⟩

theorem pointOperands_belong (point : PointRegister) (p : Coordinates) :
    ∀ operand ∈ Call.pointOperands point p, ∃ point, operand.1.belongsTo point = true :=
  List.forall_mem_cons.mpr ⟨⟨point, by cases point <;> rfl⟩,
    List.forall_mem_singleton.mpr ⟨point, by cases point <;> rfl⟩⟩

theorem pointR0_primed (hwidth : d.Matches s) (hx : d.Fits s p.x.length)
    (hy : d.Fits s p.y.length) :
    (d.primed (Call.pointOperands .r0 p) s).pointR0 = operandOf s.r0Null p := by
  have hcontent := content_primed hwidth (pointOperands_fit .r0 hx hy)
  rw [State.pointR0_content, hcontent, hcontent]
  simp [primed, Call.pointOperands, PointRegister.x, PointRegister.y, operandOf]

theorem points_primed (hwidth : d.Matches s) (hpx : d.Fits s p.x.length)
    (hpy : d.Fits s p.y.length) (hqx : d.Fits s q.x.length) (hqy : d.Fits s q.y.length) :
    (d.primed (Call.pointOperands .r0 p ++ Call.pointOperands .r1 q) s).pointR0 =
        operandOf s.r0Null p ∧
      (d.primed (Call.pointOperands .r0 p ++ Call.pointOperands .r1 q) s).pointR1 =
        operandOf s.r1Null q := by
  have hcontent := content_primed hwidth (List.forall_mem_append.mpr
    ⟨pointOperands_fit .r0 hpx hpy, pointOperands_fit .r1 hqx hqy⟩)
  rw [State.pointR0_content, State.pointR1_content, hcontent, hcontent, hcontent, hcontent]
  simp [primed, Call.pointOperands, PointRegister.x, PointRegister.y, operandOf]

end Operands

/-- The operations on points return what the formulas of the curve make of their operands,
and leave everything but R1 alone. Unless its register is flagged as infinity, an operand
is what was sent, which need not be reduced, nor on the curve. -/
theorem point_operations (d : Driver) (s : State) (p q : Coordinates) (hs : Reachable s)
    (hresting : s.multiplying = false) (hclear : s.errors = 0) (hwidth : d.Matches s)
    (hpatient : max s.params.latency 3 < d.checks) (hsize : s.size ≤ 0xffff)
    (hprime : s.numbers.p < 2 ^ s.size)
    (hpx : p.x.length ≤ (s.size + 7) / 8) (hpy : p.y.length ≤ (s.size + 7) / 8)
    (hqx : q.x.length ≤ (s.size + 7) / 8) (hqy : q.y.length ≤ (s.size + 7) / 8) :
    Yields (d.add p q) s (s.curve.add (operandOf s.r0Null p) (operandOf s.r1Null q)) ∧
      Yields (d.double p) s (s.curve.double (operandOf s.r0Null p)) ∧
      Yields (d.negate p) s (s.curve.neg (operandOf s.r0Null p)) ∧
      Decides (d.isOnCurve p) s (s.curve.contains (operandOf s.r0Null p)) ∧
      Decides (d.equal p q) s (decide (operandOf s.r0Null p = operandOf s.r1Null q)) ∧
      Decides (d.opposite p q) s
        (decide (operandOf s.r0Null p = s.curve.neg (operandOf s.r1Null q))) := by
  have hready : Ready d s := ⟨⟨hs.coherent, hresting, hpatient⟩, hclear⟩
  have hfits {bytes : Bytes} (h : bytes.length ≤ (s.size + 7) / 8) : d.Fits s bytes.length := by
    refine fits_of_le (Nat.le_trans h ?_)
    rw [State.numberBytes, Nat.mod_eq_of_lt (by omega)]
  -- what is computed from
  have hone := pointOperands_fit (d := d) .r0 (hfits hpx) (hfits hpy)
  have htwo := List.forall_mem_append.mpr ⟨hone, pointOperands_fit .r1 (hfits hqx) (hfits hqy)⟩
  have hrest := surroundings_primed (d := d) (s := s) (pointOperands_belong .r0 p)
  have hrest₂ := surroundings_primed (d := d) (s := s) (List.forall_mem_append.mpr
    ⟨pointOperands_belong .r0 p, pointOperands_belong .r1 q⟩)
  have hP := pointR0_primed hwidth (hfits hpx) (hfits hpy)
  obtain ⟨hP₂, hQ⟩ := points_primed hwidth (hfits hpx) (hfits hpy) (hfits hqx) (hfits hqy)
  have hcurve := State.field_of_surroundings hrest State.curve fun _ => rfl
  have hcurve₂ := State.field_of_surroundings hrest₂ State.curve fun _ => rfl
  -- what comes back fits, reduced or not
  have hbound : max s.curve.p 1 ≤ 256 ^ ((s.size + 7) / 8) := by
    rw [Bytes.pow_eight_mul]
    exact Nat.max_le.mpr ⟨Nat.le_trans (Nat.le_of_lt hprime)
      (Nat.pow_le_pow_right (by decide) (by omega)), Nat.two_pow_pos _⟩
  have hbelow := below_operandOf s.r0Null hpx hpy
  have hbelow₂ := below_operandOf s.r1Null hqx hqy
  simp only [add, double, negate, isOnCurve, equal, opposite, operateOne_eq, operateTwo_eq]
  refine ⟨?add, ?double, ?negate, ?check, ?equal, ?opposite⟩
  case add =>
    refine yields_of_effect hready hwidth hsize (by decide) htwo hrest₂ ?_
      (Curve.below_add hbound hbelow hbelow₂)
    simp only [State.effect, State.curve_begun, State.pointR0_begun, State.pointR1_begun,
      hcurve₂, hP₂, hQ]
  case double =>
    refine yields_of_effect hready hwidth hsize (by decide) hone hrest ?_
      ((Curve.reduced_double _).below hbound)
    simp only [State.effect, State.curve_begun, State.pointR0_begun, hcurve, hP]
  case negate =>
    refine yields_of_effect hready hwidth hsize (by decide) hone hrest ?_
      (Curve.below_neg hbound hbelow)
    simp only [State.effect, State.curve_begun, State.pointR0_begun, hcurve, hP]
  case check =>
    refine decides_of_effect hready (by decide) hone hrest ?_
    simp only [State.effect, State.curve_begun, State.pointR0_begun, hcurve, hP]
  case equal =>
    refine decides_of_effect hready (by decide) htwo hrest₂ ?_
    simp only [State.effect, State.pointR0_begun, State.pointR1_begun, hP₂, hQ, beq_eq_decide]
  case opposite =>
    refine decides_of_effect hready (by decide) htwo hrest₂ ?_
    simp only [State.effect, State.curve_begun, State.pointR0_begun, State.pointR1_begun,
      hcurve₂, hP₂, hQ, beq_eq_decide]

/-- The small engine with no point flagged as infinity. -/
def unflagged97 : State := curve97.serveAll [.write .word Sink.r0Null.offset 0]

/-- The unreduced point `(100, 6)`, which stands for `(3, 6)`, and its opposite. -/
theorem point_operations_unflagged97 :
    let d : Driver := ⟨{}, 10⟩
    let p : Coordinates := ⟨[100], [6]⟩
    let q : Coordinates := ⟨[100], [91]⟩
    Yields (d.add p q) unflagged97 .infinity ∧
      Yields (d.double p) unflagged97 (.affine 80 10) ∧
      Yields (d.negate p) unflagged97 (.affine 100 91) ∧
      Decides (d.isOnCurve p) unflagged97 false ∧
      Decides (d.equal p q) unflagged97 false ∧
      Decides (d.opposite p q) unflagged97 true := by
  intro d p q
  have hadd : unflagged97.curve.add (.affine 100 6) (.affine 100 91) = .infinity := by decide +kernel
  have hdouble : unflagged97.curve.double (.affine 100 6) = .affine 80 10 := by decide +kernel
  have hneg : unflagged97.curve.neg (.affine 100 6) = .affine 100 91 := by decide +kernel
  have hcheck : unflagged97.curve.contains (.affine 100 6) = false := by decide +kernel
  have hopposite : unflagged97.curve.neg (.affine 100 91) = .affine 100 6 := by decide +kernel
  have hresults := point_operations d unflagged97 p q (reachable_curve97.serveAll _) rfl rfl rfl
    (by decide) (by decide) (by decide) (by decide) (by decide) (by decide) (by decide)
  have hP : operandOf unflagged97.r0Null p = .affine 100 6 := by decide +kernel
  have hQ : operandOf unflagged97.r1Null q = .affine 100 91 := by decide +kernel
  rw [hP, hQ, hadd, hdouble, hneg, hcheck, hopposite] at hresults
  exact hresults

end Driver

end CurveEngine
