import CurveEngine.Driver.Call
import CurveEngine.Proofs.RoundTrip
import CurveEngine.Proofs.Upheld

/-! The operands of a point operation, and sending them.

An operation sends its operands one by one, each to its register. Sending stops at the first
operand that does not fit, and with an error that was latched from before it stops at the
first of all; the infinity flags of the points that it has come to are cleared
(`send_ends`, `send_latched`). No point command is issued on the way (`foreign_issues`,
`Foreign.send`). -/
namespace CurveEngine
open Register Procedure Device Operation

/-! ### What a call sends -/

namespace Call

/-- The coordinates of a point, as operands with the registers they go to. -/
def pointOperands (point : PointRegister) (p : Driver.Coordinates) : List (Destination × Bytes) :=
  [(.number point.x, p.x), (.number point.y, p.y)]

/-- The point command that a call comes down to, if it is a point operation. -/
def operation? : Call → Option PointOperation
  | .add .. => some .add
  | .double .. => some .double
  | .negate .. => some .negate
  | .isOnCurve .. => some .check
  | .equal .. => some .equal
  | .opposite .. => some .opposite
  | .multiply .. => some .multiply
  | .multiplyTraced .. => some .multiply
  | _ => none

/-- What it sends before that command, in order. -/
def operands : Call → List (Destination × Bytes)
  | .add p q | .equal p q | .opposite p q => pointOperands .r0 p ++ pointOperands .r1 q
  | .double p | .negate p | .isOnCurve p => pointOperands .r0 p
  | .multiply p k | .multiplyTraced p k _ => (.scalar, k) :: pointOperands .r1 p
  | _ => []

def isTraced : Call → Bool
  | .multiplyTraced .. => true
  | _ => false

end Call

namespace Driver
variable {d : Driver} {s t : State} {α : Type}

instance (d : Driver) (s : State) (len : Nat) : Decidable (d.Fits s len) :=
  inferInstanceAs (Decidable (_ ≤ _))

/-- Whether all operands fit. -/
def allFit (d : Driver) (s : State) (operands : List (Destination × Bytes)) : Bool :=
  operands.all fun operand => d.Fits s operand.2.length

/-- The operands before the first that does not fit. -/
def fitting (d : Driver) (s : State) (operands : List (Destination × Bytes)) :
    List (Destination × Bytes) :=
  operands.takeWhile fun operand => d.Fits s operand.2.length

/-- One of the operands is a coordinate of a point. -/
def touches (operands : List (Destination × Bytes)) (point : PointRegister) : Bool :=
  operands.any fun operand => operand.1.belongsTo point

/-- The operands that have been begun to be sent when an operation fails before its command.
An error that is latched from before is noticed after the first of them. Where all of them
fit, the flags have been restored. -/
def interrupted (d : Driver) (s : State) (operands : List (Destination × Bytes)) :
    List (Destination × Bytes) :=
  if s.errors ≠ 0 then (d.fitting s operands).take 1
  else if d.allFit s operands then []
  else d.fitting s operands

/-- Those of a call. A multiplication notices errors from before as it fetches its token, and
a traced one sends nothing to an engine that is not for debugging. -/
def abandoned (d : Driver) (s : State) (call : Call) : List (Destination × Bytes) :=
  if call.operation? = some .multiply ∧
      (s.errors ≠ 0 ∨ call.isTraced = true ∧ s.params.debug = false) then []
  else d.interrupted s call.operands

/-! ### Sending operands -/

/-- Sends operands one after the other. -/
def send (d : Driver) (operands : List (Destination × Bytes)) : Operation Unit :=
  operands.forM fun operand => d.writeNumber operand.2 operand.1

theorem fitting_of_size (h : t.size = s.size) (operands : List (Destination × Bytes)) :
    d.fitting t operands = d.fitting s operands ∧ d.allFit t operands = d.allFit s operands := by
  simp only [fitting, allFit, fits_of_size h, and_self]

theorem nullOf_alike (h : t.Alike s) (point : PointRegister) : nullOf t point = nullOf s point :=
  h.field (nullOf · point) fun _ => by cases point <;> rfl

/-- An engine that has received an operand. -/
def received (d : Driver) (s : State) (operand : Destination × Bytes) : State :=
  (s.unflag operand.1).receiving operand.1 (d.gathered s operand.2) (d.words s)

theorem size_received (s : State) (operand : Destination × Bytes) :
    (d.received s operand).size = s.size := by
  obtain ⟨destination, bytes⟩ := operand
  cases destination <;> rfl

theorem fitting_cons {operand : Destination × Bytes} (hfits : d.Fits s operand.2.length)
    (rest : List (Destination × Bytes)) :
    d.fitting s (operand :: rest) = operand :: d.fitting s rest := by
  rw [fitting, List.takeWhile_cons, if_pos (decide_eq_true hfits)]
  rfl

theorem fitting_stops {operand : Destination × Bytes} (hfits : ¬ d.Fits s operand.2.length)
    (rest : List (Destination × Bytes)) : d.fitting s (operand :: rest) = [] := by
  rw [fitting, List.takeWhile_cons, if_neg (by simpa using hfits)]

/-- On an engine that is ready, sending stops at the first operand that does not fit. -/
theorem send_received (ht : t.Alike s) (hready : Ready d t) (operands : List (Destination × Bytes)) :
    ∃ u, Ends bus (d.send operands).run t
        (if d.allFit s operands then .ok () else .error .numberTooLarge) u ∧
      Ready d u ∧ u.Alike ((d.fitting s operands).foldl d.received s) := by
  induction operands generalizing s t with
  | nil => exact ⟨t, (returns_forM_nil _ _ _).mpr rfl, hready, ht⟩
  | cons operand rest ih =>
    by_cases hfits : d.Fits s operand.2.length
    · have hdoes := does_writeNumber operand.1 hfits
      obtain ⟨u, hwrite, hu⟩ := hdoes.returns t ht hready
      obtain ⟨v, hrest, hv, halike⟩ :=
        ih (s := d.received s operand) (hdoes.only t () u ht hwrite).2 hu
      obtain ⟨hfitting, hall⟩ := fitting_of_size (d := d) (size_received (d := d) s operand) rest
      rw [hall] at hrest
      rw [hfitting] at halike
      refine ⟨v, ?_, hv, ?_⟩
      · simp only [allFit, List.all_cons, hfits, decide_true, Bool.true_and]
        exact hwrite.ends_run_bind.mpr hrest
      · rwa [fitting_cons hfits]
    · have hrefused : ¬ d.Fits t operand.2.length :=
        mt (fits_of_size (ht.field State.size fun _ => rfl)).mp hfits
      refine ⟨t, ?_, hready, ?_⟩
      · simp only [allFit, List.all_cons, hfits, decide_false, Bool.false_and, Bool.false_eq_true,
          if_false]
        exact (writeNumber_refuses hrefused operand.1).bind
      · rwa [fitting_stops hfits]

/-- Receiving operands clears the flags of the points whose coordinates are among them. -/
theorem nullOf_received (operands : List (Destination × Bytes)) (point : PointRegister) :
    nullOf (operands.foldl d.received s) point = (nullOf s point && !touches operands point) := by
  induction operands generalizing s with
  | nil => exact (Bool.and_true _).symm
  | cons operand rest ih =>
    have htouches : touches (operand :: rest) point =
        (operand.1.belongsTo point || touches rest point) := rfl
    rw [List.foldl_cons, ih, received, nullOf_receiving, htouches, Bool.not_or, Bool.and_assoc]

/-- So sending ends with the flags cleared of the points before the first operand that does not
fit. -/
theorem send_ends (hs : Ready d s) (operands : List (Destination × Bytes)) :
    ∃ t, Ends bus (d.send operands).run s
        (if d.allFit s operands then .ok () else .error .numberTooLarge) t ∧
      Ready d t ∧
      ∀ point, nullOf t point = (nullOf s point && !touches (d.fitting s operands) point) := by
  obtain ⟨t, hsend, ht, halike⟩ := send_received (.refl s) hs operands
  exact ⟨t, hsend, ht, fun point => (nullOf_alike halike point).trans (nullOf_received _ _)⟩

/-! ### Errors from before -/

/-- A settled write throws what is latched, once it has been carried out. -/
theorem writeSettled_throws {s' : State} (hs : Awaitable d s) (r : Sink) (word : UInt32)
    (heffect : ∀ u : State, u.Alike s → u.multiplying = false →
      (u.writeSink r word.toUInt64).Alike s')
    (same : (s'.errors, s'.multiplying, s'.params) = (s.errors, s.multiplying, s.params))
    (herrors : s.errors ≠ 0) :
    ∃ error t, Throws bus (d.writeSettled r word) s error t ∧ t.Alike (acknowledged s') := by
  simp only [Prod.mk.injEq] at same
  obtain ⟨hsame, hrest⟩ := same
  obtain ⟨t, hthrows, -, ht⟩ := writeSettled_latched r word hs heffect (Prod.ext hrest.1 hrest.2)
    (hsame ▸ herrors)
  exact ⟨_, t, hthrows, ht⟩

theorem nullOf_acknowledged (s : State) (point : PointRegister) :
    nullOf (acknowledged s) point = nullOf s point := by
  cases point <;> rfl

/-- A coordinate that fits is begun to be sent before an error from before is noticed. -/
theorem send_latched (hs : Awaitable d s) (herrors : s.errors ≠ 0) (n : Number) (bytes : Bytes)
    (rest : List (Destination × Bytes)) :
    ∃ error t, Throws bus (d.send ((.number n, bytes) :: rest)) s error t ∧
      ∀ point, nullOf t point =
        (nullOf s point && !touches ((d.fitting s ((.number n, bytes) :: rest)).take 1) point) := by
  by_cases hfits : d.Fits s bytes.length
  · have hwords : Returns bus (d.transferWords bytes.length) s (d.words s) s :=
      transferWords_returns hfits
    obtain ⟨error, t, hthrows, ht⟩ := writeSettled_throws hs .control
      (Command.writeNumber n.address).word (fun u hu hresting => writeSink_writeNumber hu hresting n)
      rfl herrors
    have hsend : Throws bus (d.writeNumber bytes (.number n)) s error t :=
      hwords.throws hthrows.bind
    refine ⟨error, t, hsend.bind, fun point => ?_⟩
    rw [nullOf_alike ht, nullOf_acknowledged, nullOf_receiving, fitting_cons hfits,
      List.take_succ_cons, List.take_zero, touches, List.any_cons, List.any_nil, Bool.or_false]
  · refine ⟨_, s, (writeNumber_refuses hfits _).bind, fun point => ?_⟩
    rw [fitting_stops hfits]
    exact (Bool.and_true _).symm

/-- The flags are saved from any engine at rest. -/
theorem saveFlags_ends (hs : Awaitable d s) :
    ∃ t, Returns bus d.saveFlags s ⟨s.r0Null, s.r1Null⟩ t ∧ Awaitable d t ∧ t.Alike s := by
  obtain ⟨u, hwait, hu⟩ := waitIdle_ends hs
  have hreturns : Returns bus d.saveFlags s
      ⟨Status.r0Null.test u.readStatus.1, Status.r1Null.test u.readStatus.1⟩ u.readStatus.2 := by
    refine (returns_bind _ _ _ _ _).mpr ⟨(), u, hwait, (returns_bind _ _ _ _ _).mpr ⟨_, _,
      (returns_lift _ _ _ _).mpr ((d.ends_status _).mpr ⟨rfl, rfl⟩),
      (returns_pure _ _ _ _).mpr ⟨rfl, rfl⟩⟩⟩
  obtain ⟨hflags, halike⟩ := (does_saveFlags (d := d) (s := s)).only s _ _ (.refl s) hreturns
  exact ⟨_, hflags ▸ hreturns, hu.readStatus, halike⟩

/-! ### Commands that are not issued -/

/-- A command that starts an operation opens no transfer. -/
theorem not_opensTransfer (operation : PointOperation) :
    ¬ State.OpensTransfer (Command.operate operation).word := by
  unfold State.OpensTransfer
  cases operation <;> decide

/-- The command of an operation is issued. -/
def Issues (operation : PointOperation) : Access → Prop :=
  Access.Sends .control (Command.operate operation).word

/-- The registers that operands, infinity flags and the token go through. -/
def handing : List Sink := [.control, .writeData, .errorAck, .token, .r0Null, .r1Null]

/-- Stores that are no part of handing numbers and flags to an engine or back. -/
structure Foreign (P : Access → Prop) : Prop where
  read : ∀ size offset answer, ¬ P (.read size offset answer)
  write : ∀ {r word}, r ∈ handing → (r = .control → State.OpensTransfer word) →
    ∀ access : Access, access.Sends r word → ¬ P access

theorem foreign_issues (operation : PointOperation) : Foreign (Issues operation) where
  read _ _ _ := id
  write _ hopens _ hsends hissues := by
    obtain ⟨hr, rfl⟩ := hsends.unique hissues
    exact not_opensTransfer operation (hopens hr)

namespace Foreign
variable {σ : Type} {bus : Bus σ} {P : Access → Prop} (h : Foreign P)
include h

theorem saveFlags : Operation.Avoids bus P d.saveFlags :=
  (avoids_waitIdle h.read).bind fun _ =>
    (Operation.Avoids.lift (avoids_read h.read .status)).bind fun _ => .pure _

theorem settle : Operation.Avoids bus P d.settle := by
  refine (avoids_waitIdle h.read).bind fun _ =>
    (Operation.Avoids.lift (avoids_read h.read .status)).bind fun word => ?_
  dsimp only
  split
  · exact .pure _
  · have hacknowledge : Procedure.Avoids bus P
        (d.write .errorAck (Latch.ackWord (Status.errors.get word))) :=
      avoids_write (h.write (by decide) nofun)
    refine Operation.Avoids.bind ?_ fun _ => (Operation.Avoids.lift hacknowledge).bind fun _ =>
      .throw _
    refine Operation.Avoids.bind (.forM _ fun _ => .lift (.notify _)) fun _ => ?_
    split
    · exact .pure _
    · exact .lift (.notify _)

theorem writeSettled {r : Sink} {word : UInt32} (hr : r ∈ handing)
    (hopens : r = .control → State.OpensTransfer word) :
    Operation.Avoids bus P (d.writeSettled r word) :=
  (avoids_waitIdle h.read).bind fun _ =>
    (Operation.Avoids.lift (avoids_write (h.write hr hopens))).bind fun _ => h.settle

theorem openWrite (destination : Destination) :
    Operation.Avoids bus P (d.openWrite destination) := by
  cases destination with
  | number n => exact h.writeSettled (by decide) fun _ => opensTransfer nofun
  | scalar =>
    exact (avoids_waitEnoughRandom h.read).bind fun _ =>
      h.writeSettled (by decide) fun _ => opensTransfer nofun

theorem sendWord (word : UInt64) : Operation.Avoids bus P (d.sendWord word) := by
  have hdata : Procedure.Avoids bus P (d.writeWord .writeData word) :=
    avoids_writeWord (h.write (by decide) nofun)
  exact (avoids_waitIdle h.read).bind fun _ => (Operation.Avoids.lift hdata).bind fun _ => h.settle

theorem writeNumber (bytes : Bytes) (destination : Destination) :
    Operation.Avoids bus P (d.writeNumber bytes destination) :=
  (avoids_transferWords h.read _).bind fun _ => (h.openWrite _).bind fun _ => .forM _ h.sendWord

theorem send (operands : List (Destination × Bytes)) :
    Operation.Avoids bus P (d.send operands) := .forM _ fun _ => h.writeNumber _ _

end Foreign

end Driver

end CurveEngine
