import CurveEngine.Proofs.Operands
import CurveEngine.Proofs.Twins

/-! Sessions of calls, and the layouts they do not tell.

A session makes calls one after the other. Every call goes abreast on engines that its driver
is paired with (`perform_lockstep`), so a session is answered by a wide engine as it is by
the narrow one that is the same otherwise, and leaves both in the same state
(`session_layout`): as long as no number is longer than the prime, and but for the
capabilities, which tell the layout. -/
namespace CurveEngine
open Register Procedure Device

namespace Call

/-- The big numbers that a call transfers, in either direction. Points are read into no more
of their buffers than the prime size takes, so these do not count. -/
def numbers : Call → List Bytes
  | .setCurve a b p q => [p, a, b, q]
  | .writeNumber bytes _ => [bytes]
  | .readNumber buffer _ => [buffer]
  | call => call.operands.map Prod.snd

/-- What a call does to the prime size before it transfers any. -/
def sizing (d : Driver) : Call → Operation Unit
  | .setCurve _ _ p q => d.setSize (Driver.curveSize p q)
  | _ => pure ()

/-- No number is longer than the prime, at the size in effect when it is transferred. -/
def Within (d : Driver) (call : Call) (s : State) : Prop :=
  ∀ t, Operation.Returns bus (call.sizing d) s () t → ∀ bytes ∈ call.numbers,
    bytes.length ≤ t.numberBytes

/-- The call leaves the prime size alone. -/
def keepsSize : Call → Bool
  | .reset | .setSize _ | .setCurve .. => false
  | _ => true

/-- What a call may write. The restriction of scalars, the prime size and a reset are written by
the calls that are for it, and a multiplication is started by no other call. -/
structure MayWrite (call : Call) (r : Sink) (word : UInt32) : Prop where
  limit : r = .smallScalar → call = .limitScalar word
  size : r = .primeSize → call.keepsSize = false
  reset : r = .softReset → call = .reset
  start : r = .control → State.OpensTransfer word ∨ Control.multiply.test word = false ∨
    call.operation? = some .multiply

theorem MayWrite.keepsSize {call : Call} {r : Sink} {word : UInt32} (h : call.MayWrite r word)
    (hsize : call.keepsSize = true) : r ≠ .primeSize ∧ r ≠ .softReset := by
  constructor
  · intro hr
    rw [h.size hr] at hsize
    cases hsize
  · intro hr
    rw [h.reset hr] at hsize
    cases hsize

/-- Registers that any call may write. -/
def Unreserved (r : Sink) : Prop :=
  r ≠ .smallScalar ∧ r ≠ .primeSize ∧ r ≠ .softReset ∧ r ≠ .control

instance (r : Sink) : Decidable (Unreserved r) := inferInstanceAs (Decidable (_ ∧ _))

theorem mayWrite_of_unreserved {r : Sink} (h : Unreserved r) (call : Call) (word : UInt32) :
    call.MayWrite r word where
  limit hr := absurd hr h.1
  size hr := absurd hr h.2.1
  reset hr := absurd hr h.2.2.1
  start hr := absurd hr h.2.2.2

theorem mayWrite_operate {call : Call} {operation : PointOperation}
    (h : call.operation? = some operation) :
    call.MayWrite .control (Command.operate operation).word where
  limit := nofun
  size := nofun
  reset := nofun
  start _ := by
    cases operation with
    | multiply => exact .inr (.inr h)
    | _ => exact .inr (.inl (by decide))

theorem mayWrite_open (call : Call) {command : Command} (h : Driver.Transfers command) :
    call.MayWrite .control command.word where
  limit := nofun
  size := nofun
  reset := nofun
  start _ := .inl (Driver.opensTransfer h)

/-- Where the prime size is left alone, it is the one at the start. -/
theorem within_iff {call : Call} (hsize : call.keepsSize = true) (d : Driver) (s : State) :
    call.Within d s ↔ ∀ bytes ∈ call.numbers, bytes.length ≤ s.numberBytes := by
  have hsizing : call.sizing d = pure () := by
    cases call with
    | setCurve => cases hsize
    | _ => rfl
  rw [Within, hsizing]
  constructor
  · exact fun h => h s ((Operation.returns_pure _ _ _ _).mpr ⟨rfl, rfl⟩)
  · intro h t ht
    rwa [((Operation.returns_pure _ _ _ _).mp ht).2]

/-- What a caller learns of an answer, other than the layout. -/
def shown (call : Call) (answer : Answer) : Option Answer :=
  match call with
  | .capabilities => none
  | _ => some answer

end Call

namespace Driver
variable {R : State → State → Prop} {may : Sink → UInt32 → Prop} {len : Nat → Prop}
  {d d' : Driver} {s t : State}

/-- Makes calls, whatever becomes of them. -/
def session (d : Driver) : List Call → Procedure (List (Option Answer))
  | [] => pure []
  | call :: rest => do
    let answer ← call.perform d
    let answers ← session d rest
    pure (call.shown answer :: answers)

/-- No number is longer than the prime, in any of the calls. -/
def Within (d : Driver) : List Call → State → Prop
  | [], _ => True
  | call :: rest, s =>
    call.Within d s ∧ ∀ answer t, Ends bus (call.perform d) s answer t → d.Within rest t

/-! ### Calls -/

theorem ofOperation_lockstep {α : Type} (reply : α → Reply) {op op' : Operation α}
    (h : Operation.Lockstep R op op') :
    Lockstep R (Answer.ofOperation reply op) (Answer.ofOperation reply op') :=
  Procedure.Lockstep.bind h fun _ => .pure _

/-- A call that leaves the prime size alone goes abreast. -/
theorem perform_lockstep (h : PairedTransfers R may len d d') {call : Call}
    (hmay : ∀ r word, r ≠ .writeData → call.MayWrite r word → may r word)
    (hsize : call.keepsSize = true) (hcapabilities : call ≠ .capabilities)
    (hlen : ∀ bytes ∈ call.numbers, len bytes.length) :
    Lockstep R (call.perform d) (call.perform d') := by
  have hfree {r : Sink} (hr : r ≠ .writeData ∧ Call.Unreserved r) (word : UInt32) : may r word :=
    hmay r word hr.1 (Call.mayWrite_of_unreserved hr.2 call word)
  have hnull (point : PointRegister) : ∀ word, may (nullSink point) word := by
    cases point
    · exact hfree (by decide)
    · exact hfree (by decide)
  have htoken : may .token 1 := hfree (by decide) 1
  have hcontrol {operation : PointOperation} (hoperation : call.operation? = some operation) :
      may .control (Command.operate operation).word :=
    hmay _ _ (by decide) (Call.mayWrite_operate hoperation)
  have hbreakpoint : ∀ word, may .breakpoint word := hfree (by decide)
  have hsteps : ∀ word, may .steps word := hfree (by decide)
  have htrng : ∀ word, may .trngControl word := hfree (by decide)
  have hlimb : ∀ word, may .limbReadAddress word := hfree (by decide)
  cases call with
  | reset | setSize | setCurve => cases hsize
  | capabilities => exact absurd rfl hcapabilities
  | configureEntropy => exact ofOperation_lockstep _ (h.configureEntropy htrng)
  | enableIrq => exact ofOperation_lockstep _ (h.writeSettled (hfree (by decide) 1))
  | status => exact h.status.bind fun _ => .pure _
  | isDebug => exact h.isDebug.bind fun _ => .pure _
  | version => exact h.version.bind fun _ => .pure _
  | size => exact h.size.bind fun _ => .pure _
  | numberBytes => exact h.numberBytes.bind fun _ => .pure _
  | limitScalar bits =>
    exact ofOperation_lockstep _
      (h.limitScalar bits (hmay _ _ (by decide) ⟨fun _ => rfl, nofun, nofun, nofun⟩))
  | isInfinite point => exact ofOperation_lockstep _ (h.isInfinite point)
  | flagInfinite point => exact ofOperation_lockstep _ (h.writeSettled (hnull point _))
  | unflagInfinite point => exact ofOperation_lockstep _ (h.writeSettled (hnull point _))
  | writeNumber bytes destination =>
    exact ofOperation_lockstep _ (h.send bytes destination (hlen _ (by simp [Call.numbers])))
  | readNumber buffer register =>
    exact (h.readNumberInto register (hlen buffer (by simp [Call.numbers]))).bind fun _ => .pure _
  | readPoint point => exact ofOperation_lockstep _ (h.readPoint point)
  | readPointInto point buffers => exact (h.readPointInto point buffers).bind fun _ => .pure _
  | add p q =>
    exact ofOperation_lockstep _
      ((h.operateTwo hnull (hcontrol rfl) hlen).bind fun _ => h.readPoint .r1)
  | double p =>
    exact ofOperation_lockstep _
      ((h.operateOne hnull (hcontrol rfl) hlen).bind fun _ => h.readPoint .r1)
  | negate p =>
    exact ofOperation_lockstep _
      ((h.operateOne hnull (hcontrol rfl) hlen).bind fun _ => h.readPoint .r1)
  | isOnCurve p =>
    exact ofOperation_lockstep _
      ((h.operateOne hnull (hcontrol rfl) hlen).bind fun _ => .lift h.answer)
  | equal p q =>
    exact ofOperation_lockstep _
      ((h.operateTwo hnull (hcontrol rfl) hlen).bind fun _ => .lift h.answer)
  | opposite p q =>
    exact ofOperation_lockstep _
      ((h.operateTwo hnull (hcontrol rfl) hlen).bind fun _ => .lift h.answer)
  | multiply p k => exact ofOperation_lockstep _ (h.multiply htoken hnull hlen (hcontrol rfl))
  | multiplyTraced p k trace =>
    have htrace : MayTrace may :=
      ⟨hsteps, hlimb, fun _ => hbreakpoint _, hbreakpoint _, hcontrol rfl⟩
    exact (h.multiplyTraced htoken hnull hlen htrace trace).bind fun _ => .pure _
  | enableBlinding bits => exact ofOperation_lockstep _ (h.enableBlinding bits (hfree (by decide)))
  | disableBlinding => exact ofOperation_lockstep _ (h.writeSettled (hfree (by decide) 0))
  | enableShuffling => exact ofOperation_lockstep _ (h.enableShuffling (hfree (by decide) 1))
  | disableShuffling => exact ofOperation_lockstep _ (h.writeSettled (hfree (by decide) 0))
  | enableZremask period =>
    exact ofOperation_lockstep _ (h.enableZremask period (hfree (by decide)))
  | disableZremask => exact ofOperation_lockstep _ (h.writeSettled (hfree (by decide) 0))
  | setXyShuffle enable => exact ofOperation_lockstep _ (h.toggle enable (hfree (by decide)))
  | setAxiMask enable => exact ofOperation_lockstep _ (h.toggle enable (hfree (by decide)))
  | setTokenMask enable => exact ofOperation_lockstep _ (h.toggle enable (hfree (by decide)))
  | halt => exact ofOperation_lockstep _ (h.writeDebug (hfree (by decide) _))
  | resume => exact ofOperation_lockstep _ (h.writeDebug (hfree (by decide) _))
  | setBreakpoint id address scalarBit state =>
    exact ofOperation_lockstep _ (h.writeBreakpoint id (hbreakpoint _))
  | removeBreakpoint id => exact ofOperation_lockstep _ (h.writeBreakpoint id (hbreakpoint _))
  | runOpcodes count => exact ofOperation_lockstep _ (h.writeDebug (hfree (by decide) _))
  | debugSnapshot => exact ofOperation_lockstep _ h.debugSnapshot
  | awaitHalt => exact ofOperation_lockstep _ h.awaitHalt
  | ladderFlags => exact ofOperation_lockstep _ (h.readDebug (by decide) (by decide))
  | armTrigger => exact ofOperation_lockstep _ (h.writeDebug (hfree (by decide) _))
  | disarmTrigger => exact ofOperation_lockstep _ (h.writeDebug (hfree (by decide) _))
  | setTriggerUp time => exact ofOperation_lockstep _ (h.writeDebug (hfree (by decide) time))
  | setTriggerDown time => exact ofOperation_lockstep _ (h.writeDebug (hfree (by decide) time))
  | operationTime => exact ofOperation_lockstep _ (h.readDebug (by decide) (by decide))
  | limbWidth => exact ofOperation_lockstep _ (h.readDebug (by decide) (by decide))
  | opcodeCount => exact ofOperation_lockstep _ (h.readField (by decide) (by decide) _)
  | opcodeSize => exact ofOperation_lockstep _ (h.readField (by decide) (by decide) _)
  | patchMicrocode address opcodes =>
    exact ofOperation_lockstep _
      (h.patchMicrocode address opcodes (hfree (by decide)) (hfree (by decide)))
  | writeLimb address limb =>
    exact ofOperation_lockstep _
      (h.writeLimb address limb (hfree (by decide) _) (hfree (by decide) _))
  | readLimb address => exact ofOperation_lockstep _ (h.readLimb address (hlimb address))
  | rawSize => exact ofOperation_lockstep _ (h.readField (by decide) (by decide) _)
  | shuffleWidth => exact ofOperation_lockstep _ (h.readField (by decide) (by decide) _)
  | rawFillTime => exact ofOperation_lockstep _ (h.readDebug (by decide) (by decide))
  | configureTrng debias accessTime idle =>
    exact ofOperation_lockstep _ (h.writeEntropy (hfree (by decide) _))
  | resetTrngModes => exact ofOperation_lockstep _ (h.writeEntropy (htrng _))
  | disablePostproc => exact ofOperation_lockstep _ (h.writeEntropy (htrng _))
  | bypassTrng bit => exact ofOperation_lockstep _ (h.writeEntropy (htrng _))
  | disableRawRead => exact ofOperation_lockstep _ (h.writeEntropy (htrng _))
  | resetRawFifo => exact ofOperation_lockstep _ (h.writeEntropy (htrng _))
  | resetNumberFifos => exact ofOperation_lockstep _ (h.writeEntropy (htrng _))
  | readRawBit address => exact ofOperation_lockstep _ (h.readRawBit address htrng)
  | rawFifo => exact ofOperation_lockstep _ (h.readField (by decide) (by decide) _)
  | waitingCounts => exact ofOperation_lockstep _ h.waitingCounts
  | entropyCounters => exact ofOperation_lockstep _ h.entropyCounters
  | resetCounters => exact ofOperation_lockstep _ (h.writeDebug (hfree (by decide) _))

/-- What all writes of a call uphold is kept by the call, failing or not. -/
theorem Upholds.perform {I : State → Prop} (h : Upholds I may) {call : Call}
    (hmay : ∀ r word, call.MayWrite r word → may r word) (hs : I s) {answer : Answer}
    (hends : Ends bus (call.perform d) s answer t) : I t := by
  have htransfers := h.transfers d
    (fun word => hmay _ _ (Call.mayWrite_of_unreserved (by decide) call word))
    fun _ hcommand => hmay _ _ (call.mayWrite_open hcommand)
  by_cases hcapabilities : call = .capabilities
  · subst hcapabilities
    obtain ⟨word, u, hread, hanswer⟩ := (ends_bind _ _ _ _ _).mp hends
    obtain ⟨-, rfl⟩ := (d.ends_read .capabilities word).mp hread
    obtain ⟨-, rfl⟩ := (ends_pure _ _ _ _).mp hanswer
    exact hs
  by_cases hsize : call.keepsSize = true
  · exact (perform_lockstep htransfers (fun r word _ => hmay r word) hsize hcapabilities
      fun _ _ => trivial).keeps hs hends
  have hpaired := h.paired d
  cases call with
  | reset =>
    have hreset := hmay .softReset 1 ⟨nofun, nofun, fun _ => rfl, nofun⟩
    exact (ofOperation_lockstep _ (hpaired.reset hreset)).keeps hs hends
  | setSize bits =>
    have hresize (word : UInt32) := hmay .primeSize word ⟨nofun, fun _ => rfl, nofun, nofun⟩
    exact (ofOperation_lockstep _ (hpaired.setSize bits.toNat (hresize _))).keeps hs hends
  | setCurve a b p q =>
    have hresize (word : UInt32) := hmay .primeSize word ⟨nofun, fun _ => rfl, nofun, nofun⟩
    have hnumbers := (htransfers.send p (.number .p) trivial).bind fun _ =>
      (htransfers.send a (.number .a) trivial).bind fun _ =>
        (htransfers.send b (.number .b) trivial).bind fun _ =>
          htransfers.send q (.number .q) trivial
    exact (ofOperation_lockstep _ ((Operation.Lockstep.notify _).bind fun _ =>
      (hpaired.setSize _ (hresize _)).bind fun _ => hnumbers)).keeps hs hends
  | _ => exact absurd rfl hsize

/-- Calls that leave the prime size alone leave it as it was, failing or not. -/
theorem size_perform {call : Call} (hsize : call.keepsSize = true) {answer : Answer}
    (h : Ends bus (call.perform d) s answer t) : t.size = s.size :=
  (upholds_size s.size).perform (fun _ _ hwrite => hwrite.keepsSize hsize) rfl h

/-- While the prime size is left alone, the numbers are held against the size at the start. -/
theorem within_of_keepsSize {calls : List Call} (hsize : ∀ call ∈ calls, call.keepsSize = true)
    (hlen : ∀ call ∈ calls, ∀ bytes ∈ call.numbers, bytes.length ≤ s.numberBytes) :
    d.Within calls s := by
  induction calls generalizing s with
  | nil => exact trivial
  | cons call rest ih =>
    rw [List.forall_mem_cons] at hsize hlen
    refine ⟨(Call.within_iff hsize.1 d s).mpr hlen.1, fun answer t hends => ih hsize.2 ?_⟩
    have hbytes : t.numberBytes = s.numberBytes := by
      rw [State.numberBytes, size_perform hsize.1 hends]
      rfl
    rw [hbytes]
    exact hlen.2

/-! ### Twins -/

/-- A curve is set, its numbers being transferred at the size that is set with it. -/
theorem setCurve_twins (hsame : SamePatience d d') (h : Twins d d' s t) {a b p q : Bytes}
    (hwithin : (Call.setCurve a b p q).Within d s) :
    Abreast (Twins d d') (d.setCurve a b p q).run s (d'.setCurve a b p q).run t := by
  have hsize := (paired_twins hsame).setSize (curveSize p q) ⟨by decide, trivial⟩
  refine Operation.abreast_bind (Operation.Lockstep.notify _ s t h) fun _ u v hu hv huv => ?_
  obtain rfl : u = s := (ends_notify _ s u ()).mp ((Operation.returns_lift _ _ _ _).mp hu)
  refine Operation.abreast_bind (hsize u v huv) fun _ u' v' hu' _ huv' => ?_
  have hlen : ∀ bytes ∈ [p, a, b, q], bytes.length ≤ u'.numberBytes := hwithin u' hu'
  simp only [List.forall_mem_cons] at hlen
  obtain ⟨hp, ha, hb, hq, -⟩ := hlen
  have htransfers := transfers_twins u'.size hsame
  have hwrites := (htransfers.send p (.number .p) hp).bind fun _ =>
    (htransfers.send a (.number .a) ha).bind fun _ =>
      (htransfers.send b (.number .b) hb).bind fun _ => htransfers.send q (.number .q) hq
  exact (hwrites u' v' huv'.at_size).mono fun _ _ hat => hat.1

/-- Twins answer every call alike, but for the one that tells the layout. -/
theorem perform_twins (hsame : SamePatience d d') (h : Twins d d' s t) {call : Call}
    (hcapabilities : call ≠ .capabilities) (hwithin : call.Within d s) :
    Abreast (Twins d d') (call.perform d) s (call.perform d') t := by
  have hpaired := paired_twins hsame
  by_cases hsize : call.keepsSize = true
  · exact (perform_lockstep (transfers_twins s.size hsame)
      (fun _ _ hdata hwrite => ⟨hdata, hwrite.keepsSize hsize⟩) hsize hcapabilities
      ((Call.within_iff hsize d s).mp hwithin) s t h.at_size).mono fun _ _ huv => huv.1
  cases call with
  | reset => exact ofOperation_lockstep _ (hpaired.reset ⟨by decide, trivial⟩) s t h
  | setSize bits =>
    exact ofOperation_lockstep _ (hpaired.setSize bits.toNat ⟨by decide, trivial⟩) s t h
  | setCurve a b p q =>
    exact (setCurve_twins hsame h hwithin).bind fun _ u v _ _ huv => Lockstep.pure _ u v huv
  | _ => exact absurd rfl hsize

theorem session_twins (hsame : SamePatience d d') (h : Twins d d' s t) {calls : List Call}
    (hwithin : d.Within calls s) :
    Abreast (Twins d d') (session d calls) s (session d' calls) t := by
  induction calls generalizing s t with
  | nil => exact Lockstep.pure _ s t h
  | cons call rest ih =>
    obtain ⟨hcall, hrest⟩ := hwithin
    by_cases hcapabilities : call = .capabilities
    · subst hcapabilities
      obtain ⟨word, word', -, hs, ht⟩ := (paired_twins hsame).capabilities s t h
      have hanswer (e : Driver) {u : State} {w : UInt32} (hw : Ends bus e.capabilities u w u) :
          Ends bus (Call.capabilities.perform e) u { result := .ok (.word w) } u :=
        (ends_bind _ _ _ _ _).mpr ⟨w, u, hw, (ends_pure _ _ _ _).mpr ⟨rfl, rfl⟩⟩
      refine Abreast.of_ends_bind (hanswer d hs) (hanswer d' ht) ?_
      exact (ih h (hrest _ s (hanswer d hs))).bind fun _ u v _ _ huv => Lockstep.pure _ u v huv
    · refine (perform_twins hsame h hcapabilities hcall).bind fun answer u v hu _ huv => ?_
      exact (ih huv (hrest answer u hu)).bind fun _ u v _ _ huv => Lockstep.pure _ u v huv

theorem twins_powerUp (params : Parameters) (entropy : Nat → UInt8) {limit : Option Nat}
    {fuel : Nat} (hpatient : max params.latency 3 < limit.getD fuel) :
    Twins ⟨⟨.wide, limit⟩, fuel⟩ ⟨⟨.narrow, limit⟩, fuel⟩
      (State.powerUp { params with wideWords := true } entropy)
      (State.powerUp { params with wideWords := false } entropy) :=
  ⟨rfl, ⟨State.coherent_powerUp _ entropy, rfl, hpatient⟩,
    ⟨State.coherent_powerUp _ entropy, rfl, hpatient⟩⟩

/-- **No session tells the layout of the words.** -/
theorem session_layout (params : Parameters) (entropy : Nat → UInt8) (limit : Option Nat)
    (fuel : Nat) (calls : List Call) (hpatient : max params.latency 3 < limit.getD fuel)
    (hwithin : (⟨⟨.wide, limit⟩, fuel⟩ : Driver).Within calls
      (State.powerUp { params with wideWords := true } entropy)) :
    ∃ x s t,
      (session ⟨⟨.wide, limit⟩, fuel⟩ calls).run bus
        (State.powerUp { params with wideWords := true } entropy) = (x, s) ∧
      (session ⟨⟨.narrow, limit⟩, fuel⟩ calls).run bus
        (State.powerUp { params with wideWords := false } entropy) = (x, t) ∧
      s = { t with params := { t.params with wideWords := true }, transfer := s.transfer } := by
  have hsame : SamePatience ⟨⟨.wide, limit⟩, fuel⟩ ⟨⟨.narrow, limit⟩, fuel⟩ := ⟨rfl, rfl⟩
  have htwins := twins_powerUp params entropy hpatient
  obtain ⟨x, s, t, hs, ht, hbare, hserves, -⟩ := session_twins hsame htwins hwithin
  have hwide : s.params.wideWords = true := by
    have hmatching : WordWidth.wide = if s.params.wideWords then .wide else .narrow :=
      hserves.matching
    by_contra hnarrow
    rw [if_neg hnarrow] at hmatching
    cases hmatching
  refine ⟨x, s, t, hs, ht, ?_⟩
  calc s = { s with params := { s.params with wideWords := true } } := by rw [← hwide]
    _ = { s.bare with
          params := { s.bare.params with wideWords := true }, transfer := s.transfer } := rfl
    _ = { t with
          params := { t.params with wideWords := true }, transfer := s.transfer } := by
      rw [hbare]
      rfl

/-- A number sent, a multiplication, and the number read back. -/
def exchange : List Call :=
  [.writeNumber [5] (.number .xR1), .capabilities, .multiply ⟨[3], [6]⟩ [0x15],
    .readNumber [0, 0] (.number .xR1)]

theorem session_layout_exchange :
    ∃ x s t,
      (session ⟨⟨.wide, some 10⟩, 0⟩ exchange).run bus
        (State.powerUp { wideWords := true } fun _ => 7) = (x, s) ∧
      (session ⟨⟨.narrow, some 10⟩, 0⟩ exchange).run bus
        (State.powerUp { wideWords := false } fun _ => 7) = (x, t) ∧
      s = { t with params := { t.params with wideWords := true }, transfer := s.transfer } := by
  have hsize : ∀ call ∈ exchange, call.keepsSize = true := by decide
  have hlen : ∀ call ∈ exchange, ∀ bytes ∈ call.numbers, bytes.length ≤ 32 := by decide
  exact session_layout {} (fun _ => 7) (some 10) 0 exchange (by decide)
    (within_of_keepsSize hsize hlen)

end Driver

end CurveEngine
