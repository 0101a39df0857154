import CurveEngine.Proofs.Keeping

/-! Taking out of a state what the engine's computations do not look at.

A computation looks at little of a state, and draws random numbers. What else there is, be it how
long the engine is busy or how wide its words are, can be taken out of a state before a computation
as well as after it: what is left comes out the same. A map of states that takes out no more than
that is a `Veil`. It is one if the single steps of computations are `Blind` to it, and then so are
point operations (`Veil.operate`), whole multiplications (`Veil.startMultiplication`, `Veil.step`)
and the settings. -/
namespace CurveEngine.Device
open Register

/-- What the computations and settings of an engine look at, the random numbers apart. -/
structure Outlook where
  sequencer : Sequencer
  numbers : NumberFile
  r0Null : Bool
  r1Null : Bool
  yes : Bool
  scalar : Nat
  size : Nat
  blinding : Nat
  smallScalar : Option Nat
  shuffle : Bool
  xyShuffle : Bool
  tokenMask : Bool
  token : Option Nat
  dynamicSize : Bool
  maxSize : Nat
  canShuffle : Bool
  shuffleWidth : Nat
  debug : Bool

namespace State

variable {F f : State → State} {s t : State}

def outlook (s : State) : Outlook :=
  { s with
    dynamicSize := s.params.dynamicSize
    maxSize := s.params.maxSize
    canShuffle := s.params.shuffle
    shuffleWidth := s.params.shuffleWidth
    debug := s.params.debug }

/-- What `F` takes out of a state makes no difference to `f`. -/
def Blind (F f : State → State) : Prop := ∀ s, F (f s) = F (f (F s))

theorem Blind.apply (hf : Blind F f) (h : F s = F t) : F (f s) = F (f t) := by
  rw [hf s, hf t, h]

/-- Nothing is taken out of a state that a computation looks at. -/
structure Veil (F : State → State) : Prop where
  idem : ∀ s, F (F s) = F s
  outlook : ∀ s, (F s).outlook = s.outlook
  drawn : ∀ s bits channel, ((F s).draw bits channel).1 = (s.draw bits channel).1
  draw : ∀ bits channel, Blind F fun s => (s.draw bits channel).2
  refuse : ∀ error, Blind F (latch error)
  resize : ∀ size, Blind F fun s => { s with size }
  blind : ∀ size blinding, Blind F fun s => { s with size, blinding }
  mix : ∀ shuffle, Blind F fun s => { s with shuffle }
  mask : ∀ token, Blind F fun s => { s with token }
  answer : ∀ numbers r1Null yes, Blind F fun s =>
    { s with numbers, r1Null, yes, operationTime := 1 }
  spend : Blind F fun s => { s with smallScalar := none }
  launch : ∀ sequencer, Blind F fun s => { s with operationTime := 0, sequencer }
  move : ∀ sequencer, Blind F fun s => { s with sequencer }
  arrive : ∀ run p, Blind F (arrive run p)
  deliver : ∀ numbers r1Null tokenMask sequencer, Blind F fun s =>
    { s with
      numbers, r1Null, tokenMask, sequencer
      token := none
      warmup := warmupReads
      busy := s.params.latency }

namespace Veil

/-- States that are left the same agree in what a computation looks at. -/
theorem agrees (hF : Veil F) (h : F s = F t) : s.outlook = t.outlook := by
  rw [← hF.outlook s, ← hF.outlook t, h]

theorem sequencer (hF : Veil F) (h : F s = F t) : s.sequencer = t.sequencer :=
  congrArg Outlook.sequencer (hF.agrees h)

theorem numbers (hF : Veil F) (h : F s = F t) : s.numbers = t.numbers :=
  congrArg Outlook.numbers (hF.agrees h)

theorem curve (hF : Veil F) (h : F s = F t) : s.curve = t.curve :=
  congrArg NumberFile.curve (hF.numbers h)

theorem points (hF : Veil F) (h : F s = F t) :
    s.pointR0 = t.pointR0 ∧ s.pointR1 = t.pointR1 := by
  have hr0 : s.r0Null = t.r0Null := congrArg Outlook.r0Null (hF.agrees h)
  have hr1 : s.r1Null = t.r1Null := congrArg Outlook.r1Null (hF.agrees h)
  rw [pointR0, pointR0, pointR1, pointR1, hr0, hr1, hF.numbers h]
  exact ⟨rfl, rfl⟩

/-! ### Random numbers -/

theorem draws (hF : Veil F) (h : F s = F t) (bits : Nat) (channel : Channel) :
    (s.draw bits channel).1 = (t.draw bits channel).1 ∧
      F (s.draw bits channel).2 = F (t.draw bits channel).2 := by
  refine ⟨?_, (hF.draw bits channel).apply h⟩
  rw [← hF.drawn s, ← hF.drawn t, h]

theorem drawsBelowP (hF : Veil F) (h : F s = F t) (channel : Channel) :
    (s.drawBelowP channel).1 = (t.drawBelowP channel).1 ∧
      F (s.drawBelowP channel).2 = F (t.drawBelowP channel).2 := by
  have hsize : s.size = t.size := congrArg Outlook.size (hF.agrees h)
  have hbelow (u : State) : u.drawBelowP channel =
      (if u.numbers.p = 0 then (u.draw u.size channel).1
        else (u.draw u.size channel).1 % u.numbers.p, (u.draw u.size channel).2) := rfl
  obtain ⟨hvalue, hrest⟩ := hF.draws h s.size channel
  rw [hbelow s, hbelow t, ← hsize, ← hF.numbers h, hvalue]
  exact ⟨rfl, hrest⟩

/-- A countermeasure that draws when it is on. -/
theorem drawsIf (hF : Veil F) (h : F s = F t) (on : Bool) (bits : Nat) (channel : Channel) :
    F (if on then (s.draw bits channel).2 else s) =
      F (if on then (t.draw bits channel).2 else t) := by
  cases on with
  | true => exact (hF.draws h bits channel).2
  | false => exact h

theorem effectiveScalar (hF : Veil F) (h : F s = F t) :
    s.effectiveScalar.1 = t.effectiveScalar.1 ∧
      F s.effectiveScalar.2 = F t.effectiveScalar.2 := by
  have hscalar : s.scalar = t.scalar := congrArg Outlook.scalar (hF.agrees h)
  have hsize : s.size = t.size := congrArg Outlook.size (hF.agrees h)
  have hblinding : s.blinding = t.blinding := congrArg Outlook.blinding (hF.agrees h)
  have hsmall : s.smallScalar = t.smallScalar := congrArg Outlook.smallScalar (hF.agrees h)
  unfold State.effectiveScalar
  rw [hsmall]
  cases t.smallScalar with
  | some bits => exact ⟨by rw [hscalar], hF.spend.apply h⟩
  | none =>
    dsimp only
    rw [hblinding]
    split
    · obtain ⟨halpha, hrest⟩ := hF.draws h t.blinding .axi
      have hdrawn (u : State) : (u.draw t.blinding .axi).2 =
          { u with trng := (u.draw t.blinding .axi).2.trng } := rfl
      refine ⟨?_, hrest⟩
      dsimp only
      rw [hdrawn s, hdrawn t, halpha, hscalar, hF.numbers h, hsize, hblinding]
    · exact ⟨by rw [hscalar, hsize], h⟩

theorem drawRandoms (hF : Veil F) (h : F s = F t) (alpha : Option Nat) :
    (s.drawRandoms alpha).1 = (t.drawRandoms alpha).1 ∧
      F (s.drawRandoms alpha).2 = F (t.drawRandoms alpha).2 := by
  obtain ⟨hphi0, h⟩ := hF.drawsBelowP h .efp
  obtain ⟨hphi1, h⟩ := hF.drawsBelowP h .efp
  obtain ⟨hlambda, h⟩ := hF.drawsBelowP h .efp
  unfold State.drawRandoms
  simp only [hphi0, hphi1, hlambda, true_and]
  generalize (((s.drawBelowP .efp).2.drawBelowP .efp).2.drawBelowP .efp).2 = u at h ⊢
  generalize (((t.drawBelowP .efp).2.drawBelowP .efp).2.drawBelowP .efp).2 = v at h ⊢
  have hshuffle : u.shuffle = v.shuffle := congrArg Outlook.shuffle (hF.agrees h)
  have hwidth : u.params.shuffleWidth = v.params.shuffleWidth :=
    congrArg Outlook.shuffleWidth (hF.agrees h)
  have h' := hF.drawsIf h v.shuffle v.params.shuffleWidth .shf
  have hxy := congrArg Outlook.xyShuffle (hF.agrees h')
  simp only [State.outlook] at hxy
  rw [hshuffle, hwidth, hxy]
  exact hF.drawsIf h' _ 1 .crv

/-! ### Runs -/

theorem finish (hF : Veil F) (h : F s = F t) : F s.finish = F t.finish := by
  have hmask : s.tokenMask = t.tokenMask := congrArg Outlook.tokenMask (hF.agrees h)
  have htoken : s.token = t.token := congrArg Outlook.token (hF.agrees h)
  unfold State.finish
  rw [hF.sequencer h, hF.numbers h, hmask, htoken]
  cases t.sequencer.run with
  | none => exact h
  | some run => exact (hF.deliver _ _ _ _).apply h

theorem walk (hF : Veil F) (h : F s = F t) (passed pending : List Position) (result : Point)
    (budget : Option Nat) :
    F (s.walk passed result budget pending) = F (t.walk passed result budget pending) := by
  induction pending generalizing s t passed budget with
  | nil => exact hF.finish h
  | cons p rest ih =>
    have harrived := (hF.arrive ⟨p :: passed, rest, result⟩ p).apply h
    have hsequencer := hF.sequencer harrived
    simp only [State.walk, hsequencer]
    split
    · simp only [State.halt, hsequencer]
      exact (hF.move _).apply harrived
    · exact ih harrived _ _

theorem proceed (hF : Veil F) (h : F s = F t) (budget : Option Nat) :
    F (s.proceed budget) = F (t.proceed budget) := by
  unfold State.proceed
  rw [hF.sequencer h]
  cases t.sequencer.run with
  | none => exact hF.finish h
  | some run => exact hF.walk h _ _ _ _

theorem startMultiplication (hF : Veil F) : Blind F startMultiplication := by
  intro s
  have h : F s = F (F s) := (hF.idem s).symm
  obtain ⟨hscalar, hspent⟩ := hF.effectiveScalar h
  obtain ⟨hrandoms, hdrawn⟩ := hF.drawRandoms hspent s.effectiveScalar.1.alpha
  unfold State.startMultiplication
  simp only [← hF.curve h, ← (hF.points h).2, ← hscalar, ← hrandoms]
  split
  · exact hF.refuse _ s
  · rw [← hF.sequencer hdrawn]
    exact hF.proceed ((hF.launch _).apply hdrawn) _

theorem step (hF : Veil F) (word : UInt32) : Blind F (step word) := by
  intro s
  have h : F s = F (F s) := (hF.idem s).symm
  unfold State.step State.isHalted
  rw [← hF.sequencer h]
  split
  · exact h
  split
  · exact hF.proceed ((hF.move _).apply h) _
  split
  · exact hF.proceed ((hF.move _).apply h) _
  · exact h

/-! ### Point operations and settings -/

theorem operate (hF : Veil F) (word : UInt32) : Blind F (operate word) := by
  intro s
  have h : F s = F (F s) := (hF.idem s).symm
  obtain ⟨hr0, hr1⟩ := hF.points h
  have hanswers (numbers r1Null yes) := hF.answer numbers r1Null yes s
  have hyes : (F s).yes = s.yes := (congrArg Outlook.yes (hF.agrees h)).symm
  have hnull : (F s).r1Null = s.r1Null := (congrArg Outlook.r1Null (hF.agrees h)).symm
  unfold State.operate
  simp only [setR1, ← hF.curve h, ← hr0, ← hr1]
  repeat' split
  all_goals
    simp only [← hF.numbers h, hyes, hnull]
    exact hanswers _ _ _

theorem setSize (hF : Veil F) (size : Nat) : Blind F (setSize size) := by
  intro s
  have h := hF.agrees (hF.idem s)
  have hdynamic : (F s).params.dynamicSize = s.params.dynamicSize := congrArg Outlook.dynamicSize h
  have hmax : (F s).params.maxSize = s.params.maxSize := congrArg Outlook.maxSize h
  unfold State.setSize
  rw [hdynamic, hmax]
  split
  · exact hF.refuse _ s
  · exact hF.resize size s

theorem setBlinding (hF : Veil F) (word : UInt32) : Blind F (setBlinding word) := by
  intro s
  have hsize : (F s).size = s.size := congrArg Outlook.size (hF.agrees (hF.idem s))
  unfold State.setBlinding
  simp only [hsize]
  split
  · exact hF.blind s.size 0 s
  split
  · exact hF.refuse _ s
  · exact hF.blind s.size _ s

theorem setShuffle (hF : Veil F) (enable : Bool) : Blind F (setShuffle enable) := by
  intro s
  have h := hF.agrees (hF.idem s)
  have hcan : (F s).params.shuffle = s.params.shuffle := congrArg Outlook.canShuffle h
  have hdebug : (F s).params.debug = s.params.debug := congrArg Outlook.debug h
  unfold State.setShuffle
  rw [hcan, hdebug]
  split
  · exact hF.refuse _ s
  · exact hF.mix enable s

theorem drawToken (hF : Veil F) : Blind F drawToken := by
  intro s
  have h : F s = F (F s) := (hF.idem s).symm
  have hsize : (F s).size = s.size := (congrArg Outlook.size (hF.agrees h)).symm
  obtain ⟨hvalue, hrest⟩ := hF.draws h s.size .axi
  unfold State.drawToken
  simp only [hsize, ← hvalue]
  exact (hF.mask _).apply hrest

end Veil

end State

end CurveEngine.Device
