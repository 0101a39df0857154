import CurveEngine.Proofs.Layouts
import CurveEngine.Proofs.Quiet

/-! Engines whose words differ in width, each with a driver of its own width.

`Twins` are the same engine but for the layout of its words. Their register accesses go
abreast (`paired_twins`), as every access but that of a data word is blind to the layout. A
transfer moves more of the narrow words than of the wide ones, and looks at the status more
often; both engines are quiet once it is open, so they are twins again when it is over, and
the number has arrived as it was on either side (`transfers_twins`). -/
namespace CurveEngine
open Register Procedure Device Operation

namespace Driver

/-! ### Twins -/

/-- Two drivers that differ in the width of their words at most. -/
structure SamePatience (d d' : Driver) : Prop where
  limit : d.config.pollLimit = d'.config.pollLimit
  fuel : d.fuel = d'.fuel

/-- A driver of the engine's width, patient enough for it. -/
structure Serves (d : Driver) (s : State) : Prop where
  coherent : s.Coherent
  matching : d.Matches s
  patient : max s.params.latency 3 < d.checks

/-- Two engines that differ in the width of their words at most, each with its driver. -/
def Twins (d d' : Driver) (s t : State) : Prop :=
  s.bare = t.bare ∧ d.Serves s ∧ d'.Serves t

variable {d d' : Driver} {s t u v : State}

/-- The parameters of an engine never change. -/
theorem params_writeSink (r : Sink) (value : UInt64) (s : State) :
    (s.writeSink r value).params = s.params := by
  by_cases hreset : r = .softReset
  · subst hreset
    rfl
  by_cases hsize : r = .primeSize
  · subst hsize
    exact State.setSize_keeps (P := fun t => t.params = s.params) (fun _ _ => rfl) _
  by_cases hbreakpoint : r = .breakpoint
  · subst hbreakpoint
    exact State.debug_keeps (P := fun t => t.params = s.params) rfl rfl
  · exact congrArg Prod.fst (State.armament_writeSink hreset hsize hbreakpoint value s)

/-- Whatever a driver does, it goes on serving its engine. -/
theorem upholds_serves (d : Driver) : Upholds d.Serves (fun _ _ => True) where
  read r s hs := by
    have hparams : (s.readSource r).2.params = s.params :=
      congrArg (fun core => core.2.2.2.1) (State.core_readSource r s)
    exact ⟨hs.coherent.readSource r, by rw [Matches, hparams]; exact hs.matching,
      by rw [hparams]; exact hs.patient⟩
  write r value s _ hs := by
    have hparams := params_writeSink r value s
    exact ⟨hs.coherent.writeSink r value, by rw [Matches, hparams]; exact hs.matching,
      by rw [hparams]; exact hs.patient⟩
  acknowledge _ := trivial

/-- The capabilities tell the layout, and agree otherwise. -/
theorem sameCapabilities_of_bare (h : s.bare = t.bare) :
    SameCapabilities s.capabilitiesWord t.capabilitiesWord := by
  have hdebug : s.params.debug = t.params.debug :=
    State.field_of_bare h (·.params.debug) fun _ => rfl
  have hshuffle : s.params.shuffle = t.params.shuffle :=
    State.field_of_bare h (·.params.shuffle) fun _ => rfl
  have hdynamic : s.params.dynamicSize = t.params.dynamicSize :=
    State.field_of_bare h (·.params.dynamicSize) fun _ => rfl
  have hmax : s.params.maxSize = t.params.maxSize :=
    State.field_of_bare h (·.params.maxSize) fun _ => rfl
  constructor
  · simp (disch := decide) only [State.capabilitiesWord, BitField.test_set_of_apart,
      BitField.test_put_of_apart, BitField.test_put, hdebug]
  · simp (disch := decide) only [State.capabilitiesWord, BitField.test_set_of_apart,
      BitField.test_put_of_apart, BitField.test_put, hshuffle]
  · simp (disch := decide) only [State.capabilitiesWord, BitField.test_set_of_apart,
      BitField.test_put_of_apart, BitField.test_put, hdynamic]
  · have hword (u : State) : Capabilities.maxSize.get u.capabilitiesWord =
        UInt32.ofNat u.params.maxSize &&& Capabilities.maxSize.mask :=
      BitField.get_set (by decide) (by decide) _ _
    rw [hword, hword, hmax]

/-- Accesses go abreast on engines that are the same but for their layout. -/
theorem paired_bare (hsame : SamePatience d d') :
    Paired (fun s t => s.bare = t.bare) (fun r _ => r ≠ .writeData) d d' where
  limit := hsame.limit
  fuel := hsame.fuel
  read r hdata hcapabilities s t h := by
    have hs := State.bare_readSource hdata hcapabilities s
    have ht := State.bare_readSource hdata hcapabilities t
    rw [h, ht, Prod.mk.injEq] at hs
    have hread := (d.ends_read (s := s) r _).mpr ⟨rfl, rfl⟩
    have hread' := (d'.ends_read (s := t) r _).mpr ⟨rfl, rfl⟩
    rw [hs.1] at hread'
    exact .of_ends hread hread' hs.2.symm
  capabilities s t h := by
    have hread (e : Driver) (u : State) : Ends bus e.capabilities u u.capabilitiesWord u :=
      (e.ends_read .capabilities _).mpr ⟨(UInt32.toUInt32_toUInt64 _).symm, rfl⟩
    exact ⟨_, _, sameCapabilities_of_bare h, hread d s, hread d' t⟩
  write r word hr s t h :=
    .of_ends ((d.ends_write r word ()).mpr rfl) ((d'.ends_write r word ()).mpr rfl)
      ((State.bare_writeSink hr word.toUInt64).apply h)
  acknowledge _ := by decide

theorem paired_twins (hsame : SamePatience d d') :
    Paired (Twins d d') (fun r _ => r ≠ .writeData ∧ True) d d' :=
  (paired_bare hsame).and (upholds_serves d) (upholds_serves d')

/-! ### Transfers -/

/-- A transfer that has been opened puts the number together at its destination. -/
theorem sends {bytes : Bytes} {destination : Destination} (hs : d.Serves s)
    (hlen : bytes.length ≤ s.numberBytes) (hopen : Returns bus (d.openWrite destination) s () u) :
    ∃ w, Returns bus ((Bytes.toWords d.wordBytes (d.words s) bytes).forM d.sendWord) u () w ∧
      w.Quiet ∧ w.Alike ((s.unflag destination).receiving destination bytes.toNat (d.words s)) ∧
      (w.limb, w.limbReady) = (u.limb, u.limbReady) := by
  obtain ⟨hquiet, hresting, hclear⟩ := openWrite_only hs.coherent hopen
  have hserves : d.Serves u :=
    (((upholds_serves d).paired d).openWrite (fun _ _ => trivial) destination).keeps hs hopen
  have hlike := ((does_openWrite destination).only s () u (.refl s) hopen).2
  have hsend := does_sendWords (d := d) (s := s.unflag destination) destination
    (Bytes.toWords d.wordBytes (d.words s) bytes) 0 0
  obtain ⟨w, hw, -⟩ := hsend.returns u hlike ⟨⟨hserves.coherent, hresting, hserves.patient⟩, hclear⟩
  have halike := (hsend.only u () w hlike hw).2
  have hgathered := gathered_of_matches hs.matching (fits_of_le (d := d) hlen)
  have hwords : Bytes.gather (s.unflag destination).wordBits 0
      ((Bytes.toWords d.wordBytes (d.words s) bytes).map (d.arriving (s.unflag destination))) =
      d.gathered s bytes := by cases destination <;> rfl
  rw [Nat.zero_or, Bytes.length_toWords, Nat.zero_add, hwords, hgathered] at halike
  have hlimb : w.limb = u.limb ∧ w.limbReady = u.limbReady :=
    (Operation.Lockstep.forM _ fun word _ => (upholds_limb u.limb u.limbReady).sendWord d
      (fun _ => .inl (by simp [State.Peripheral])) word).keeps ⟨rfl, rfl⟩ hw
  exact ⟨w, hw, quiet_of_sendWords hquiet hw, halike, Prod.ext hlimb.1 hlimb.2⟩

theorem quiet_bare (h : s.Quiet) : s.bare.Quiet := ⟨⟨h.busy, h.init, h.waiting⟩, h.warmup⟩

/-- Quiet engines are the same but for their layout if they are alike but for it. -/
theorem bare_eq_of_quiet {u' v' : State} (hu : u.Quiet) (hv : v.Quiet) (hlike : u.Alike u')
    (hlike' : v.Alike v') (h : u'.bare = v'.bare)
    (hlimb : (u.limb, u.limbReady) = (v.limb, v.limbReady)) : u.bare = v.bare := by
  have hbare : State.Timeless State.bare := fun _ => rfl
  have hright : v'.bare.Alike v.bare := (hlike'.apply hbare).symm
  rw [← h] at hright
  exact State.eq_of_quiet (quiet_bare hu) (quiet_bare hv) ((hlike.apply hbare).trans hright) hlimb

/-- The same number, sent to twins, leaves twins. -/
theorem bare_receiving (h : s.bare = t.bare) (destination : Destination)
    (value index index' : Nat) :
    ((s.unflag destination).receiving destination value index).bare =
      ((t.unflag destination).receiving destination value index').bare := by
  have hbare (u : State) (count : Nat) :
      ((u.unflag destination).receiving destination value count).bare =
        ((u.bare.unflag destination).put destination value).bare := by
    cases destination <;> rfl
  rw [hbare, hbare, h]

/-! ### Sending -/

theorem numberBytes_of_bare (h : s.bare = t.bare) : s.numberBytes = t.numberBytes :=
  State.field_of_bare h State.numberBytes fun _ => rfl

theorem limb_of_bare (h : s.bare = t.bare) : (s.limb, s.limbReady) = (t.limb, t.limbReady) :=
  State.field_of_bare h (fun u => (u.limb, u.limbReady)) fun _ => rfl

/-- The same number, sent to twins, leaves them the same but for their layout. -/
theorem writeNumber_twins (hsame : SamePatience d d') (h : Twins d d' s t) {bytes : Bytes}
    (hlen : bytes.length ≤ s.numberBytes) (destination : Destination) :
    Abreast (fun u v => u.bare = v.bare) (d.writeNumber bytes destination).run s
      (d'.writeNumber bytes destination).run t := by
  have hlen' : bytes.length ≤ t.numberBytes := numberBytes_of_bare h.1 ▸ hlen
  refine Operation.abreast_of_returns (transferWords_returns (fits_of_le hlen))
    (transferWords_returns (fits_of_le hlen')) ?_
  have hopens := (paired_twins hsame).openWrite (fun _ _ => ⟨by decide, trivial⟩) destination s t h
  refine Operation.abreast_bind (hopens.mono fun _ _ huv => huv.1) fun _ u v hu hv huv => ?_
  obtain ⟨w, hw, hquiet, halike, hlimb⟩ := sends h.2.1 hlen hu
  obtain ⟨w', hw', hquiet', halike', hlimb'⟩ := sends h.2.2 hlen' hv
  refine .of_ends hw hw' (bare_eq_of_quiet hquiet hquiet' halike halike'
    (bare_receiving h.1 destination bytes.toNat _ _) ?_)
  rw [hlimb, hlimb', limb_of_bare huv]

/-! ### Receiving -/

/-- An open transfer delivers the words of the number that is addressed. -/
theorem receives {command : Command} {value : Nat} (hs : d.Serves s) (hcommand : Transfers command)
    (hopens : Opens command s value)
    (hopen : Returns bus (d.writeSettled .control command.word) s () u) :
    ∃ w, Recording.Returns bus (d.receiveWords (d.words s)) [] u ()
        (d.departing s value 0 (d.words s)).reverse w ∧
      w.Quiet ∧ w.Alike (s.sending value (d.words s)) ∧
      (w.limb, w.limbReady) = (u.limb, u.limbReady) := by
  obtain ⟨_, -, -, -, -, -, -, hresting, hclear⟩ := writeSettled_only hopen
  have hquiet : u.Quiet := quiet_of_writeSettled hs.coherent (opensTransfer hcommand) hopen
  have hserves : d.Serves u :=
    (((upholds_serves d).paired d).writeSettled trivial).keeps hs hopen
  have hlike := ((does_writeSettled (d := d) .control command.word hopens rfl).only s () u (.refl s)
    hopen).2
  have hreceive := records_receiveWords (d := d) (s := s) value 0 (d.words s) []
  rw [List.append_nil, Nat.zero_add] at hreceive
  obtain ⟨w, hw, -⟩ := hreceive.returns u hlike
    ⟨⟨hserves.coherent, hresting, hserves.patient⟩, hclear hs.coherent⟩
  have hlimb : w.limb = u.limb ∧ w.limbReady = u.limbReady :=
    ((upholds_limb u.limb u.limbReady).receiveWords d _ []).keeps ⟨rfl, rfl⟩ hw
  exact ⟨w, hw, quiet_of_receiveWords hquiet hw, (hreceive.only u () _ w hlike hw).2.2,
    Prod.ext hlimb.1 hlimb.2⟩

/-- Twins open a transfer of the same number. -/
theorem opens_twins {command : Command} (hcommand : Fetches command) (h : s.bare = t.bare) :
    ∃ value, Opens command s value ∧ Opens command t value := by
  cases hcommand with
  | number n =>
    have hvalue : s.numbers.get n = t.numbers.get n :=
      State.field_of_bare h (fun u => u.numbers.get n) fun _ => rfl
    exact ⟨s.numbers.get n, opens_number n, hvalue ▸ opens_number n⟩
  | token =>
    have htoken : s.token = t.token := State.field_of_bare h State.token fun _ => rfl
    exact ⟨s.token.getD 0, opens_token, htoken ▸ opens_token⟩

/-- Between matching widths, a buffer does not tell the width of the words. -/
theorem delivered_twins (h : Twins d d' s t) {buffer : Bytes} (hlen : buffer.length ≤ s.numberBytes)
    (value : Nat) : d.delivered s value buffer = d'.delivered t value buffer := by
  have hlen' : buffer.length ≤ t.numberBytes := numberBytes_of_bare h.1 ▸ hlen
  refine Bytes.eq_of_toNat ?_ ?_
  · rw [length_delivered, length_delivered]
  · rw [toNat_delivered h.2.1.matching value (fits_of_le hlen),
      toNat_delivered h.2.2.matching value (fits_of_le hlen')]

/-- What a buffer holds when a transfer into it is over, opened or not. -/
theorem readInto_on (command : Command) (buffer : Bytes) :
    (d.readInto command).on buffer = (d.transferWords buffer.length).run >>= fun
      | .error e => pure (.error e, buffer)
      | .ok words => (d.writeSettled .control command.word).run >>= fun
        | .error e => pure (.error e, buffer)
        | .ok () => (d.receiveWords words).on [] >>= fun (ending, received) =>
          pure (ending, Bytes.fill d.wordBytes received.reverse buffer) := by
  show (d.readWords command buffer.length).on [] >>= (fun p =>
    pure (p.1, Bytes.fill d.wordBytes p.2.reverse buffer)) = _
  rw [readWords, Recording.on_lift_bind, LawfulMonad.bind_assoc]
  congr 1
  funext x
  cases x with
  | error e => simp [Bytes.fill_nil]
  | ok words =>
    simp only
    rw [Recording.on_lift_bind, LawfulMonad.bind_assoc]
    congr 1
    funext y
    cases y with
    | error e => simp [Bytes.fill_nil]
    | ok _ => rfl

/-- A buffer receives the same from twins, and leaves them the same but for their layout. -/
theorem readInto_twins (hsame : SamePatience d d') (h : Twins d d' s t) {command : Command}
    (hcommand : Fetches command) {buffer : Bytes} (hlen : buffer.length ≤ s.numberBytes) :
    Abreast (fun u v => u.bare = v.bare) ((d.readInto command).on buffer) s
      ((d'.readInto command).on buffer) t := by
  have hlen' : buffer.length ≤ t.numberBytes := numberBytes_of_bare h.1 ▸ hlen
  rw [readInto_on, readInto_on]
  refine Abreast.of_ends_bind (transferWords_returns (fits_of_le hlen))
    (transferWords_returns (fits_of_le hlen')) ?_
  have hopening : Operation.Lockstep (Twins d d') (d.writeSettled .control command.word)
      (d'.writeSettled .control command.word) :=
    (paired_twins hsame).writeSettled ⟨by decide, trivial⟩
  refine ((hopening s t h).mono fun _ _ huv => huv.1).bind fun opened u v hu hv huv => ?_
  cases opened with
  | error e => exact Lockstep.pure _ u v huv
  | ok _ =>
    obtain ⟨value, hopens, hopens'⟩ := opens_twins hcommand h.1
    obtain ⟨w, hw, hquiet, halike, hlimb⟩ := receives h.2.1 hcommand.transfers hopens hu
    obtain ⟨w', hw', hquiet', halike', hlimb'⟩ := receives h.2.2 hcommand.transfers hopens' hv
    have hbare : w.bare = w'.bare := by
      refine bare_eq_of_quiet hquiet hquiet' halike halike' h.1 ?_
      rw [hlimb, hlimb', limb_of_bare huv]
    refine Abreast.of_ends_bind hw hw' ?_
    simp only [List.reverse_reverse]
    have hbuffer := delivered_twins h hlen value
    rw [delivered, delivered] at hbuffer
    rw [hbuffer]
    exact Lockstep.pure _ w w' hbare

/-! ### Twins at a prime size -/

/-- Twins whose prime size is `n`. -/
def TwinsAt (n : Nat) (d d' : Driver) (s t : State) : Prop :=
  Twins d d' s t ∧ s.size = n ∧ t.size = n

theorem Twins.at_size (h : Twins d d' s t) : TwinsAt s.size d d' s t :=
  ⟨h, rfl, State.field_of_bare h.1.symm State.size fun _ => rfl⟩

/-- What may be written to engines that are to keep their prime size. -/
def KeepsSize (r : Sink) : Prop := r ≠ .writeData ∧ r ≠ .primeSize ∧ r ≠ .softReset

instance (r : Sink) : Decidable (KeepsSize r) := inferInstanceAs (Decidable (_ ∧ _))

theorem TwinsAt.numberBytes_eq {n : Nat} (h : TwinsAt n d d' s t) :
    s.numberBytes = (n % 2 ^ 16 + 7) / 8 := by
  rw [State.numberBytes, h.2.1]

/-- Whatever either driver keeps up, twins stay twins if they stay the same otherwise. -/
theorem TwinsAt.abreast {α : Type} {n : Nat} {p q : Procedure α} (h : TwinsAt n d d' s t)
    (hbare : Abreast (fun u v => u.bare = v.bare) p s q t)
    (hp : Procedure.Lockstep (Both fun u => d.Serves u ∧ u.size = n) p p)
    (hq : Procedure.Lockstep (Both fun u => d'.Serves u ∧ u.size = n) q q) :
    Abreast (TwinsAt n d d') p s q t :=
  (abreast_and hbare hp hq ⟨h.1.2.1, h.2.1⟩ ⟨h.1.2.2, h.2.2⟩).mono
    fun _ _ ⟨hbare, hu, hv⟩ => ⟨⟨hbare, hu.1, hv.1⟩, hu.2, hv.2⟩

theorem transfers_twins (n : Nat) (hsame : SamePatience d d') :
    PairedTransfers (TwinsAt n d d') (fun r _ => KeepsSize r) (· ≤ (n % 2 ^ 16 + 7) / 8) d d' := by
  have hkept (e : Driver) := ((upholds_serves e).and (upholds_size n)).transfers e
    (fun _ => ⟨trivial, by decide⟩) fun _ _ => ⟨trivial, by decide⟩
  have hsized := (paired_twins hsame).and (upholds_size n) (upholds_size n)
  exact
    { limit := hsame.limit
      fuel := hsame.fuel
      read := hsized.read
      capabilities := hsized.capabilities
      write := fun r word hr => hsized.write r word ⟨⟨hr.1, trivial⟩, hr.2⟩
      acknowledge := fun _ => by decide
      bytes := fun s t h => Nat.le_of_eq h.numberBytes_eq
      send := fun bytes destination hlen s t h =>
        h.abreast (writeNumber_twins hsame h.1 (h.numberBytes_eq ▸ hlen) destination)
          ((hkept d).send bytes destination trivial) ((hkept d').send bytes destination trivial)
      receive := fun command hcommand buffer hlen s t h =>
        h.abreast (readInto_twins hsame h.1 hcommand (h.numberBytes_eq ▸ hlen))
          ((hkept d).receive command hcommand buffer trivial)
          ((hkept d').receive command hcommand buffer trivial) }

end Driver

end CurveEngine
