import CurveEngine.Driver.Setup
import CurveEngine.Proofs.Accesses
import CurveEngine.Proofs.Sending

/-! Setting the prime size.

Three ranges meet when a prime size is set. The driver refuses what is beyond the largest size that
the capabilities show, in a field of twenty bits; the register holds sixteen bits, of which the
engine refuses what is below its smallest size. A size that is refused by either leaves the engine
as it was, and so does any size on an engine whose prime size is fixed. Of one that both take, the
low sixteen bits are set (`setSize_resizes`): on an engine for primes of more than `0xffff` bits
that need not be the size that was asked for (`setSize_wraps`). -/
namespace CurveEngine
open Register Procedure Device Operation

namespace Device.State
variable (s : State)

/-- The largest prime size that the capabilities show. -/
def shownMaxSize (s : State) : Nat := s.params.maxSize % 2 ^ 20

theorem maxSize_capabilitiesWord :
    (Capabilities.maxSize.get s.capabilitiesWord).toNat = s.shownMaxSize := by
  have hget : Capabilities.maxSize.get s.capabilitiesWord =
      UInt32.ofNat s.params.maxSize &&& Capabilities.maxSize.mask :=
    BitField.get_set (by decide) (by decide) _ _
  rw [hget, BitField.toNat_and_mask (by decide), UInt32.toNat_ofNat']
  exact Nat.mod_mod_of_dvd _ (Nat.pow_dvd_pow 2 (by decide))

theorem dynamicSize_capabilitiesWord :
    Capabilities.dynamicSize.test s.capabilitiesWord = s.params.dynamicSize := by
  simp (disch := decide) only [capabilitiesWord, BitField.test_set_of_apart,
    BitField.test_put_of_apart, BitField.test_put]

theorem shownMaxSize_le : s.shownMaxSize ≤ s.params.maxSize := Nat.mod_le _ _

/-- The register of the prime size holds sixteen bits. -/
theorem writeSink_primeSize (size : Nat) :
    s.writeSink .primeSize (UInt32.ofNat size).toUInt64 = (s.setSize (size % 2 ^ 16)).occupy := by
  have hword : (UInt32.ofNat size &&& 0xffff).toNat = size % 2 ^ 16 := by
    rw [UInt32.toNat_and, show (0xffff : UInt32).toNat = 2 ^ 16 - 1 from rfl,
      Nat.and_two_pow_sub_one_eq_mod, UInt32.toNat_ofNat']
    exact Nat.mod_mod_of_dvd _ (Nat.pow_dvd_pow 2 (by decide))
  simp only [writeSink, UInt32.toUInt32_toUInt64, hword]

variable {s}

theorem setSize_of_range {size : Nat} (hdynamic : s.params.dynamicSize = true)
    (hmin : minSize ≤ size) (hmax : size ≤ s.params.maxSize) : s.setSize size = { s with size } := by
  simp [setSize, hdynamic, hmin, hmax]

theorem setSize_of_small {size : Nat} (hsmall : size < minSize) :
    s.setSize size = s.latch .sizeRefused := by
  simp [setSize, hsmall]

/-- A write to the register does the same to engines that are alike. -/
theorem Alike.primeSize {u s' : State} (hu : u.Alike s) {size : Nat}
    (heffect : s.setSize (size % 2 ^ 16) = s') :
    (u.writeSink .primeSize (UInt32.ofNat size).toUInt64).Alike s' := by
  have hoccupy : ({ s' with busy := s'.params.latency } : State).Alike s' := rfl
  rw [writeSink_primeSize, ← heffect]
  exact (hu.apply (Timeless.comp (f := occupy) (fun _ => rfl) (timeless_setSize _))).trans
    (heffect ▸ hoccupy)

end Device.State

namespace Driver
variable {d : Driver} {s : State} {size : Nat}

/-! ### What becomes of a request -/

theorem returns_capabilities (s : State) :
    Returns bus (liftM d.capabilities : Operation UInt32) s s.capabilitiesWord s :=
  (returns_lift _ _ _ _).mpr ((ends_capabilities _ _).mpr ⟨rfl, rfl⟩)

/-- What the driver itself makes of a request. -/
theorem ends_setSize (t : State) (result : Except DriverError Unit) :
    Ends bus (d.setSize size).run s result t ↔
      Ends bus
        (if size > s.shownMaxSize then throw .sizeTooLarge
          else if s.params.dynamicSize then d.writeSettled .primeSize (UInt32.ofNat size)
          else pure () : Operation Unit).run s result t := by
  rw [setSize, (returns_capabilities s).ends_run_bind, s.maxSize_capabilitiesWord,
    s.dynamicSize_capabilitiesWord]

theorem setSize_tooLarge (hlarge : size > s.shownMaxSize) :
    Throws bus (d.setSize size) s .sizeTooLarge s := by
  rw [Throws, ends_setSize, if_pos hlarge]
  exact (throws_throw _ _ _ _).mpr ⟨rfl, rfl⟩

theorem setSize_fixed (hsize : size ≤ s.shownMaxSize) (hfixed : s.params.dynamicSize = false) :
    Returns bus (d.setSize size) s () s := by
  rw [Returns, ends_setSize, if_neg (Nat.not_lt.mpr hsize), hfixed]
  exact (returns_pure _ _ _ _).mpr ⟨rfl, rfl⟩

/-- Nothing is stored unless the request gets past the driver. -/
theorem not_makes_setSize (h : size > s.shownMaxSize ∨ s.params.dynamicSize = false) :
    ¬ Makes bus Access.IsStore (d.setSize size).run s := by
  refine Operation.Avoids.not_makes_bind
    (.lift (avoids_read (fun _ _ _ => id) .capabilities)) fun word t hword => ?_
  obtain ⟨rfl, rfl⟩ := (returns_capabilities s).unique hword
  rw [t.maxSize_capabilitiesWord, t.dynamicSize_capabilitiesWord]
  split
  · exact Operation.Avoids.throw _ t
  · rename_i hsize
    rw [h.resolve_left hsize]
    exact Operation.Avoids.pure () t

/-- A size of which the register keeps too little is refused by the engine. -/
theorem setSize_refused (hs : Ready d s) (hsize : size ≤ s.shownMaxSize)
    (hdynamic : s.params.dynamicSize = true) (hsmall : size % 2 ^ 16 < minSize) :
    ∃ t, Throws bus (d.setSize size) s (.hardware HardwareError.sizeRefused.mask) t ∧
      Ready d t ∧ t.Alike s := by
  have hlatched : (s.latch .sizeRefused).errors = HardwareError.sizeRefused.mask := by
    show s.errors ||| _ = _
    rw [hs.clear, UInt32.zero_or]
  have hclear : acknowledged (s.latch .sizeRefused) = s := by
    have hnone : (acknowledged (s.latch .sizeRefused)).errors = s.errors := by
      show (s.latch .sizeRefused).errors &&& ~~~(Latch.ofAckWord (Latch.ackWord _)) = _
      rw [hlatched, hs.clear]
      decide
    show { s with errors := (acknowledged (s.latch .sizeRefused)).errors } = s
    rw [hnone]
  obtain ⟨t, hthrows, hcoherent, ht⟩ := writeSettled_latched .primeSize (UInt32.ofNat size)
    hs.toAwaitable (fun u hu _ => hu.primeSize (State.setSize_of_small hsmall)) rfl
    (by rw [hlatched]; decide)
  rw [hclear] at ht
  refine ⟨t, ?_, hs.frame hcoherent (ht.field (fun u => (u.errors, u.multiplying, u.params))
    fun _ => rfl), ht⟩
  rw [Throws, ends_setSize, if_neg (Nat.not_lt.mpr hsize), hdynamic, ← hlatched]
  exact hthrows

/-- Any other is set, as far as the register holds it. -/
theorem setSize_taken (hs : Ready d s) (hsize : size ≤ s.shownMaxSize)
    (hdynamic : s.params.dynamicSize = true) (hmin : minSize ≤ size % 2 ^ 16) :
    ∃ t, Returns bus (d.setSize size) s () t ∧ Ready d t ∧
      t.Alike { s with size := size % 2 ^ 16 } := by
  have hmax : size % 2 ^ 16 ≤ s.params.maxSize :=
    Nat.le_trans (Nat.mod_le _ _) (Nat.le_trans hsize s.shownMaxSize_le)
  have hwrite : Does (Ready d) (d.writeSettled .primeSize (UInt32.ofNat size)) s ()
      { s with size := size % 2 ^ 16 } :=
    does_writeSettled _ _ (fun u hu _ => hu.primeSize (State.setSize_of_range hdynamic hmin hmax)) rfl
  obtain ⟨t, hreturns, ht⟩ := hwrite.returns s (.refl s) hs
  refine ⟨t, ?_, ht, (hwrite.only s () t (.refl s) hreturns).2⟩
  rw [Returns, ends_setSize, if_neg (Nat.not_lt.mpr hsize), hdynamic]
  exact hreturns

/-! ### What is set -/

/-- **A prime size is set modulo `0x10000`, or not at all.** On an engine at rest that has latched
no error, a size beyond the largest one shown is refused by the driver, and on an engine whose
size is fixed any other is granted, both without a store. On the others the engine refuses a size
whose low sixteen bits are below the smallest one, and stays as it was. What it takes instead of a
size, and what is read back then, is these bits: the size itself if and only if that is at most
`0xffff`. -/
theorem setSize_resizes (d : Driver) (s : State) (size : Nat) (hs : Reachable s)
    (hresting : s.multiplying = false) (hclear : s.errors = 0)
    (hpatient : max s.params.latency 3 < d.checks) :
    (size > s.shownMaxSize →
      Throws bus (d.setSize size) s .sizeTooLarge s ∧
        ∀ access ∈ (d.setSize size).run.accesses bus s, ¬ access.IsStore) ∧
    (size ≤ s.shownMaxSize → s.params.dynamicSize = false →
      Returns bus (d.setSize size) s () s ∧
        ∀ access ∈ (d.setSize size).run.accesses bus s, ¬ access.IsStore) ∧
    (size ≤ s.shownMaxSize → s.params.dynamicSize = true → size % 2 ^ 16 < minSize →
      ∃ t, Throws bus (d.setSize size) s (.hardware HardwareError.sizeRefused.mask) t ∧
        t.Alike s ∧ t.size = s.size) ∧
    (size ≤ s.shownMaxSize → s.params.dynamicSize = true → minSize ≤ size % 2 ^ 16 →
      ∃ t, Returns bus (d.setSize size) s () t ∧
        t.Alike { s with size := size % 2 ^ 16 } ∧ t.size = size % 2 ^ 16 ∧
        Ends bus d.size t (size % 2 ^ 16) t ∧ size ≤ s.params.maxSize ∧
        (t.size = size ↔ size ≤ 0xffff)) := by
  have hready : Ready d s := ⟨⟨hs.coherent, hresting, hpatient⟩, hclear⟩
  refine ⟨fun hlarge => ⟨setSize_tooLarge hlarge, fun access haccess hstore => ?_⟩,
    fun hsize hfixed => ⟨setSize_fixed hsize hfixed, fun access haccess hstore => ?_⟩,
    fun hsize hdynamic hsmall => ?_, fun hsize hdynamic hmin => ?_⟩
  · exact not_makes_setSize (.inl hlarge) ⟨access, haccess, hstore⟩
  · exact not_makes_setSize (.inr hfixed) ⟨access, haccess, hstore⟩
  · obtain ⟨t, hthrows, -, ht⟩ := setSize_refused hready hsize hdynamic hsmall
    exact ⟨t, hthrows, ht, ht.field State.size fun _ => rfl⟩
  · obtain ⟨t, hreturns, -, ht⟩ := setSize_taken hready hsize hdynamic hmin
    have hset : t.size = size % 2 ^ 16 := ht.field State.size fun _ => rfl
    refine ⟨t, hreturns, ht, hset, ?_, Nat.le_trans hsize s.shownMaxSize_le, ?_⟩
    · rw [ends_size, hset]
      exact ⟨(Nat.mod_mod _ _).symm, rfl⟩
    · rw [hset]
      omega

/-- A size that the register holds. -/
theorem setSize_resizes_64 :
    ∃ t, Returns bus ((⟨{}, 10⟩ : Driver).setSize 64) (.powerUp {} fun _ => 0) () t ∧
      t.size = 64 := by
  obtain ⟨-, -, -, htaken⟩ := setSize_resizes ⟨{}, 10⟩ (.powerUp {} fun _ => 0) 64
    (.powerUp _ _) rfl rfl (by decide)
  obtain ⟨t, hreturns, -, hset, -⟩ := htaken (by decide) rfl (by decide)
  exact ⟨t, hreturns, hset⟩

/-- **A larger one is cut off.** An engine for primes of 65800 bits is asked for one of 65544 bits,
grants it without an error, and goes on with a prime of eight bits. -/
theorem setSize_wraps :
    let s : State := .powerUp { maxSize := 65800 } fun _ => 0
    Reachable s ∧ s.multiplying = false ∧ s.errors = 0 ∧ s.params.dynamicSize = true ∧
      max s.params.latency 3 < (⟨{}, 10⟩ : Driver).checks ∧
      ∃ t, Returns bus ((⟨{}, 10⟩ : Driver).setSize 65544) s () t ∧ t.size = 8 ∧
        Ends bus (⟨{}, 10⟩ : Driver).size t 8 t := by
  intro s
  have hs : Reachable s := .powerUp _ _
  obtain ⟨t, hreturns, -, ht⟩ := setSize_taken (d := ⟨{}, 10⟩) (s := s)
    ⟨⟨hs.coherent, rfl, by decide⟩, rfl⟩ (show 65544 ≤ s.shownMaxSize by decide) rfl (by decide)
  have hset : t.size = 8 := ht.field State.size fun _ => rfl
  refine ⟨hs, rfl, rfl, rfl, by decide, t, hreturns, hset, ?_⟩
  rw [ends_size, hset]
  exact ⟨rfl, rfl⟩

end Driver

end CurveEngine
