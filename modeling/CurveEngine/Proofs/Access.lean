import CurveEngine.Proofs.Fields
import CurveEngine.Proofs.Reachable

/-! Register accesses of a driver on an engine.

An access of either width carries the register there and back: the halves that the
interconnect swaps are swapped again, so that a register of 32 bits is read and written
as it is (`ends_read`, `ends_write`). Only data words tell the widths apart: those of a
narrow driver lose their high half (`cut`). The fields of the status word are what the
engine put there. -/
namespace CurveEngine

theorem swapHalves_swapHalves (word : UInt64) : swapHalves (swapHalves word) = word := by
  apply UInt64.toBitVec_inj.mp
  apply BitVec.eq_of_getLsbD_eq
  intro i hi
  have hbeyond : word.toBitVec.getLsbD (32 + (32 + i)) = false :=
    BitVec.getLsbD_of_ge _ _ (by omega)
  by_cases hlow : i < 32
  · have hup : 32 + i < 64 := by omega
    simp [swapHalves, hi, hlow, hup, hbeyond]
  · have hback : 32 + (i - 32) = i := by omega
    have hsmall : i - 32 < 32 := by omega
    simp [swapHalves, hi, hlow, hback, hsmall, hbeyond]

theorem toNat_lowHalf (word : UInt64) : (lowHalf word).toNat = word.toNat % 2 ^ 32 := by
  rw [lowHalf, UInt64.toNat_and]
  exact Nat.and_two_pow_sub_one_eq_mod _ 32

theorem lowHalf_lowHalf (word : UInt64) : lowHalf (lowHalf word) = lowHalf word := by
  apply UInt64.toNat_inj.mp
  rw [toNat_lowHalf, toNat_lowHalf, Nat.mod_mod]

theorem toUInt32_lowHalf (word : UInt64) : (lowHalf word).toUInt32 = word.toUInt32 := by
  apply UInt32.toNat_inj.mp
  rw [UInt64.toNat_toUInt32, UInt64.toNat_toUInt32, toNat_lowHalf, Nat.mod_mod]

theorem lowHalf_toUInt64 (word : UInt32) : lowHalf word.toUInt64 = word.toUInt64 := by
  apply UInt64.toNat_inj.mp
  rw [toNat_lowHalf, UInt32.toNat_toUInt64]
  exact Nat.mod_eq_of_lt word.toNat_lt

namespace Register

theorem Source.offset_of_ofOffset? {offset : UInt32} {r : Source}
    (h : Source.ofOffset? offset = some r) : r.offset = offset := by
  unfold Source.ofOffset? at h
  split at h
  all_goals cases h
  all_goals exact UInt32.toNat_inj.mp (by symm; assumption)

theorem Sink.offset_of_ofOffset? {offset : UInt32} {r : Sink}
    (h : Sink.ofOffset? offset = some r) : r.offset = offset := by
  unfold Sink.ofOffset? at h
  split at h
  all_goals cases h
  all_goals exact UInt32.toNat_inj.mp (by symm; assumption)

end Register

namespace Driver
open Register Procedure Device

variable (d : Driver) {s t : State}

/-- A data word as the driver moves it: a narrow driver keeps the low half. -/
def cut (value : UInt64) : UInt64 :=
  match d.config.width with
  | .narrow => lowHalf value
  | .wide => value

theorem toUInt32_cut (value : UInt64) : (d.cut value).toUInt32 = value.toUInt32 := by
  unfold cut
  split
  · exact toUInt32_lowHalf value
  · rfl

theorem cut_toUInt64 (word : UInt32) : d.cut word.toUInt64 = word.toUInt64 := by
  unfold cut
  split
  · exact lowHalf_toUInt64 word
  · rfl

/-! ### Accesses -/

theorem ends_loadWord (size : AccessSize) (r : Source) (value : UInt64) :
    Ends bus (loadWord size r.offset) s value t ↔
      value = State.onBus size (s.readSource r).1 ∧ t = (s.readSource r).2 := by
  have hread : s.read size r.offset =
      (.ok (State.onBus size (s.readSource r).1), (s.readSource r).2) := by
    simp only [State.read, Source.ofOffset?_offset]
  unfold Ends
  simp only [loadWord, run, bus, hread, Prod.mk.injEq, Outcome.done.injEq]
  exact and_congr eq_comm eq_comm

theorem ends_storeWord (size : AccessSize) (r : Sink) (value : UInt64) (a : Unit) :
    Ends bus (storeWord size r.offset value) s a t ↔
      t = s.writeSink r (State.onBus size value) := by
  have hwrite : s.write size r.offset value =
      (.ok (), s.writeSink r (State.onBus size value)) := by
    simp only [State.write, Sink.ofOffset?_offset]
  unfold Ends
  simp only [storeWord, run, bus, hwrite, Prod.mk.injEq, true_and]
  exact eq_comm

theorem ends_readWord (r : Source) (value : UInt64) :
    Ends bus (d.readWord r) s value t ↔
      value = d.cut (s.readSource r).1 ∧ t = (s.readSource r).2 := by
  unfold readWord cut
  cases d.config.width with
  | narrow =>
    simp only [ends_bind, ends_loadWord, ends_pure, ends_notify, State.onBus]
    constructor
    · rintro ⟨_, _, ⟨rfl, rfl⟩, _, _, ⟨rfl, rfl⟩, _, _, rfl, rfl, rfl⟩
      exact ⟨lowHalf_lowHalf _, rfl⟩
    · rintro ⟨rfl, rfl⟩
      exact ⟨_, _, ⟨rfl, rfl⟩, _, _, ⟨rfl, rfl⟩, (), _, rfl, (lowHalf_lowHalf _).symm, rfl⟩
  | wide =>
    simp only [ends_bind, ends_loadWord, ends_pure, ends_notify, State.onBus]
    constructor
    · rintro ⟨_, _, ⟨rfl, rfl⟩, _, _, ⟨rfl, rfl⟩, _, _, rfl, rfl, rfl⟩
      exact ⟨swapHalves_swapHalves _, rfl⟩
    · rintro ⟨rfl, rfl⟩
      exact ⟨_, _, ⟨rfl, rfl⟩, _, _, ⟨rfl, rfl⟩, (), _, rfl, (swapHalves_swapHalves _).symm, rfl⟩

theorem ends_writeWord (r : Sink) (value : UInt64) (a : Unit) :
    Ends bus (d.writeWord r value) s a t ↔ t = s.writeSink r (d.cut value) := by
  unfold writeWord cut
  cases d.config.width with
  | narrow =>
    simp only [ends_bind, ends_notify, ends_storeWord, State.onBus, lowHalf_lowHalf]
    exact ⟨fun ⟨_, _, h, h'⟩ => h' ▸ h ▸ rfl, fun h => ⟨(), _, rfl, h⟩⟩
  | wide =>
    simp only [ends_bind, ends_notify, ends_storeWord, State.onBus, swapHalves_swapHalves]
    exact ⟨fun ⟨_, _, h, h'⟩ => h' ▸ h ▸ rfl, fun h => ⟨(), _, rfl, h⟩⟩

/-- A register of 32 bits is read as it is. -/
theorem ends_read (r : Source) (word : UInt32) :
    Ends bus (d.read r) s word t ↔
      word = (s.readSource r).1.toUInt32 ∧ t = (s.readSource r).2 := by
  simp only [Driver.read, ends_bind, ends_readWord, ends_pure]
  constructor
  · rintro ⟨_, _, ⟨rfl, rfl⟩, rfl, rfl⟩
    exact ⟨d.toUInt32_cut _, rfl⟩
  · rintro ⟨rfl, rfl⟩
    exact ⟨_, _, ⟨rfl, rfl⟩, (d.toUInt32_cut _).symm, rfl⟩

/-- A register of 32 bits is written as it is. -/
theorem ends_write (r : Sink) (word : UInt32) (a : Unit) :
    Ends bus (d.write r word) s a t ↔ t = s.writeSink r word.toUInt64 := by
  rw [Driver.write, ends_writeWord, cut_toUInt64]

theorem ends_status (word : UInt32) :
    Ends bus d.status s word t ↔ word = s.readStatus.1 ∧ t = s.readStatus.2 := by
  have hsource : s.readSource .status = (s.readStatus.1.toUInt64, s.readStatus.2) := rfl
  rw [status, ends_read, hsource, UInt32.toUInt32_toUInt64]

end Driver

/-! ### The status word -/

namespace Device.State
open Register BitField

variable (s : State)

theorem busy_readStatus : Status.busy.test s.readStatus.1 =
    (decide (s.busy > 0) || decide (s.init > 0) || s.multiplying) := by
  simp (disch := decide) only [readStatus, test_set_of_apart, test_put_of_apart, test_put]

theorem multiplying_readStatus : Status.multiplying.test s.readStatus.1 = s.multiplying := by
  simp (disch := decide) only [readStatus, test_set_of_apart, test_put_of_apart, test_put]

theorem enoughRandom_readStatus : Status.enoughRandom.test s.readStatus.1 = (s.warmup == 0) := by
  simp (disch := decide) only [readStatus, test_set_of_apart, test_put_of_apart, test_put]

theorem yes_readStatus : Status.yes.test s.readStatus.1 = s.yes := by
  simp (disch := decide) only [readStatus, test_set_of_apart, test_put_of_apart, test_put]

theorem r0Null_readStatus : Status.r0Null.test s.readStatus.1 = s.r0Null := by
  simp (disch := decide) only [readStatus, test_set_of_apart, test_put_of_apart, test_put]

theorem r1Null_readStatus : Status.r1Null.test s.readStatus.1 = s.r1Null := by
  simp (disch := decide) only [readStatus, test_set_of_apart, test_put]

theorem errors_readStatus (h : s.Coherent) : Status.errors.get s.readStatus.1 = s.errors := by
  have hbits : s.errors.toNat < 2 ^ 16 := Nat.lt_trans h.errors_lt (by decide)
  exact get_set_of_lt (by decide) (by decide) hbits _

theorem debug_capabilitiesWord : Capabilities.debug.test s.capabilitiesWord = s.params.debug := by
  simp (disch := decide) only [capabilitiesWord, test_set_of_apart, test_put_of_apart, test_put]

end Device.State

namespace Driver
open Register Procedure Device

variable (d : Driver) {s t : State}

theorem ends_capabilities (word : UInt32) :
    Ends bus d.capabilities s word t ↔ word = s.capabilitiesWord ∧ t = s := by
  have hsource : s.readSource .capabilities = (s.capabilitiesWord.toUInt64, s) := rfl
  rw [capabilities, ends_read, hsource, UInt32.toUInt32_toUInt64]

theorem ends_isDebug (debug : Bool) :
    Ends bus d.isDebug s debug t ↔ debug = s.params.debug ∧ t = s := by
  simp only [isDebug, ends_bind, ends_capabilities, ends_pure]
  constructor
  · rintro ⟨_, _, ⟨rfl, rfl⟩, rfl, rfl⟩
    exact ⟨t.debug_capabilitiesWord, rfl⟩
  · rintro ⟨rfl, rfl⟩
    exact ⟨_, t, ⟨rfl, rfl⟩, t.debug_capabilitiesWord.symm, rfl⟩

end Driver

end CurveEngine
