import CurveEngine.Driver.Debug
import CurveEngine.Proofs.Accesses
import CurveEngine.Proofs.Refinement
import CurveEngine.Proofs.Twins

/-! Patching the microcode.

The instruction memory has as many cells as the parameters say, from power-up on, and only a write
of an opcode reaches it (`program_writeSink`, `Reachable.program_size`). A patch is written cell by
cell, each with its address before it. Since the driver counts the cells first, without wrapping
around, no address of a patch that it writes runs past the last cell, and the memory is spliced as
a list is (`patchMicrocode_splices`). -/
namespace CurveEngine
open Register Procedure Device Operation

/-! ### The instruction memory -/

namespace Device

namespace State
variable {s : State}

/-- Only a write of an opcode reaches the instruction memory. -/
theorem program_writeSink {r : Sink} (hr : r ≠ .opcode) (value : UInt64) (s : State) :
    (s.writeSink r value).program = s.program := by
  have hdebug (t : State) (ht : t.program = s.program) :=
    debug_keeps (P := fun u => u.program = s.program) rfl ht
  cases r with
  | opcode => exact absurd rfl hr
  | control =>
    exact control_keeps (P := fun t => t.program = s.program)
      (fun _ _ _ _ _ _ _ _ _ _ _ _ _ _ _ => rfl) _
  | writeData => exact writeData_keeps (P := fun t => t.program = s.program) (fun _ _ _ _ _ => rfl) _
  | primeSize => exact setSize_keeps (P := fun t => t.program = s.program) (fun _ _ => rfl) _
  | blinding => exact setBlinding_keeps (P := fun t => t.program = s.program) (fun _ _ => rfl) _
  | shuffle => exact setShuffle_keeps (P := fun t => t.program = s.program) (fun _ _ => rfl) _
  | steps =>
    exact hdebug _ (step_keeps (P := fun t => t.program = s.program) _ fun _ _ _ _ _ _ _ _ => rfl)
  | halt =>
    exact hdebug _ (writeDebug_halt_keeps (P := fun t => t.program = s.program) (fun _ => rfl) _)
  | r0Null | r1Null | zremask | token | irq | errorAck | smallScalar | softReset => rfl
  | _ => exact hdebug _ rfl

/-- It keeps its size even then. -/
theorem size_program_writeSink (r : Sink) (value : UInt64) (s : State) :
    (s.writeSink r value).program.size = s.program.size := by
  by_cases hr : r = .opcode
  · subst hr
    exact debug_keeps (P := fun t => t.program.size = s.program.size) rfl Array.size_setIfInBounds
  · rw [program_writeSink hr]

theorem program_readSource (r : Source) (s : State) :
    ((s.readSource r).2.program, (s.readSource r).2.params) = (s.program, s.params) :=
  readSource_keeps (P := fun t => (t.program, t.params) = (s.program, s.params))
    (fun _ _ _ _ _ _ => rfl) r

end State

/-- The instruction memory has the cells that the parameters give it. -/
theorem Reachable.program_size {s : State} (h : Reachable s) : s.program.size = s.params.opcodes := by
  refine h.invariant (I := fun s => s.program.size = s.params.opcodes)
    (fun _ _ => Array.size_replicate) (fun r s _ hs => ?_) fun r value s _ hs => ?_
  · obtain ⟨hprogram, hparams⟩ := Prod.mk.inj (s.program_readSource r)
    rw [hprogram, hparams, hs]
  · rw [State.size_program_writeSink, Driver.params_writeSink, hs]

namespace State
variable {s : State}

theorem opcodes_memoryShapeWord (h : s.params.opcodes ≤ 0xffff) :
    (MemoryShape.opcodes.get s.memoryShapeWord).toNat = s.params.opcodes := by
  have hcount : (UInt32.ofNat s.params.opcodes).toNat = s.params.opcodes := by
    rw [UInt32.toNat_ofNat']
    exact Nat.mod_eq_of_lt (by omega)
  have hsmall : (UInt32.ofNat s.params.opcodes).toNat < 2 ^ MemoryShape.opcodes.width := by
    rw [hcount]
    exact Nat.lt_of_le_of_lt h (by decide)
  rw [memoryShapeWord,
    BitField.get_set_of_apart (by decide) (by decide) (by decide) (by decide) (by decide),
    BitField.get_set_of_lt (by decide) (by decide) hsmall, hcount]

end State

end Device

namespace Driver
variable {d : Driver} {s : State}

/-! ### One cell -/

theorem returns_opcodeCount (hdebug : s.params.debug = true) (hcount : s.params.opcodes ≤ 0xffff) :
    ∃ count, Returns bus d.opcodeCount s count s ∧ count.toNat = s.params.opcodes := by
  have hread : s.readSource .memoryShape = (s.memoryShapeWord.toUInt64, s) :=
    State.readSource_of_debug hdebug .memoryShape rfl
  have hword : Ends bus (d.read .memoryShape) s s.memoryShapeWord s := by
    rw [ends_read, hread]
    exact ⟨(UInt32.toUInt32_toUInt64 _).symm, rfl⟩
  refine ⟨_, ?_, State.opcodes_memoryShapeWord hcount⟩
  simp only [opcodeCount, readDebug, returns_bind, returns_lift, returns_pure]
  exact ⟨_, s, ⟨(), s, (returns_ensureDebug hdebug s).mpr rfl, hword⟩, rfl, rfl⟩

/-- An engine with an opcode written to a cell. -/
def withOpcode (address opcode : UInt32) (s : State) : State :=
  { s with
    opcodeAddress := address
    program := s.program.setIfInBounds address.toNat opcode }

theorem ends_writeOpcode (hdebug : s.params.debug = true) (address opcode : UInt32) :
    Ends bus (d.writeOpcode address opcode) s () (withOpcode address opcode s) := by
  have haddress : s.writeSink .opcodeAddress address.toUInt64 = { s with opcodeAddress := address } := by
    simp only [State.writeSink, hdebug, if_true, State.writeDebug, UInt32.toUInt32_toUInt64]
  have hopcode : ({ s with opcodeAddress := address } : State).writeSink .opcode opcode.toUInt64 =
      withOpcode address opcode s := by
    simp only [State.writeSink, hdebug, if_true, State.writeDebug, UInt32.toUInt32_toUInt64,
      withOpcode]
  simp only [writeOpcode, ends_bind, ends_write, haddress]
  exact ⟨(), _, rfl, hopcode.symm⟩

/-! ### A whole patch -/

/-- A list with the elements from an index on replaced. -/
def splice (program : List UInt32) (address : Nat) (opcodes : List UInt32) : List UInt32 :=
  program.take address ++ opcodes ++ program.drop (address + opcodes.length)

theorem splice_nil (program : List UInt32) (address : Nat) : splice program address [] = program := by
  rw [splice, List.append_nil, List.length_nil, Nat.add_zero, List.take_append_drop]

/-- Replacing the first of the elements leaves the others to be replaced. -/
theorem splice_cons {program : List UInt32} {address : Nat} (h : address < program.length)
    (opcode : UInt32) (opcodes : List UInt32) :
    splice (program.set address opcode) (address + 1) opcodes =
      splice program address (opcode :: opcodes) := by
  have hbefore : (program.set address opcode).take (address + 1) = program.take address ++ [opcode] := by
    rw [List.take_add_one, List.getElem?_set_self h, List.take_set_of_le (Nat.le_refl _)]
    rfl
  have hafter : (program.set address opcode).drop (address + 1 + opcodes.length) =
      program.drop (address + (opcode :: opcodes).length) := by
    rw [List.drop_set_of_lt (by omega), List.length_cons]
    congr 1
    omega
  rw [splice, hbefore, hafter, splice, List.append_assoc (program.take address)]
  rfl

/-- The cells of a patch are written one after the other, from its `n`th on. -/
theorem returns_patch (hdebug : s.params.debug = true) (hsize : s.program.size < 2 ^ 32)
    (address : UInt32) (opcodes : List UInt32) (n : Nat)
    (hfits : address.toNat + n + opcodes.length ≤ s.program.size) :
    ∃ t, Returns bus ((opcodes.zipIdx n).forM fun (opcode, i) =>
          (liftM (d.writeOpcode (address + UInt32.ofNat i) opcode) : Operation Unit)) s () t ∧
      t = { s with program := t.program, opcodeAddress := t.opcodeAddress } ∧
      t.program.toList = splice s.program.toList (address.toNat + n) opcodes := by
  induction opcodes generalizing s n with
  | nil => exact ⟨s, (returns_forM_nil _ _ _).mpr rfl, rfl, (splice_nil _ _).symm⟩
  | cons opcode rest ih =>
    rw [List.length_cons] at hfits
    have haddress : (address + UInt32.ofNat n).toNat = address.toNat + n := by
      rw [UInt32.toNat_add, UInt32.toNat_ofNat', Nat.mod_eq_of_lt (a := n) (by omega)]
      exact Nat.mod_eq_of_lt (by omega)
    have hwrite := ends_writeOpcode (d := d) hdebug (address + UInt32.ofNat n) opcode
    have hcells : (withOpcode (address + UInt32.ofNat n) opcode s).program.toList =
        s.program.toList.set (address.toNat + n) opcode := by
      rw [withOpcode, haddress, Array.toList_setIfInBounds]
    have hlength : (withOpcode (address + UInt32.ofNat n) opcode s).program.size = s.program.size :=
      Array.size_setIfInBounds
    obtain ⟨t, hrest, ht, hprogram⟩ := ih (s := withOpcode (address + UInt32.ofNat n) opcode s) hdebug
      (by rwa [hlength]) (n + 1) (by rw [hlength]; omega)
    refine ⟨t, ?_, ht, ?_⟩
    · rw [List.zipIdx_cons, returns_forM_cons]
      exact ⟨_, (returns_lift _ _ _ _).mpr hwrite, hrest⟩
    · rw [hprogram, hcells, ← Nat.add_assoc]
      exact splice_cons (by rw [Array.length_toList]; omega) opcode rest

/-! ### As a whole, or not at all -/

/-- The cells are counted before anything is written. -/
theorem ends_patchMicrocode (hdebug : s.params.debug = true) (hcount : s.params.opcodes ≤ 0xffff)
    (address : UInt32) (opcodes : List UInt32) (t : State) (result : Except DriverError Unit) :
    Ends bus (d.patchMicrocode address opcodes).run s result t ↔
      Ends bus
        (if address.toNat + opcodes.length > s.params.opcodes then throw .opcodeAddressInvalid
          else do
            notify (.patching opcodes.length address)
            opcodes.zipIdx.forM fun (opcode, i) => d.writeOpcode (address + UInt32.ofNat i) opcode :
          Operation Unit).run s result t := by
  obtain ⟨count, hreturns, hvalue⟩ := returns_opcodeCount (d := d) hdebug hcount
  rw [patchMicrocode, ((returns_ensureDebug hdebug s).mpr rfl).ends_run_bind,
    hreturns.ends_run_bind, hvalue]

/-- A patch that does not fit stores nothing. -/
theorem not_makes_patchMicrocode (hdebug : s.params.debug = true)
    (hcount : s.params.opcodes ≤ 0xffff) {address : UInt32} {opcodes : List UInt32}
    (hlarge : address.toNat + opcodes.length > s.params.opcodes) :
    ¬ Makes bus Access.IsStore (d.patchMicrocode address opcodes).run s := by
  have hensure : Operation.Avoids bus Access.IsStore d.ensureDebug :=
    avoids_ensureDebug fun _ _ _ => id
  have hread : Operation.Avoids bus Access.IsStore d.opcodeCount :=
    (hensure.bind fun _ => .lift (avoids_read (fun _ _ _ => id) _)).bind fun _ => .pure _
  refine hensure.not_makes_bind fun _ t ht => hread.not_makes_bind fun count u hu => ?_
  obtain rfl := (returns_ensureDebug hdebug t).mp ht
  obtain ⟨count', hreturns, hvalue⟩ := returns_opcodeCount (d := d) hdebug hcount
  obtain ⟨rfl, rfl⟩ := hreturns.unique hu
  rw [if_pos (hvalue ▸ hlarge)]
  exact Operation.Avoids.throw _ _

/-- **A patch is written as a whole, or not at all.** On a debug engine whose opcodes can be counted
in sixteen bits, the patch is refused if and only if it reaches past the instruction memory, from
any address and without wrapping around. Nothing is stored then, and nothing changed. Otherwise the
memory is the old one with the patch in the place of as many opcodes, and nothing else has changed
but the address that was written last. -/
theorem patchMicrocode_splices (d : Driver) (s : State) (address : UInt32) (opcodes : List UInt32)
    (hs : Reachable s) (hdebug : s.params.debug = true) (hcount : s.params.opcodes ≤ 0xffff) :
    ((∃ t, Throws bus (d.patchMicrocode address opcodes) s .opcodeAddressInvalid t) ↔
      address.toNat + opcodes.length > s.params.opcodes) ∧
    (address.toNat + opcodes.length > s.params.opcodes →
      Throws bus (d.patchMicrocode address opcodes) s .opcodeAddressInvalid s ∧
        ∀ access ∈ (d.patchMicrocode address opcodes).run.accesses bus s, ¬ access.IsStore) ∧
    (¬ address.toNat + opcodes.length > s.params.opcodes →
      ∃ t, Returns bus (d.patchMicrocode address opcodes) s () t ∧
        t.program.toList = s.program.toList.take address.toNat ++ opcodes ++
          s.program.toList.drop (address.toNat + opcodes.length) ∧
        t = { s with program := t.program, opcodeAddress := t.opcodeAddress }) := by
  have hrefused (hlarge : address.toNat + opcodes.length > s.params.opcodes) :
      Throws bus (d.patchMicrocode address opcodes) s .opcodeAddressInvalid s := by
    rw [Throws, ends_patchMicrocode hdebug hcount, if_pos hlarge]
    exact (throws_throw _ _ _ _).mpr ⟨rfl, rfl⟩
  have hwritten (hfits : ¬ address.toNat + opcodes.length > s.params.opcodes) :
      ∃ t, Returns bus (d.patchMicrocode address opcodes) s () t ∧
        t.program.toList = splice s.program.toList address.toNat opcodes ∧
        t = { s with program := t.program, opcodeAddress := t.opcodeAddress } := by
    have hsize := hs.program_size
    obtain ⟨t, hpatch, ht, hprogram⟩ := returns_patch (d := d) hdebug (by omega) address opcodes 0
      (by omega)
    refine ⟨t, ?_, hprogram, ht⟩
    rw [Returns, ends_patchMicrocode hdebug hcount, if_neg hfits,
      (returns_notify (.patching opcodes.length address) s).ends_run_bind]
    exact hpatch
  refine ⟨⟨fun ⟨t, hthrows⟩ => ?_, fun hlarge => ⟨s, hrefused hlarge⟩⟩,
    fun hlarge => ⟨hrefused hlarge, fun access haccess hstore => ?_⟩, hwritten⟩
  · by_contra hfits
    obtain ⟨u, hreturns, -⟩ := hwritten hfits
    exact hreturns.not_throws hthrows
  · exact not_makes_patchMicrocode hdebug hcount hlarge ⟨access, haccess, hstore⟩

/-- Two opcodes at the end of a memory of four, and three that do not fit there. -/
theorem patchMicrocode_splices_end :
    (∃ t, Returns bus ((⟨{}, 10⟩ : Driver).patchMicrocode 2 [7, 8])
        (.powerUp { opcodes := 4 } fun _ => 0) () t ∧ t.program.toList = [0, 0, 7, 8]) ∧
      Throws bus ((⟨{}, 10⟩ : Driver).patchMicrocode 2 [7, 8, 9])
        (.powerUp { opcodes := 4 } fun _ => 0) .opcodeAddressInvalid
        (.powerUp { opcodes := 4 } fun _ => 0) := by
  obtain ⟨-, -, hfits⟩ := patchMicrocode_splices ⟨{}, 10⟩ (.powerUp { opcodes := 4 } fun _ => 0) 2
    [7, 8] (.powerUp _ _) rfl (by decide)
  obtain ⟨-, hlarge, -⟩ := patchMicrocode_splices ⟨{}, 10⟩ (.powerUp { opcodes := 4 } fun _ => 0) 2
    [7, 8, 9] (.powerUp _ _) rfl (by decide)
  obtain ⟨t, hreturns, hprogram, -⟩ := hfits (by decide)
  exact ⟨⟨t, hreturns, hprogram⟩, (hlarge (by decide)).1⟩

end Driver

end CurveEngine
