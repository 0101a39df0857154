import CurveEngine.Driver.Number

/-! Countermeasures against side channels: blinding of the scalar, shuffling, re-masking
of the denominator, and the toggles of a debug engine. -/
namespace CurveEngine.Driver
open Register Procedure

def disableBlinding (d : Driver) : Operation Unit := d.writeSettled .blinding 0

/-- Blinds the scalars to come by random numbers of `bits` bits; zero bits turn blinding
off. -/
def enableBlinding (d : Driver) (bits : UInt32) : Operation Unit :=
  if bits = 0 then d.disableBlinding
  else do
    let size ← d.size
    if bits.toNat ≥ size then throw .blindingSizeInvalid
    else d.writeSettled .blinding (Blinding.bits.set bits (Blinding.enable.put true 0))

def enableShuffling (d : Driver) : Operation Unit := do
  let word ← d.capabilities
  if Capabilities.shuffle.test word then d.writeSettled .shuffle 1
  else throw .shuffleNotSupported

/-- Turns shuffling off. A production engine refuses, which is the error returned. -/
def disableShuffling (d : Driver) : Operation Unit := d.writeSettled .shuffle 0

/-- The longest re-masking period. -/
def longestRemask : UInt32 := 0x10000

/-- Re-masks the denominator every `period` ladder steps. -/
def enableZremask (d : Driver) (period : UInt32) : Operation Unit :=
  if period = 0 ∨ period > longestRemask then throw .zremaskPeriodInvalid
  else
    d.writeSettled .zremask
      (Zremask.periodMinusOne.set (period - 1) (Zremask.enable.put true 0))

def disableZremask (d : Driver) : Operation Unit := d.writeSettled .zremask 0

/-! ### Toggles of a debug engine -/

def toggle (d : Driver) (r : Sink) (enable : Bool) : Operation Unit := do
  d.ensureDebug
  d.writeSettled r (if enable then 1 else 0)

def setXyShuffle (d : Driver) (enable : Bool) : Operation Unit := d.toggle .xyShuffle enable

def setAxiMask (d : Driver) (enable : Bool) : Operation Unit := d.toggle .axiMask enable

/-- Whether results are masked by the token. A multiplication takes the token off in any
case, so its result is right only while this is on. -/
def setTokenMask (d : Driver) (enable : Bool) : Operation Unit := d.toggle .tokenMask enable

end CurveEngine.Driver
