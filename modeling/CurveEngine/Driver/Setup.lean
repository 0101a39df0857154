import CurveEngine.Driver.Entropy
import CurveEngine.Driver.Number

/-! Bringing an engine into service: reset, prime size, curve.

The prime size can only be changed on an engine that allows it; elsewhere a request that
is not too large is granted without a write. -/
namespace CurveEngine.Driver
open Register Procedure

/-- Resets the engine and waits until it is initialized. -/
def reset (d : Driver) : Operation Unit := do
  notify .softReset
  d.write .softReset 1
  d.waitIdle

/-- Turns on the post-processing of random numbers, which a debug engine starts
without. -/
def configureEntropy (d : Driver) : Operation Unit := do
  let debug ← d.isDebug
  if debug then d.resetTrngModes else pure ()

/-- Resets the engine and gives it its initial configuration. -/
def startUp (d : Driver) : Operation Unit := do
  d.reset
  d.configureEntropy

/-- Sets the prime size in bits. -/
def setSize (d : Driver) (size : Nat) : Operation Unit := do
  let word ← d.capabilities
  if size > (Capabilities.maxSize.get word).toNat then throw .sizeTooLarge
  else if Capabilities.dynamicSize.test word then
    d.writeSettled .primeSize (UInt32.ofNat size)
  else pure ()

/-- The prime size of a curve, that of the longer of `p` and `q`, in the arithmetic of words
of 32 bits. -/
def curveSize (p q : Bytes) : Nat := (8 * UInt32.ofNat (max p.length q.length)).toNat

/-- Loads a curve and the order of its subgroup, after the prime size that they need. -/
def setCurve (d : Driver) (a b p q : Bytes) : Operation Unit := do
  let size := curveSize p q
  notify (.curveSet size)
  d.setSize size
  d.writeNumber p (.number .p)
  d.writeNumber a (.number .a)
  d.writeNumber b (.number .b)
  d.writeNumber q (.number .q)

/-- The largest size that the small scalar register holds. -/
def smallScalarMax : UInt32 := 0xffff

/-- Restricts the next multiplication to the low bits of its scalar. -/
def limitScalar (d : Driver) (bits : UInt32) : Operation Unit :=
  if bits = 0 ∨ bits > smallScalarMax then throw .smallScalarSizeInvalid
  else d.writeSettled .smallScalar bits

/-- Enables the completion interrupt. The driver itself polls all the same. -/
def enableIrq (d : Driver) : Operation Unit := d.writeSettled .irq 1

end CurveEngine.Driver
