import CurveEngine.Driver.Access
import CurveEngine.Register.Layout

/-! The protocol around an access: wait until the engine is idle, and see whether it has
latched an error.

`settle` waits and then reads the error latch; a latch that is not empty is reported,
acknowledged bit for bit and returned as the error. `writeSettled` puts this around a
register write. -/
namespace CurveEngine.Driver
open Register Procedure

/-- The status word. -/
def status (d : Driver) : Procedure UInt32 := d.read .status

def isIdle (d : Driver) : Procedure Bool := do
  let word ← d.status
  pure (!Status.busy.test word)

def waitIdle (d : Driver) : Operation Unit := d.pollUntil d.isIdle

def hasEnoughRandom (d : Driver) : Procedure Bool := do
  let word ← d.status
  pure (Status.enoughRandom.test word)

/-- Waits until the engine can mask a scalar. A scalar written before that is dropped. -/
def waitEnoughRandom (d : Driver) : Operation Unit := d.pollUntil d.hasEnoughRandom

/-- Reports latched errors, one notice each, and the bits among them without a name. -/
def report (latched : UInt32) : Operation Unit := do
  (Latch.errors (Latch.ofWord latched)).forM fun error => notify (.latched error)
  if Latch.ofWord latched = latched then pure ()
  else notify (.latchedUnnamed (latched &&& ~~~(Latch.ofWord latched)))

/-- Reads the error latch. Whatever is in it is acknowledged and returned as an error. -/
def checkErrors (d : Driver) : Operation Unit := do
  let word ← d.status
  let latched := Status.errors.get word
  if latched = 0 then pure ()
  else do
    report latched
    d.write .errorAck (Latch.ackWord latched)
    throw (.hardware latched)

/-- Waits until the engine is idle and checks for errors. -/
def settle (d : Driver) : Operation Unit := do
  d.waitIdle
  d.checkErrors

/-- Writes a register of an idle engine, and settles. -/
def writeSettled (d : Driver) (r : Sink) (word : UInt32) : Operation Unit := do
  d.waitIdle
  d.write r word
  d.settle

/-! ### What the engine is -/

def capabilities (d : Driver) : Procedure UInt32 := d.read .capabilities

/-- Whether the engine was synthesized for debugging. -/
def isDebug (d : Driver) : Procedure Bool := do
  let word ← d.capabilities
  pure (Capabilities.debug.test word)

def ensureDebug (d : Driver) : Operation Unit := do
  let debug ← d.isDebug
  if debug then pure () else throw .debugOnly

/-- The version of the hardware, major and minor. -/
def version (d : Driver) : Procedure (UInt32 × UInt32) := do
  let word ← d.read .version
  pure (Version.major.get word, Version.minor.get word)

end CurveEngine.Driver
