import CurveEngine.Procedure
import CurveEngine.Register.Slot

/-! Register accesses of the driver, and polling.

A `Driver` is a word width and a bound on polling. Every register access has that
width: with `narrow` words a register is loaded and stored as a word of 32 bits; with
`wide` words it is a double word, which the interconnect delivers with its halves
swapped. Each access is reported by a notice.

A poll repeats a check until it succeeds. It gives up after `pollLimit` checks; without
a limit it goes on for as long as there is fuel. -/
namespace CurveEngine
open Register Procedure

inductive WordWidth where
  | narrow
  | wide
  deriving Repr, DecidableEq

namespace WordWidth

/-- Bytes in a big-number word. -/
def wordBytes : WordWidth → Nat
  | .narrow => 4
  | .wide => 8

end WordWidth

/-- What is chosen when a driver is bound to an engine. -/
structure Config where
  width : WordWidth := .narrow
  /-- Checks after which a poll gives up, if it ever does. -/
  pollLimit : Option Nat := none
  deriving Repr, DecidableEq

structure Driver where
  config : Config
  /-- Checks, or steps of a trace, that a loop without a limit is given. -/
  fuel : Nat
  deriving Repr, DecidableEq

namespace Driver

/-- Bytes in a big-number word. -/
def wordBytes (d : Driver) : Nat := d.config.width.wordBytes

/-- Loads the full word of a register. -/
def readWord (d : Driver) (r : Source) : Procedure UInt64 := do
  let value ← match d.config.width with
    | .narrow => do
      let value ← loadWord .word r.offset
      pure (lowHalf value)
    | .wide => do
      let value ← loadWord .doubleWord r.offset
      pure (swapHalves value)
  notify (.registerRead r.offset value)
  pure value

/-- Stores the full word of a register; narrow words keep its low half. -/
def writeWord (d : Driver) (r : Sink) (value : UInt64) : Procedure Unit := do
  notify (.registerWrite r.offset value)
  match d.config.width with
  | .narrow => storeWord .word r.offset (lowHalf value)
  | .wide => storeWord .doubleWord r.offset (swapHalves value)

/-- Reads a register of 32 bits. -/
def read (d : Driver) (r : Source) : Procedure UInt32 := do
  let value ← d.readWord r
  pure value.toUInt32

/-- Writes a register of 32 bits. -/
def write (d : Driver) (r : Sink) (word : UInt32) : Procedure Unit := d.writeWord r word.toUInt64

/-! ### Polling -/

/-- Checks up to `count` times, and does `exhausted` if no check succeeds. -/
def poll (exhausted : Operation Unit) (check : Procedure Bool) : Nat → Operation Unit
  | 0 => exhausted
  | count + 1 => do
    let ready ← check
    if ready then pure () else poll exhausted check count

/-- Checks until the check succeeds. -/
def pollUntil (d : Driver) (check : Procedure Bool) : Operation Unit :=
  match d.config.pollLimit with
  | some limit => poll (throw .unresponsive) check limit
  | none => poll (ExceptT.lift .spent) check d.fuel

end Driver

end CurveEngine
