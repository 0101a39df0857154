import CurveEngine.Bytes
import CurveEngine.Device.WordField
import CurveEngine.Register.Layout
import CurveEngine.Register.Slot

/-! The random number generator of the device.

Randomness comes from `entropy`, an arbitrary stream of bytes read from position
`drawn` on: what holds of the device for every stream holds whatever the generator
yields. `draw` takes a number of a given width for a channel, and counts it; under
bypass every byte is the same constant and the stream is not read. Raw bits are kept in
a FIFO that is filled at once. -/
namespace CurveEngine.Device
open Register

/-- One value for each channel. -/
structure PerChannel (α : Type) where
  axi : α
  efp : α
  crv : α
  shf : α
  deriving Repr, DecidableEq

namespace PerChannel
variable {α : Type}

def all (a : α) : PerChannel α := ⟨a, a, a, a⟩

def get (v : PerChannel α) : Channel → α
  | .axi => v.axi
  | .efp => v.efp
  | .crv => v.crv
  | .shf => v.shf

def modify (f : α → α) (channel : Channel) (v : PerChannel α) : PerChannel α :=
  match channel with
  | .axi => { v with axi := f v.axi }
  | .efp => { v with efp := f v.efp }
  | .crv => { v with crv := f v.crv }
  | .shf => { v with shf := f v.shf }

end PerChannel

structure Trng where
  entropy : Nat → UInt8
  /-- Bytes of the stream that have been used. -/
  drawn : Nat
  config : UInt32
  postproc : Bool
  /-- The bit that all random numbers are made of, under bypass. -/
  bypass : Option Bool
  rawReadable : Bool
  rawFifo : Array Bool
  rawBit : Bool
  /-- Random numbers waiting in each client's FIFO. -/
  waiting : PerChannel Nat
  /-- Bytes served to each client. -/
  served : PerChannel UInt32
  starved : PerChannel UInt32
  starvation : UInt32

namespace Trng

/-- Capacity of each client's FIFO. -/
def depths : PerChannel Nat := ⟨64, 32, 32, 16⟩

/-- Fills the raw FIFO with one bit of each of the next `size` bytes of the stream. -/
def fillRaw (size : Nat) (t : Trng) : Trng :=
  { t with
    rawFifo := (Array.range size).map fun i => t.entropy (t.drawn + i) &&& 1 != 0
    drawn := t.drawn + size }

/-- The generator at power-up, with its raw FIFO full. -/
def powerUp (entropy : Nat → UInt8) (rawSize : Nat) : Trng :=
  fillRaw rawSize
    { entropy
      drawn := 0
      config := 0
      postproc := false
      bypass := none
      rawReadable := true
      rawFifo := #[]
      rawBit := false
      waiting := depths
      served := .all 0
      starved := .all 0
      starvation := 0 }

/-- The next `count` random bytes. -/
def bytes (count : Nat) (t : Trng) : Bytes × Trng :=
  match t.bypass with
  | some bit => (List.replicate count (if bit then 0xff else 0), t)
  | none =>
    ((List.range count).map fun i => t.entropy (t.drawn + i),
     { t with drawn := t.drawn + count })

/-- Clears the bits of the leading byte that a number of `bits` bits does not have. -/
def trim (bits : Nat) : Bytes → Bytes
  | [] => []
  | lead :: rest =>
    (lead &&& UInt8.ofNat (0xff >>> ((rest.length + 1) * 8 - bits))) :: rest

/-- The bytes that a number of `bits` bits is drawn from, counted in words of 32 bits. -/
def byteCount (bits : Nat) : Nat := ((UInt32.ofNat bits + 7) / 8).toNat

/-- A random number of `bits` bits for a channel. -/
def draw (bits : Nat) (channel : Channel) (t : Trng) : Nat × Trng :=
  let count := byteCount bits
  let (drawn, t) := t.bytes count
  ((trim bits drawn).toNat,
   { t with
     served := t.served.modify (· + UInt32.ofNat count) channel
     waiting := t.waiting.modify (· - 1) channel })

/-- A random number for a channel, below `p` unless `p` is zero. -/
def drawBelow (p bits : Nat) (channel : Channel) (t : Trng) : Nat × Trng :=
  let (value, t) := t.draw bits channel
  (if p = 0 then value else value % p, t)

/-- Fills every client's FIFO. -/
def refill (t : Trng) : Trng := { t with waiting := depths }

/-- Applies a control word: it sets every mode and then performs the actions it names. -/
def control (word : UInt32) (t : Trng) : Trng :=
  let rawReadable := !TrngField.rawReadOff.isSet word
  let rawFifo := if TrngField.resetRawFifo.isSet word then #[] else t.rawFifo
  { t with
    postproc := !TrngField.postprocOff.isSet word
    rawReadable
    bypass :=
      if TrngField.bypass.isSet word then some (TrngField.bypassValue.isSet word) else none
    rawFifo
    waiting := if TrngField.resetNumberFifos.isSet word then .all 0 else t.waiting
    rawBit :=
      if TrngField.readRaw.isSet word && rawReadable then
        rawFifo.getD (TrngField.rawAddress.read word).toNat false
      else t.rawBit }

/-- The raw FIFO's status word. Reading it fills a FIFO that was not full. -/
def rawStatus (size : Nat) (t : Trng) : UInt32 × Trng :=
  let count := t.rawFifo.size
  let word :=
    RawFifoStatus.writePointer.set (UInt32.ofNat count) <|
    RawFifoStatus.full.put (decide (size ≤ count)) 0
  (word, if count < size then t.fillRaw size else t)

/-- Clears the counters of every channel; the starvation counter stays. -/
def resetCounters (t : Trng) : Trng := { t with served := .all 0, starved := .all 0 }

end Trng

end CurveEngine.Device
