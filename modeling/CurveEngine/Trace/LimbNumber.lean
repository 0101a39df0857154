import CurveEngine.Bytes
import CurveEngine.Text.Hex

/-! Large numbers as limbs.

A number read from Fp memory is a list of 32-bit words, least significant first, each
of which contributes `limbWidth` bits. To turn it into bytes the limbs are poured into
a 64-bit buffer from which whole bytes are taken as soon as they are there; fewer than
eight bits are left when the next limb is poured in. -/
namespace CurveEngine

structure LimbNumber where
  limbWidth : Nat
  /-- The limbs, least significant first. -/
  limbs : List UInt32
  deriving Repr, DecidableEq

namespace LimbNumber

/-- The bits of a limb that count. -/
def limbMask (limbWidth : Nat) : UInt32 := UInt32.ofNat ((1 <<< min limbWidth 32) - 1)

/-- Takes `count` bytes off a buffer, the lowest first. -/
def takeBytes : Nat → UInt64 → List UInt8 × UInt64
  | 0, buffer => ([], buffer)
  | count + 1, buffer =>
    let (bytes, rest) := takeBytes count (buffer >>> 8)
    (buffer.toUInt8 :: bytes, rest)

/-- The bytes of the limbs, lowest first, when `held` bits are still in the buffer. The
last byte may be incomplete. -/
def pour (limbWidth : Nat) : List UInt32 → UInt64 → Nat → List UInt8
  | [], buffer, held => if held > 0 then [buffer.toUInt8] else []
  | limb :: rest, buffer, held =>
    let part := (limb &&& limbMask limbWidth).toUInt64 <<< UInt64.ofNat held
    let (bytes, buffer) := takeBytes ((held + limbWidth) / 8) (buffer ||| part)
    bytes ++ pour limbWidth rest buffer ((held + limbWidth) % 8)

/-- The number as exactly `len` bytes: higher bytes are dropped, missing ones are
zero. -/
def toBytes (n : LimbNumber) (len : Nat) : Bytes :=
  let low := pour n.limbWidth n.limbs 0 0
  (low.take len ++ List.replicate (len - low.length) 0).reverse

/-- The bytes that hold every bit of every limb. -/
def byteLength (n : LimbNumber) : Nat := (n.limbs.length * n.limbWidth + 7) / 8

def text (n : LimbNumber) : String := "0x" ++ Hex.bytes (n.toBytes n.byteLength)

@[simp] theorem length_toBytes (n : LimbNumber) (len : Nat) : (n.toBytes len).length = len := by
  simp only [toBytes, List.length_reverse, List.length_append, List.length_take,
    List.length_replicate]
  omega

end LimbNumber

end CurveEngine
