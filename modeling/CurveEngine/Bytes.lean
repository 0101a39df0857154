/-! Byte strings as big-endian numbers, and the words that carry them.

Operands and results are byte strings with the most significant byte first. The
engine moves them in words of four or eight bytes, the least significant word
first: `toWords` cuts a byte string into the words to send, and `fill` puts received
words into a buffer, leaving what no word reaches as it was. -/
namespace CurveEngine

/-- A byte string, most significant byte first. -/
abbrev Bytes := List UInt8

namespace Bytes

/-- The number that a byte string writes in base 256. -/
def toNat (bytes : Bytes) : Nat := bytes.foldl (fun n b => n * 256 + b.toNat) 0

/-- Bitwise exclusive or, byte by byte, as long as the shorter operand. -/
def xor (a b : Bytes) : Bytes := List.zipWith (fun x y => x ^^^ y) a b

/-- The number of words of `wordBytes` bytes that hold `len` bytes. -/
def wordsFor (len wordBytes : Nat) : Nat := (len + wordBytes - 1) / wordBytes

/-- The word whose bytes, least significant first, are the given ones. -/
def assemble (lowFirst : List UInt8) : UInt64 :=
  lowFirst.foldr (fun b word => (word <<< 8) ||| b.toUInt64) 0

/-- The bytes of a word, least significant first. -/
def split (wordBytes : Nat) (word : UInt64) : List UInt8 :=
  (List.range wordBytes).map fun j => (word >>> UInt64.ofNat (8 * j)).toUInt8

/-- The first `count` words of bytes given least significant first, zero beyond them. -/
def chunks (wordBytes : Nat) : Nat → List UInt8 → List UInt64
  | 0, _ => []
  | count + 1, lowFirst =>
    assemble (lowFirst.take wordBytes) :: chunks wordBytes count (lowFirst.drop wordBytes)

/-- A byte string as exactly `count` words, least significant word first. -/
def toWords (wordBytes count : Nat) (bytes : Bytes) : List UInt64 :=
  chunks wordBytes count bytes.reverse

/-- A buffer after words have been received into it from its least significant end.
Bytes beyond the buffer are dropped; bytes that no word reaches stay. -/
def fill (wordBytes : Nat) (words : List UInt64) (buffer : Bytes) : Bytes :=
  let received := words.flatMap (split wordBytes)
  (received.take buffer.length ++ buffer.reverse.drop received.length).reverse

@[simp] theorem length_chunks (wordBytes count : Nat) (lowFirst : List UInt8) :
    (chunks wordBytes count lowFirst).length = count := by
  induction count generalizing lowFirst with
  | zero => rfl
  | succ count ih => simp [chunks, ih]

@[simp] theorem length_toWords (wordBytes count : Nat) (bytes : Bytes) :
    (toWords wordBytes count bytes).length = count := length_chunks ..

@[simp] theorem length_fill (wordBytes : Nat) (words : List UInt64) (buffer : Bytes) :
    (fill wordBytes words buffer).length = buffer.length := by
  simp only [fill, List.length_reverse, List.length_append, List.length_take, List.length_drop]
  omega

end Bytes

end CurveEngine
