/-! Hexadecimal text.

Register offsets, register words and big numbers are all shown in lower-case
hexadecimal after `0x`. `literal` writes the fewest digits that show the number;
`padded` writes at least a given number of digits; `byte` and `bytes` write two
digits a byte and no mark in front. -/
namespace CurveEngine.Hex

/-- The hexadecimal digits of a number, most significant first, `0` for zero. -/
def digits (n : Nat) : List Char := Nat.toDigits 16 n

def literal (n : Nat) : String := "0x" ++ String.ofList (digits n)

/-- At least `width` digits: zeros are written in front of a shorter number. -/
def padded (width n : Nat) : String :=
  let ds := digits n
  "0x" ++ String.ofList (List.replicate (width - ds.length) '0' ++ ds)

def byte (b : UInt8) : String :=
  String.ofList [Nat.digitChar (b.toNat / 16), Nat.digitChar (b.toNat % 16)]

def bytes (bs : List UInt8) : String := bs.foldl (fun text b => text ++ byte b) ""

end CurveEngine.Hex
