import CurveEngine.Text.Hex

/-! Why a driver operation fails.

A `DriverError` is a cause: either the engine latched errors, or the driver refused an
argument or gave up. Callers receive a cause as a nonzero code: the latched bits over
`hardwareBase`, or a number of the driver's own. `ErrorCode.message` is the text for a
code, whoever made it. -/
namespace CurveEngine

/-- A nonzero word that says why an operation failed. -/
structure ErrorCode where
  word : UInt32
  nonzero : word ≠ 0
  deriving DecidableEq

namespace ErrorCode

/-- Codes from here on, up to sixteen low bits, carry latched hardware errors. -/
def hardwareBase : UInt32 := 0x00010000

def hardwareMask : UInt32 := 0xffff

def ofWord? (word : UInt32) : Option ErrorCode :=
  if h : word ≠ 0 then some ⟨word, h⟩ else none

theorem hardwareBase_or_ne_zero (bits : UInt32) : hardwareBase ||| bits ≠ 0 := by
  intro h
  have h16 := congrArg (fun w : UInt32 => w.toBitVec.getLsbD 16) h
  simp [hardwareBase] at h16

/-- The code for latched hardware errors. -/
def ofHardware (bits : UInt32) : ErrorCode :=
  ⟨hardwareBase ||| (bits &&& hardwareMask), hardwareBase_or_ne_zero _⟩

/-- The latched errors that a code carries, if it carries any. -/
def hardwareBits? (code : ErrorCode) : Option UInt32 :=
  if code.word &&& ~~~hardwareMask = hardwareBase then some (code.word &&& hardwareMask)
  else none

def message (code : ErrorCode) : String :=
  match code.hardwareBits? with
  | some bits => "IPECC hardware error (status bits " ++ Hex.padded 4 bits.toNat ++ ")"
  | none => "IPECC driver error " ++ Hex.padded 8 code.word.toNat

end ErrorCode

/-- The causes of failure. -/
inductive DriverError where
  /-- The engine latched these errors. -/
  | hardware (bits : UInt32)
  /-- A big number is larger than the prime size. -/
  | numberTooLarge
  /-- An output buffer cannot hold a number of the prime size. -/
  | bufferTooSmall
  /-- A prime size exceeds the largest one of the engine. -/
  | sizeTooLarge
  /-- A blinding size is not below the prime size. -/
  | blindingSizeInvalid
  /-- A re-masking period is zero or too long. -/
  | zremaskPeriodInvalid
  /-- The engine has no shuffling countermeasure. -/
  | shuffleNotSupported
  /-- The operation needs an engine synthesized for debugging. -/
  | debugOnly
  /-- A masked coordinate and the token differ in length. -/
  | tokenSizeMismatch
  /-- The engine did not reach the polled state within the poll limit. -/
  | unresponsive
  /-- A traced multiplication halted elsewhere than at its entry breakpoint. -/
  | unexpectedHalt
  /-- A traced multiplication did not end within the step limit. -/
  | stepLimit
  /-- There is no breakpoint of that number. -/
  | breakpointInvalid
  /-- A small scalar size is zero or too large for its register. -/
  | smallScalarSizeInvalid
  /-- A microcode patch reaches past the instruction memory. -/
  | opcodeAddressInvalid
  deriving DecidableEq, Repr

namespace DriverError

def code : DriverError → ErrorCode
  | .hardware bits => .ofHardware bits
  | .numberTooLarge => ⟨0x00020001, by decide⟩
  | .bufferTooSmall => ⟨0x00020002, by decide⟩
  | .sizeTooLarge => ⟨0x00020003, by decide⟩
  | .blindingSizeInvalid => ⟨0x00020004, by decide⟩
  | .zremaskPeriodInvalid => ⟨0x00020005, by decide⟩
  | .shuffleNotSupported => ⟨0x00020006, by decide⟩
  | .debugOnly => ⟨0x00020007, by decide⟩
  | .tokenSizeMismatch => ⟨0x00020008, by decide⟩
  | .unresponsive => ⟨0x00020009, by decide⟩
  | .unexpectedHalt => ⟨0x0002000a, by decide⟩
  | .stepLimit => ⟨0x0002000b, by decide⟩
  | .breakpointInvalid => ⟨0x0002000c, by decide⟩
  | .smallScalarSizeInvalid => ⟨0x0002000d, by decide⟩
  | .opcodeAddressInvalid => ⟨0x0002000e, by decide⟩

def message (error : DriverError) : String := error.code.message

end DriverError

end CurveEngine
