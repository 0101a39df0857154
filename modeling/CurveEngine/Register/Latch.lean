/-! The error latch.

The device collects refused accesses as bits of a latch, which the status register
shows and which the acknowledge register clears bit by bit. `HardwareError` names the
bits; a latch is the word of the bits that are set. -/
namespace CurveEngine.Register

inductive HardwareError where
  | inputNotOnCurve
  | outputNotOnCurve
  | computation
  | writeRefused
  | busyMultiplying
  | sizeRefused
  | pointOperationRefused
  | readRefused
  | blinding
  | unknownNumber
  | token
  | shuffle
  | zremask
  | notEnoughRandom
  | registerReadRefused
  deriving Repr, DecidableEq

namespace HardwareError

/-- Every error, from the lowest bit of the latch up. -/
def all : List HardwareError := [
  .inputNotOnCurve, .outputNotOnCurve, .computation, .writeRefused, .busyMultiplying,
  .sizeRefused, .pointOperationRefused, .readRefused, .blinding, .unknownNumber, .token,
  .shuffle, .zremask, .notEnoughRandom, .registerReadRefused]

/-- The latch with this error alone. -/
def mask : HardwareError → UInt32
  | .inputNotOnCurve => 0x0001
  | .outputNotOnCurve => 0x0002
  | .computation => 0x0004
  | .writeRefused => 0x0008
  | .busyMultiplying => 0x0010
  | .sizeRefused => 0x0020
  | .pointOperationRefused => 0x0040
  | .readRefused => 0x0080
  | .blinding => 0x0100
  | .unknownNumber => 0x0200
  | .token => 0x0400
  | .shuffle => 0x0800
  | .zremask => 0x1000
  | .notEnoughRandom => 0x2000
  | .registerReadRefused => 0x4000

def name : HardwareError → String
  | .inputNotOnCurve => "IN_PT_NOT_ON_CURVE"
  | .outputNotOnCurve => "OUT_PT_NOT_ON_CURVE"
  | .computation => "COMP"
  | .writeRefused => "WREG_FBD"
  | .busyMultiplying => "KP_FBD"
  | .sizeRefused => "NNDYN"
  | .pointOperationRefused => "POP_FBD"
  | .readRefused => "RDNB_FBD"
  | .blinding => "BLN"
  | .unknownNumber => "UNKNOWN_REG"
  | .token => "TOKEN"
  | .shuffle => "SHUFFLE"
  | .zremask => "ZREMASK"
  | .notEnoughRandom => "NOT_ENOUGH_RANDOM_WK"
  | .registerReadRefused => "RREG_FBD"

end HardwareError

namespace Latch

/-- The bits of the latch that have a name. -/
def known : UInt32 := 0x7fff

/-- A word cut down to the named bits. -/
def ofWord (word : UInt32) : UInt32 := word &&& known

def contains (latch : UInt32) (error : HardwareError) : Bool := latch &&& error.mask != 0

/-- The errors of a latch, from the lowest bit up. -/
def errors (latch : UInt32) : List HardwareError := HardwareError.all.filter (contains latch)

/-- The acknowledge word that clears exactly these bits. -/
def ackWord (latch : UInt32) : UInt32 := (latch &&& 0xffff) <<< 16

/-- The named bits that an acknowledge word clears. -/
def ofAckWord (word : UInt32) : UInt32 := ofWord (word >>> 16)

end Latch

end CurveEngine.Register
