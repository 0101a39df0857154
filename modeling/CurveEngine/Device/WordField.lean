/-! The fields of the words that the device is given.

The device declares each field by its offset and its number of bits, and takes it out of a
word in its own way. It shares no table with a driver, which puts the words together from the
layouts of `Register`: that both mean the same bits is proved, not assumed. -/
namespace CurveEngine.Device

/-- A field of a word: how far up it begins, and how many bits it has. -/
structure WordField where
  offset : Nat
  bits : Nat
  deriving Repr, DecidableEq

namespace WordField

/-- The bits of a word that belong to the field. -/
def mask (f : WordField) : UInt32 := UInt32.ofNat ((1 <<< f.bits) - 1) <<< UInt32.ofNat f.offset

def read (f : WordField) (word : UInt32) : UInt32 := (word &&& f.mask) >>> UInt32.ofNat f.offset

def isSet (f : WordField) (word : UInt32) : Bool := word &&& f.mask != 0

end WordField

/-! ### Commands -/

namespace ControlField

def multiply : WordField := ⟨0, 1⟩
def add : WordField := ⟨1, 1⟩
def double : WordField := ⟨2, 1⟩
def check : WordField := ⟨3, 1⟩
def negate : WordField := ⟨4, 1⟩
def equal : WordField := ⟨5, 1⟩
def opposite : WordField := ⟨6, 1⟩
def readToken : WordField := ⟨12, 1⟩
def writeNumber : WordField := ⟨16, 1⟩
def readNumber : WordField := ⟨17, 1⟩
def writeScalar : WordField := ⟨18, 1⟩
def address : WordField := ⟨20, 12⟩

end ControlField

/-! ### Switches -/

namespace EnableField

/-- The bit of a register that only turns something on or off. -/
def enable : WordField := ⟨0, 1⟩

end EnableField

/-! ### Countermeasures -/

namespace BlindingField

def enable : WordField := ⟨0, 1⟩
def bits : WordField := ⟨4, 28⟩

end BlindingField

namespace ZremaskField

def enable : WordField := ⟨0, 1⟩
def period : WordField := ⟨16, 16⟩

end ZremaskField

/-! ### Debug bank -/

namespace BreakpointField

def enable : WordField := ⟨0, 1⟩
def id : WordField := ⟨1, 2⟩
def address : WordField := ⟨4, 12⟩
def scalarBit : WordField := ⟨16, 12⟩
def state : WordField := ⟨28, 4⟩

end BreakpointField

namespace StepsField

def run : WordField := ⟨0, 1⟩
def count : WordField := ⟨8, 16⟩
def resume : WordField := ⟨28, 1⟩

end StepsField

namespace TrngField

def postprocOff : WordField := ⟨0, 1⟩
def resetRawFifo : WordField := ⟨1, 1⟩
def resetNumberFifos : WordField := ⟨2, 1⟩
def readRaw : WordField := ⟨4, 1⟩
def rawAddress : WordField := ⟨8, 20⟩
def rawReadOff : WordField := ⟨28, 1⟩
def bypass : WordField := ⟨29, 1⟩
def bypassValue : WordField := ⟨30, 1⟩

end TrngField

end CurveEngine.Device
