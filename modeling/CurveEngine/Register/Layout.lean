import CurveEngine.MachineState
import CurveEngine.Register.BitField

/-! The bit layouts of the engine's registers.

Each register's fields are constants in the register's own namespace. The driver puts
together and takes apart every word by them, and the device the words that it shows; the
words that it is given it decodes by fields of its own (`Device.WordField`). `Layout` lists
the fields of a register under the names its data sheet gives them, so that a word can be
shown field by field and changed by field name. -/
namespace CurveEngine.Register
open BitField (bit span)

/-! ### Status -/

namespace Status

def busy := bit 0
def multiplying := bit 4
def montgomery := bit 5
def pointOperation := bit 6
def transferring := bit 7
def initializing := bit 8
def resizing := bit 9
def enoughRandom := bit 10
def yes := bit 11
def r0Null := bit 12
def r1Null := bit 13
def tokenPending := bit 14
/-- The latched errors. -/
def errors := span 31 16

end Status

namespace Capabilities

def debug := bit 0
def shuffle := bit 4
def dynamicSize := bit 8
def wideWords := bit 9
def maxSize := span 31 12

end Capabilities

namespace Version

def major := span 31 16
def minor := span 15 0

end Version

/-! ### Countermeasures -/

namespace Blinding

def enable := bit 0
def bits := span 31 4

end Blinding

namespace Zremask

def enable := bit 0
def periodMinusOne := span 31 16

end Zremask

/-! ### Debug bank -/

namespace Breakpoint

def enable := bit 0
def id := span 2 1
def address := span 15 4
def scalarBit := span 27 16
def state := span 31 28

end Breakpoint

namespace Steps

def run := bit 0
def count := span 23 8
def resume := bit 28

end Steps

namespace DebugStatus

def halted := bit 0
def breakpoint := span 2 1
def atBreakpoint := bit 3
def pc := span 15 4
def state := span 31 28

end DebugStatus

namespace LadderFlags

def r0Zero := bit 0
def r1Zero := bit 1
def kap := bit 2
def kapPrevious := bit 3
def inZaddu := bit 4
def inZaddc := bit 5
/-- Index of the scalar bit being processed. -/
def scalarBit := span 31 16

end LadderFlags

namespace TrngControl

def postprocOff := bit 0
def resetRawFifo := bit 1
def resetNumberFifos := bit 2
def readRaw := bit 4
def rawAddress := span 27 8
def rawReadOff := bit 28
def bypass := bit 29
def bypassValue := bit 30

end TrngControl

namespace TrngConfig

def debias := bit 0
def accessTime := span 19 4
def idle := span 23 20
def pseudo := bit 31

end TrngConfig

namespace RawFifoStatus

def full := bit 0
def writePointer := span 31 8

end RawFifoStatus

namespace MemoryShape

def opcodes := span 15 0
def opcodeSize := span 31 16

end MemoryShape

namespace EntropyShape

def rawSize := span 15 0
def shuffleWidth := span 31 16

end EntropyShape

/-! ### Fields by name -/

/-- What a field holds, as it is shown: a one-bit field is a truth value. -/
inductive FieldValue where
  | flag (value : Bool)
  | number (value : UInt32)
  deriving Repr, DecidableEq

/-- A field under its data sheet name. -/
structure NamedField where
  name : String
  field : BitField
  isFlag : Bool
  deriving Repr, DecidableEq

namespace NamedField

def value (f : NamedField) (word : UInt32) : FieldValue :=
  if f.isFlag then .flag (f.field.test word) else .number (f.field.get word)

/-- A flag is set by any value but zero; a number keeps the low bits that fit. -/
def assign (f : NamedField) (value word : UInt32) : UInt32 :=
  if f.isFlag then f.field.put (value != 0) word else f.field.set value word

end NamedField

/-- A register and its fields. -/
structure Layout where
  name : String
  fields : List NamedField
  deriving Repr, DecidableEq

namespace Layout

def flag (name : String) (field : BitField) : NamedField := ⟨name, field, true⟩
def number (name : String) (field : BitField) : NamedField := ⟨name, field, false⟩

def all : List Layout := [
  ⟨"Status", [
    flag "busy" Status.busy,
    flag "kp" Status.multiplying,
    flag "mty" Status.montgomery,
    flag "pop" Status.pointOperation,
    flag "r_or_w" Status.transferring,
    flag "init" Status.initializing,
    flag "nndynact" Status.resizing,
    flag "enough_rnd_wk" Status.enoughRandom,
    flag "yes" Status.yes,
    flag "r0_is_null" Status.r0Null,
    flag "r1_is_null" Status.r1Null,
    flag "token_gen" Status.tokenPending,
    number "errid" Status.errors]⟩,
  ⟨"Capabilities", [
    flag "dbg_n_prod" Capabilities.debug,
    flag "shf" Capabilities.shuffle,
    flag "nndyn" Capabilities.dynamicSize,
    flag "w64" Capabilities.wideWords,
    number "nnmax" Capabilities.maxSize]⟩,
  ⟨"HwVersion", [
    number "major" Version.major,
    number "minor" Version.minor]⟩,
  ⟨"Blinding", [
    flag "en" Blinding.enable,
    number "bits" Blinding.bits]⟩,
  ⟨"Zremask", [
    flag "en" Zremask.enable,
    number "period_minus_one" Zremask.periodMinusOne]⟩,
  ⟨"DbgBkpt", [
    flag "en" Breakpoint.enable,
    number "id" Breakpoint.id,
    number "addr" Breakpoint.address,
    number "nbbit" Breakpoint.scalarBit,
    number "state" Breakpoint.state]⟩,
  ⟨"DbgSteps", [
    flag "run_nb_op" Steps.run,
    number "nb_op" Steps.count,
    flag "resume" Steps.resume]⟩,
  ⟨"DbgStatus", [
    flag "halted" DebugStatus.halted,
    number "bkid" DebugStatus.breakpoint,
    flag "bk_hit" DebugStatus.atBreakpoint,
    number "pc" DebugStatus.pc,
    number "state" DebugStatus.state]⟩,
  ⟨"ExpFlags", [
    flag "r0z" LadderFlags.r0Zero,
    flag "r1z" LadderFlags.r1Zero,
    flag "kap" LadderFlags.kap,
    flag "kapp" LadderFlags.kapPrevious,
    flag "zu" LadderFlags.inZaddu,
    flag "zc" LadderFlags.inZaddc,
    number "jnbbit" LadderFlags.scalarBit]⟩,
  ⟨"DbgTrngCtrl", [
    flag "postproc_disable" TrngControl.postprocOff,
    flag "reset_raw_fifo" TrngControl.resetRawFifo,
    flag "reset_irn_fifos" TrngControl.resetNumberFifos,
    flag "read_raw" TrngControl.readRaw,
    number "fifo_addr" TrngControl.rawAddress,
    flag "raw_read_disable" TrngControl.rawReadOff,
    flag "bypass" TrngControl.bypass,
    flag "bypass_val" TrngControl.bypassValue]⟩,
  ⟨"DbgTrngCfg", [
    flag "debias" TrngConfig.debias,
    number "ta" TrngConfig.accessTime,
    number "idle" TrngConfig.idle,
    flag "use_pseudo" TrngConfig.pseudo]⟩,
  ⟨"DbgTrngStatus", [
    flag "full" RawFifoStatus.full,
    number "wr_ptr" RawFifoStatus.writePointer]⟩,
  ⟨"DbgCapabilities1", [
    number "nb_opcodes" MemoryShape.opcodes,
    number "opcode_size" MemoryShape.opcodeSize]⟩,
  ⟨"DbgCapabilities2", [
    number "raw_ram_size" EntropyShape.rawSize,
    number "irn_shf_width" EntropyShape.shuffleWidth]⟩]

/-- The layout of the register of that name. -/
def named? (name : String) : Option Layout := all.find? fun l => l.name == name

/-- Every field of a word, by name. -/
def values (layout : Layout) (word : UInt32) : List (String × FieldValue) :=
  layout.fields.map fun f => (f.name, f.value word)

/-- A word after the named field has been set, if the register has such a field. -/
def assign? (layout : Layout) (name : String) (value word : UInt32) : Option UInt32 :=
  (layout.fields.find? fun f => f.name == name).map fun f => f.assign value word

end Layout

/-! ### Debug status -/

/-- Where a stepped multiplication stands. -/
structure DebugSnapshot where
  halted : Bool
  /-- The breakpoint it halted on, if it did. -/
  breakpoint : Option UInt32
  /-- Address of the last opcode executed. -/
  pc : UInt32
  state : MachineState
  deriving Repr, DecidableEq

def DebugSnapshot.ofWord (word : UInt32) : DebugSnapshot where
  halted := DebugStatus.halted.test word
  breakpoint :=
    if DebugStatus.atBreakpoint.test word then some (DebugStatus.breakpoint.get word) else none
  pc := DebugStatus.pc.get word
  state := .ofCode (DebugStatus.state.get word)

end CurveEngine.Register
