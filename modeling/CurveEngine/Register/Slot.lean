/-! The register window: which register stands at which offset.

Registers sit in 8-byte slots of a window of `windowSize` bytes. A slot holds one
register for reads and another for writes, so the two maps are separate. Offsets from
`debugBase` up belong to the debug bank, which a production engine does not have.
`label` is the name a bus log shows; most of the debug bank shares one label. -/
namespace CurveEngine

/-- A client of the engine's internal random numbers. -/
inductive Channel where
  | axi
  | efp
  | crv
  | shf
  deriving Repr, DecidableEq

namespace Register

/-- Size in bytes of the register window. -/
def windowSize : UInt32 := 0x200

/-- First offset of the debug bank. -/
def debugBase : UInt32 := 0x100

/-! ### Registers for reading -/

inductive Source where
  | status
  | readData
  | capabilities
  | primeSize
  | version
  | limbWidth
  | memoryShape
  | entropyShape
  | debugStatus
  | operationTime
  | rawFillTime
  | ladderFlags
  | rawFifoStatus
  | rawBit
  | limb
  | waiting (channel : Channel)
  | limbReady
  | starvation
  | served (channel : Channel)
  | starved (channel : Channel)
  deriving Repr, DecidableEq

namespace Source

def offset : Source → UInt32
  | .status => 0x000
  | .readData => 0x008
  | .capabilities => 0x010
  | .primeSize => 0x018
  | .version => 0x020
  | .limbWidth => 0x100
  | .memoryShape => 0x108
  | .entropyShape => 0x110
  | .debugStatus => 0x118
  | .operationTime => 0x120
  | .rawFillTime => 0x128
  | .ladderFlags => 0x130
  | .rawFifoStatus => 0x138
  | .rawBit => 0x140
  | .limb => 0x148
  | .waiting .axi => 0x150
  | .waiting .efp => 0x158
  | .waiting .crv => 0x160
  | .waiting .shf => 0x168
  | .limbReady => 0x170
  | .starvation => 0x178
  | .served .axi => 0x180
  | .starved .axi => 0x188
  | .served .efp => 0x190
  | .starved .efp => 0x198
  | .served .crv => 0x1a0
  | .starved .crv => 0x1a8
  | .served .shf => 0x1b0
  | .starved .shf => 0x1b8

/-- The register read at an offset, if there is one. -/
def ofOffset? (offset : UInt32) : Option Source :=
  match offset.toNat with
  | 0x000 => some .status
  | 0x008 => some .readData
  | 0x010 => some .capabilities
  | 0x018 => some .primeSize
  | 0x020 => some .version
  | 0x100 => some .limbWidth
  | 0x108 => some .memoryShape
  | 0x110 => some .entropyShape
  | 0x118 => some .debugStatus
  | 0x120 => some .operationTime
  | 0x128 => some .rawFillTime
  | 0x130 => some .ladderFlags
  | 0x138 => some .rawFifoStatus
  | 0x140 => some .rawBit
  | 0x148 => some .limb
  | 0x150 => some (.waiting .axi)
  | 0x158 => some (.waiting .efp)
  | 0x160 => some (.waiting .crv)
  | 0x168 => some (.waiting .shf)
  | 0x170 => some .limbReady
  | 0x178 => some .starvation
  | 0x180 => some (.served .axi)
  | 0x188 => some (.starved .axi)
  | 0x190 => some (.served .efp)
  | 0x198 => some (.starved .efp)
  | 0x1a0 => some (.served .crv)
  | 0x1a8 => some (.starved .crv)
  | 0x1b0 => some (.served .shf)
  | 0x1b8 => some (.starved .shf)
  | _ => none

theorem ofOffset?_offset (r : Source) : ofOffset? r.offset = some r := by
  cases r with
  | waiting c | served c | starved c => cases c <;> rfl
  | _ => rfl

def isDebug (r : Source) : Bool := debugBase ≤ r.offset

/-- The name a bus log shows for a read of this offset. -/
def label (offset : UInt32) : String :=
  match ofOffset? offset with
  | some .status => "R_STATUS"
  | some .readData => "R_READ_DATA"
  | some .capabilities => "R_CAPABILITIES"
  | some .primeSize => "R_PRIME_SIZE"
  | some .version => "R_HW_VERSION"
  | some .debugStatus => "R_DBG_STATUS"
  | some .ladderFlags => "R_DBG_EXP_FLAGS"
  | some .limb => "R_DBG_FP_RDATA"
  | some .limbReady => "R_DBG_FP_RDATA_RDY"
  | _ => if debugBase ≤ offset then "R_DBG_*" else "R_?"

end Source

/-! ### Registers for writing -/

inductive Sink where
  | control
  | writeData
  | r0Null
  | r1Null
  | primeSize
  | blinding
  | shuffle
  | zremask
  | token
  | irq
  | errorAck
  | smallScalar
  | softReset
  | halt
  | breakpoint
  | steps
  | triggerArm
  | triggerUp
  | triggerDown
  | opcodeAddress
  | opcode
  | trngControl
  | trngConfig
  | limbWriteAddress
  | limb
  | limbReadAddress
  | xyShuffle
  | axiMask
  | tokenMask
  | resetCounters
  deriving Repr, DecidableEq

namespace Sink

def offset : Sink → UInt32
  | .control => 0x000
  | .writeData => 0x008
  | .r0Null => 0x010
  | .r1Null => 0x018
  | .primeSize => 0x020
  | .blinding => 0x028
  | .shuffle => 0x030
  | .zremask => 0x038
  | .token => 0x040
  | .irq => 0x048
  | .errorAck => 0x050
  | .smallScalar => 0x058
  | .softReset => 0x060
  | .halt => 0x100
  | .breakpoint => 0x108
  | .steps => 0x110
  | .triggerArm => 0x118
  | .triggerUp => 0x120
  | .triggerDown => 0x128
  | .opcodeAddress => 0x130
  | .opcode => 0x138
  | .trngControl => 0x140
  | .trngConfig => 0x148
  | .limbWriteAddress => 0x150
  | .limb => 0x158
  | .limbReadAddress => 0x160
  | .xyShuffle => 0x168
  | .axiMask => 0x170
  | .tokenMask => 0x178
  | .resetCounters => 0x180

/-- The register written at an offset, if there is one. -/
def ofOffset? (offset : UInt32) : Option Sink :=
  match offset.toNat with
  | 0x000 => some .control
  | 0x008 => some .writeData
  | 0x010 => some .r0Null
  | 0x018 => some .r1Null
  | 0x020 => some .primeSize
  | 0x028 => some .blinding
  | 0x030 => some .shuffle
  | 0x038 => some .zremask
  | 0x040 => some .token
  | 0x048 => some .irq
  | 0x050 => some .errorAck
  | 0x058 => some .smallScalar
  | 0x060 => some .softReset
  | 0x100 => some .halt
  | 0x108 => some .breakpoint
  | 0x110 => some .steps
  | 0x118 => some .triggerArm
  | 0x120 => some .triggerUp
  | 0x128 => some .triggerDown
  | 0x130 => some .opcodeAddress
  | 0x138 => some .opcode
  | 0x140 => some .trngControl
  | 0x148 => some .trngConfig
  | 0x150 => some .limbWriteAddress
  | 0x158 => some .limb
  | 0x160 => some .limbReadAddress
  | 0x168 => some .xyShuffle
  | 0x170 => some .axiMask
  | 0x178 => some .tokenMask
  | 0x180 => some .resetCounters
  | _ => none

theorem ofOffset?_offset (r : Sink) : ofOffset? r.offset = some r := by cases r <;> rfl

def isDebug (r : Sink) : Bool := debugBase ≤ r.offset

/-- The name a bus log shows for a write to this offset. -/
def label (offset : UInt32) : String :=
  match ofOffset? offset with
  | some .control => "W_CTRL"
  | some .writeData => "W_WRITE_DATA"
  | some .r0Null => "W_R0_NULL"
  | some .r1Null => "W_R1_NULL"
  | some .primeSize => "W_PRIME_SIZE"
  | some .blinding => "W_BLINDING"
  | some .shuffle => "W_SHUFFLE"
  | some .zremask => "W_ZREMASK"
  | some .token => "W_TOKEN"
  | some .irq => "W_IRQ"
  | some .errorAck => "W_ERR_ACK"
  | some .smallScalar => "W_SMALL_SCALAR"
  | some .softReset => "W_SOFT_RESET"
  | some .halt => "W_DBG_HALT"
  | some .breakpoint => "W_DBG_BKPT"
  | some .steps => "W_DBG_STEPS"
  | some .limbReadAddress => "W_DBG_FP_RADDR"
  | some .trngControl => "W_DBG_TRNG_CTRL"
  | _ => if debugBase ≤ offset then "W_DBG_*" else "W_?"

end Sink

end Register

end CurveEngine
