import CurveEngine.Bytes
import CurveEngine.Driver.Settle
import CurveEngine.Register.Control
import CurveEngine.Register.Number

/-! Transfers of big numbers, and the token.

A transfer moves exactly as many words as the prime size needs, least significant word
first. A number that is shorter is extended by zeros when it is written; a buffer that
is shorter keeps the low bytes of what is read. A number or buffer that would take more
words is refused before anything is written. -/
namespace CurveEngine.Driver
open Register Procedure

/-- The prime size in bits. -/
def size (d : Driver) : Procedure Nat := do
  let word ← d.read .primeSize
  pure (word &&& 0xffff).toNat

/-- The prime size in bytes. -/
def numberBytes (d : Driver) : Procedure Nat := do
  let size ← d.size
  pure ((size + 7) / 8)

/-- The words of a transfer, for a number or buffer of `len` bytes. -/
def transferWords (d : Driver) (len : Nat) : Operation Nat := do
  let bytes ← d.numberBytes
  let words := Bytes.wordsFor bytes d.wordBytes
  if Bytes.wordsFor len d.wordBytes > words then throw .numberTooLarge else pure words

/-- Opens a transfer to the engine. The scalar has to wait for random numbers. -/
def openWrite (d : Driver) : Destination → Operation Unit
  | .number n => d.writeSettled .control (Command.writeNumber n.address).word
  | .scalar => do
    d.waitEnoughRandom
    d.writeSettled .control (Command.writeScalar Destination.scalar.address).word

/-- Sends one word of an open transfer. -/
def sendWord (d : Driver) (word : UInt64) : Operation Unit := do
  d.waitIdle
  d.writeWord .writeData word
  d.settle

def writeNumber (d : Driver) (bytes : Bytes) (destination : Destination) : Operation Unit := do
  let words ← d.transferWords bytes.length
  d.openWrite destination
  (Bytes.toWords d.wordBytes words bytes).forM d.sendWord

/-- Receives one word of an open transfer. -/
def receiveWord (d : Driver) : Operation UInt64 := do
  d.waitIdle
  let word ← d.readWord .readData
  d.settle
  pure word

/-- Receives words of an open transfer, and records them, most recent first. -/
def receiveWords (d : Driver) : Nat → Recording (List UInt64) Unit
  | 0 => pure ()
  | count + 1 => do
    let word ← d.receiveWord
    modify (word :: ·)
    d.receiveWords count

/-- Reads what a command addresses, for a buffer of `len` bytes. -/
def readWords (d : Driver) (command : Command) (len : Nat) : Recording (List UInt64) Unit := do
  let words ← d.transferWords len
  d.writeSettled .control command.word
  d.receiveWords words

/-- Reads what a command addresses into a buffer. A failure leaves the words received
until then in the buffer. -/
def readInto (d : Driver) (command : Command) : Recording Bytes Unit :=
  ExceptT.mk fun buffer => do
    let (ending, received) ← (d.readWords command buffer.length).on []
    pure (ending, Bytes.fill d.wordBytes received.reverse buffer)

/-- Reads what a command addresses as a number of `len` bytes. -/
def readBytes (d : Driver) (command : Command) (len : Nat) : Operation Bytes :=
  ExceptT.mk do
    let (ending, bytes) ← (d.readInto command).on (List.replicate len 0)
    pure (ending.map fun _ => bytes)

/-- Reads the register at the address of a destination into a buffer. -/
def readNumberInto (d : Driver) (register : Destination) : Recording Bytes Unit :=
  d.readInto (.readNumber register.address)

/-! ### The token -/

/-- Has the engine generate the token of the next multiplication, and reads it. -/
def fetchToken (d : Driver) : Operation Bytes := do
  d.writeSettled .token 1
  let len ← d.numberBytes
  d.readBytes (.readToken Number.p.address) len

/-- Takes the token off a coordinate. -/
def unmask (token coordinate : Bytes) : Except DriverError Bytes :=
  if coordinate.length = token.length then .ok (Bytes.xor coordinate token)
  else .error .tokenSizeMismatch

end CurveEngine.Driver
