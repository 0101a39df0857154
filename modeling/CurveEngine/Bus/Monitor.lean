import CurveEngine.Procedure
import CurveEngine.Register.Slot

/-! Watching a bus.

A monitored bus answers as the bus behind it does. On the way it records the accesses,
and the notices it hears, in a log kept down to a threshold, and writes a line for each
access to a file if it has one. Both show the whole value that went over the bus and the
name of the register at its offset. -/
namespace CurveEngine

/-- An access with its answer. -/
inductive Access where
  | read (size : AccessSize) (offset : UInt32) (answer : Except BusFault UInt64)
  | write (size : AccessSize) (offset : UInt32) (value : UInt64) (answer : Except BusFault Unit)

namespace Access

/-- What is shown of a fault. -/
def faultText (fault : BusFault) : String := " ***FAULT " ++ fault.name

def readResult : Except BusFault UInt64 → String
  | .ok value => " -> " ++ Hex.literal value.toNat
  | .error fault => faultText fault

def writeResult : Except BusFault Unit → String
  | .ok _ => ""
  | .error fault => faultText fault

def readName (size : AccessSize) (offset : UInt32) : String :=
  "read" ++ toString (8 * size.bytes) ++ " " ++ Register.Source.label offset

def writeName (size : AccessSize) (offset : UInt32) : String :=
  "write" ++ toString (8 * size.bytes) ++ " " ++ Register.Sink.label offset

/-- The access as a log record shows it. -/
def recordText : Access → String
  | .read size offset answer =>
    readName size offset ++ " (" ++ Hex.padded 3 offset.toNat ++ ")" ++ readResult answer
  | .write size offset value answer =>
    writeName size offset ++ " (" ++ Hex.padded 3 offset.toNat ++ ") <- " ++
      Hex.literal value.toNat ++ writeResult answer

/-- The access as a line of the file. -/
def fileLine : Access → String
  | .read size offset answer =>
    " " ++ readName size offset ++ " *" ++ Hex.padded 3 offset.toNat ++ readResult answer
  | .write size offset value answer =>
    writeName size offset ++ " *" ++ Hex.padded 3 offset.toNat ++ " <- " ++
      Hex.literal value.toNat ++ writeResult answer

end Access

/-- A bus state under watch. -/
structure Monitor (σ : Type) where
  inner : σ
  /-- The least severe level recorded, if anything is. -/
  threshold : Option Level
  records : Array String
  /-- The lines of the file, if there is one. -/
  file : Option (Array String)

namespace Monitor
variable {σ : Type}

/-- Whether records of a level are kept. -/
def keeps (level : Level) (threshold : Option Level) : Bool :=
  threshold.any fun t => level.passes t

/-- The records after one more, if its level is kept. The text is made only then. -/
def record (level : Level) (text : Unit → String) (threshold : Option Level)
    (records : Array String) : Array String :=
  if keeps level threshold then records.push (level.name ++ " " ++ text ()) else records

/-- The file after one more line, if there is one. -/
def writeLine (line : Unit → String) : Option (Array String) → Option (Array String)
  | some lines => some (lines.push (line ()))
  | none => none

/-- The state after an access has been answered. -/
def observe (access : Access) (inner : σ) (threshold : Option Level) (records : Array String)
    (file : Option (Array String)) : Monitor σ where
  inner
  threshold
  records := record .trace (fun _ => access.recordText) threshold records
  file := writeLine (fun _ => access.fileLine) file

/-- The records so far, which leaves none. -/
def takeRecords (m : Monitor σ) : List String × Monitor σ :=
  (m.records.toList, { m with records := #[] })

/-- The lines of the file so far, which leaves it empty. -/
def takeFile (m : Monitor σ) : List String × Monitor σ :=
  ((m.file.getD #[]).toList, { m with file := m.file.map fun _ => #[] })

end Monitor

/-- A bus under watch. -/
def Bus.monitored {σ : Type} (bus : Bus σ) : Bus (Monitor σ) where
  read size offset := fun ⟨inner, threshold, records, file⟩ =>
    let (answer, inner) := bus.read size offset inner
    (answer, .observe (.read size offset answer) inner threshold records file)
  write size offset value := fun ⟨inner, threshold, records, file⟩ =>
    let (answer, inner) := bus.write size offset value inner
    (answer, .observe (.write size offset value answer) inner threshold records file)
  hear notice := fun ⟨inner, threshold, records, file⟩ =>
    { inner := bus.hear notice inner
      threshold
      records := Monitor.record notice.level (fun _ => notice.text) threshold records
      file }

end CurveEngine
