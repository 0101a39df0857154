import CurveEngine.Bus.LineLog
import CurveEngine.Procedure

/-! A bus that answers from a script.

Every address can have a queue of values to come and a value that stays. A read takes
the head of the queue, which becomes the value that stays; with an empty queue it gets
that value, and where there is none it gets the answer for unscripted reads. Writes all
get the same answer. Each access is logged as a line. -/
namespace CurveEngine

/-- What reads of one address get. -/
structure ScriptEntry where
  queue : List UInt64
  value : Option UInt64
  deriving Repr, DecidableEq

/-- A change to the answers of one address. -/
inductive ScriptRule where
  /-- This value from now on. -/
  | always (value : UInt64)
  /-- These values one after the other. -/
  | inTurn (values : List UInt64)
  deriving Repr, DecidableEq

structure ScriptedBus where
  log : LineLog
  entries : List (UInt32 × ScriptEntry)
  /-- The answer to reads of an address without an entry. -/
  readAnswer : Except BusFault UInt64
  writeAnswer : Except BusFault Unit

namespace ScriptedBus

/-- A bus that reads as zero everywhere and takes every write. -/
def blank : ScriptedBus := ⟨.empty, [], .ok 0, .ok ()⟩

def entry (address : UInt32) (b : ScriptedBus) : ScriptEntry :=
  (b.entries.lookup address).getD ⟨[], none⟩

def setEntry (address : UInt32) (entry : ScriptEntry) (b : ScriptedBus) : ScriptedBus :=
  { b with entries := (address, entry) :: b.entries.filter fun e => e.1 != address }

/-- Changes what reads of an address get. New values to come replace those that have
not come yet. -/
def setRule (address : UInt32) (rule : ScriptRule) (b : ScriptedBus) : ScriptedBus :=
  match rule with
  | .always value => b.setEntry address ⟨[], some value⟩
  | .inTurn values => b.setEntry address { b.entry address with queue := values }

def readLine (size : AccessSize) (address : UInt32) : String :=
  "read(" ++ size.name ++ ", " ++ Hex.padded 3 address.toNat ++ ")"

def writeLine (size : AccessSize) (address : UInt32) (value : UInt64) : String :=
  "write(" ++ size.name ++ ", " ++ Hex.padded 3 address.toNat ++ ", " ++
    Hex.literal value.toNat ++ ")"

/-- The answer to a read, whatever its size. -/
def answer (address : UInt32) (b : ScriptedBus) : Except BusFault UInt64 × ScriptedBus :=
  match b.entry address with
  | ⟨next :: rest, _⟩ => (.ok next, b.setEntry address ⟨rest, some next⟩)
  | ⟨[], some value⟩ => (.ok value, b)
  | ⟨[], none⟩ => (b.readAnswer, b)

def read (size : AccessSize) (address : UInt32) (b : ScriptedBus) :
    Except BusFault UInt64 × ScriptedBus :=
  { b with log := b.log.push (readLine size address) }.answer address

def write (size : AccessSize) (address : UInt32) (value : UInt64) (b : ScriptedBus) :
    Except BusFault Unit × ScriptedBus :=
  (b.writeAnswer, { b with log := b.log.push (writeLine size address value) })

/-- The lines logged so far, which leaves the log empty. -/
def takeLines (b : ScriptedBus) : List String × ScriptedBus :=
  (b.log.lines.toList, { b with log := .empty })

end ScriptedBus

end CurveEngine
