import CurveEngine.Text.Lines

/-! The text log of a trace.

A log may have a capacity in bytes. A line goes into the log if the whole of it, with
its line end, still fits; otherwise it is dropped and the log is marked as truncated. A
shorter line may still fit later. -/
namespace CurveEngine

/-- The bytes that lines take up, each with its line end. -/
def byteCount : List String → Nat
  | [] => 0
  | line :: rest => (line.utf8ByteSize + 1) + byteCount rest

structure TraceLog where
  /-- The lines, most recent first. -/
  recent : List String
  /-- Bytes taken up so far. -/
  size : Nat
  size_eq : size = byteCount recent
  /-- Whether a line has been dropped. -/
  truncated : Bool

namespace TraceLog

def empty : TraceLog := ⟨[], 0, rfl, false⟩

/-- The lines, in the order in which they were added. -/
def lines (log : TraceLog) : List String := log.recent.reverse

/-- Whether another line goes into a log of that capacity. -/
def fits (capacity : Option Nat) (line : String) (log : TraceLog) : Bool :=
  capacity.all fun c => log.size + (line.utf8ByteSize + 1) ≤ c

def add (capacity : Option Nat) (line : String) (log : TraceLog) : TraceLog :=
  if log.fits capacity line then
    { recent := line :: log.recent
      size := (line.utf8ByteSize + 1) + log.size
      size_eq := by rw [log.size_eq]; rfl
      truncated := log.truncated }
  else { log with truncated := true }

/-- The text of the log, every line with its line end. -/
def text (log : TraceLog) : String := linesText log.lines

end TraceLog

end CurveEngine
