import CurveEngine.Text.Lines

/-! Line logs and shared handles to them.

A `LineLog` keeps lines in the order in which they were pushed. A `LogBook` holds logs
behind numbered handles, several of which may stand for the same log: what is pushed or
taken through one of them is seen through all. A handle that was never given out stands
for an empty log and takes no lines. -/
namespace CurveEngine

structure LineLog where
  lines : Array String
  deriving Repr, DecidableEq

namespace LineLog

def empty : LineLog := ⟨#[]⟩

def push (line : String) (log : LineLog) : LineLog := ⟨log.lines.push line⟩

def size (log : LineLog) : Nat := log.lines.size

def isEmpty (log : LineLog) : Bool := log.lines.isEmpty

/-- Every line, each with a line end. -/
def text (log : LineLog) : String := linesText log.lines.toList

/-- The lines that begin with `start`. -/
def startingWith (start : String) (log : LineLog) : List String :=
  log.lines.toList.filter fun line => line.startsWith start

end LineLog

structure LogBook where
  logs : Array LineLog
  /-- For each handle, the log that it stands for. -/
  handles : Array Nat
  deriving Repr, DecidableEq

namespace LogBook

/-- One empty log with one handle, number zero. -/
def single : LogBook := ⟨#[.empty], #[0]⟩

/-- The log that a handle stands for. -/
def log (handle : Nat) (book : LogBook) : LineLog :=
  match book.handles[handle]? with
  | some index => book.logs.getD index .empty
  | none => .empty

/-- Replaces the log that a handle stands for. -/
def replace (handle : Nat) (log : LineLog) (book : LogBook) : LogBook :=
  match book.handles[handle]? with
  | some index => { book with logs := book.logs.setIfInBounds index log }
  | none => book

def push (handle : Nat) (line : String) (book : LogBook) : LogBook :=
  book.replace handle ((book.log handle).push line)

/-- Gives out a further handle to the same log. -/
def share (handle : Nat) (book : LogBook) : LogBook :=
  match book.handles[handle]? with
  | some index => { book with handles := book.handles.push index }
  | none => book

/-- Gives out a handle to a log of its own. -/
def create (book : LogBook) : LogBook :=
  ⟨book.logs.push .empty, book.handles.push book.logs.size⟩

/-- The lines behind a handle, which leaves the log empty. -/
def take (handle : Nat) (book : LogBook) : List String × LogBook :=
  ((book.log handle).lines.toList, book.replace handle .empty)

end LogBook

end CurveEngine
