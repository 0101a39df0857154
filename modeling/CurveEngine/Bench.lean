import CurveEngine.Bus.Monitor
import CurveEngine.Bus.Script
import CurveEngine.Device.Registers
import CurveEngine.Device.View
import CurveEngine.Driver.Call

/-! A bench: a driver bound to something on a watched bus, and steps to take with it.

On the bus is an engine, a script, or nothing at all. Binding may bring the engine into
service first. A step is a call of the driver, an access of the bus that bypasses it, or
a change to the bench itself; each leaves a `Report` of what it found and of what has
been logged since the report before.

An access that the bus refuses to the driver ends the session, and so does a binding that
fails. After a failed binding nothing is left to look at, so its report says nothing of
the file and of the engine. -/
namespace CurveEngine

/-- What is on the bus. -/
inductive Target where
  | engine (state : Device.State)
  | script (bus : ScriptedBus)
  /-- Nothing: every access is refused. -/
  | nothing

namespace Target

def read (size : AccessSize) (offset : UInt32) : Target → Except BusFault UInt64 × Target
  | .engine state =>
    let (answer, state) := state.read size offset
    (answer, .engine state)
  | .script bus =>
    let (answer, bus) := bus.read size offset
    (answer, .script bus)
  | .nothing => (.error .loadRefused, .nothing)

def write (size : AccessSize) (offset : UInt32) (value : UInt64) :
    Target → Except BusFault Unit × Target
  | .engine state =>
    let (answer, state) := state.write size offset value
    (answer, .engine state)
  | .script bus =>
    let (answer, bus) := bus.write size offset value
    (answer, .script bus)
  | .nothing => (.error .storeRefused, .nothing)

/-- The bus of a target. Nothing that a driver says is heard there. -/
def bus : Bus Target where
  read := read
  write := write
  hear _ target := target

def view? : Target → Option Device.View
  | .engine state => some state.view
  | _ => none

def opcode? (address : UInt32) : Target → Option UInt32
  | .engine state => state.opcode? address
  | _ => none

/-- Changes a script; other targets stay as they are. -/
def mapScript (f : ScriptedBus → ScriptedBus) : Target → Target
  | .script bus => .script (f bus)
  | target => target

/-- The lines that a script has logged so far, which leaves none. -/
def takeLines : Target → Option (List String) × Target
  | .script bus =>
    let (lines, bus) := bus.takeLines
    (some lines, .script bus)
  | target => (none, target)

end Target

/-- A driver, what it is bound to, and the trace of the last traced multiplication. -/
structure Bench where
  driver : Driver
  monitor : Monitor Target
  trace : Option Trace

/-- How a driver is bound. -/
structure Binding where
  config : Config
  /-- Whether the engine is brought into service. -/
  start : Bool

/-- What is watched. -/
structure Watch where
  /-- The least severe level recorded, if anything is. -/
  threshold : Option Level
  /-- Whether accesses are written to a file. -/
  file : Bool
  /-- Whether every report shows the engine. -/
  engine : Bool

inductive Step where
  | call (call : Call)
  /-- The version, asked for twice: once for each of its numbers. -/
  | version
  /-- A traced multiplication, in the kept trace or in a new one. -/
  | multiplyTraced (p : Driver.Coordinates) (k : Bytes) (options : TraceOptions) (reuse : Bool)
  | bind (binding : Binding)
  | config
  /-- An access as the driver makes it. -/
  | load (size : AccessSize) (offset : UInt32)
  | store (size : AccessSize) (offset : UInt32) (value : UInt64)
  /-- An access of the watched bus. -/
  | busRead (size : AccessSize) (offset : UInt32)
  | busWrite (size : AccessSize) (offset : UInt32) (value : UInt64)
  | poll
  | view
  | opcode (address : UInt32)
  | setRules (rules : List (UInt32 × ScriptRule))
  | setAnswers (read : Except BusFault UInt64) (write : Except BusFault Unit)

/-- What a step found. -/
inductive Finding where
  | answer (answer : Answer)
  | version (major minor : UInt32)
  | done
  | failed (error : DriverError)
  | config (config : Config)
  | value (value : UInt64)
  | fault (fault : BusFault)
  /-- The bus refused an access to the driver. -/
  | refused (refusal : Refusal)
  /-- The fuel of a loop without a limit ended. -/
  | spent
  | view (view : Option Device.View)
  | opcode (opcode : Option UInt32)

structure Report where
  finding : Finding
  /-- The records since the last report, if any are kept. -/
  records : Option (List String)
  /-- The lines of the script since the last report, if there is one. -/
  lines : Option (List String)
  /-- The lines of the file since the last report, if there is one. -/
  file : Option (List String)
  /-- The engine, if reports show it; nothing in its place if there is none. -/
  view : Option (Option Device.View)

namespace Bench

/-- Checks, or steps of a trace, that a loop without a limit is given. -/
def fuel : Nat := 1 <<< 48

/-- What a procedure does on the bus of the bench. -/
def perform {α : Type} (p : Procedure α) (monitor : Monitor Target) :
    Outcome α × Monitor Target :=
  p.run Target.bus.monitored monitor

/-- How a step leaves the bench. -/
inductive Ending where
  | goesOn
  /-- The driver is still bound but takes no further step. -/
  | stopped
  /-- No driver is bound. -/
  | unbound
  deriving DecidableEq

def findingOf {α : Type} (found : α → Finding) : Outcome α → Finding × Ending
  | .done result => (found result, .goesOn)
  | .refused refusal => (.refused refusal, .stopped)
  | .spent => (.spent, .stopped)

/-- What a driver does when it is bound. -/
def bindProcedure (driver : Driver) (start : Bool) : Operation Unit :=
  if start then driver.startUp else pure ()

/-- Binds a driver. -/
def bind (binding : Binding) (trace : Option Trace) (monitor : Monitor Target) :
    (Finding × Ending) × Bench :=
  let driver : Driver := ⟨binding.config, fuel⟩
  let (outcome, monitor) := perform (bindProcedure driver binding.start).run monitor
  let finding := match outcome with
    | .done (.ok ()) => (.done, .goesOn)
    | .done (.error error) => (.failed error, .unbound)
    | .refused refusal => (.refused refusal, .unbound)
    | .spent => (.spent, .unbound)
  (finding, ⟨driver, monitor, trace⟩)

/-- The report after a step, and the bench with everything in it taken out. -/
def report (watch : Watch) (found : Finding × Ending) (b : Bench) : Report × Bench :=
  let ⟨driver, monitor, trace⟩ := b
  let (records, monitor) := monitor.takeRecords
  let (file, ⟨inner, threshold, kept, written⟩) := monitor.takeFile
  let view := inner.view?
  let (lines, inner) := inner.takeLines
  let bound := found.2 != .unbound
  ({ finding := found.1
     records := if watch.threshold.isSome then some records else none
     lines
     file := if watch.file && bound then some file else none
     view := if watch.engine && bound then some view else none },
   ⟨driver, ⟨inner, threshold, kept, written⟩, trace⟩)

/-! ### Steps -/

def runCall (call : Call) (b : Bench) : (Finding × Ending) × Bench :=
  let ⟨driver, monitor, trace⟩ := b
  let (outcome, monitor) := perform (call.perform driver) monitor
  (findingOf .answer outcome, ⟨driver, monitor, trace⟩)

def askVersion (driver : Driver) : Procedure (UInt32 × UInt32) := do
  let first ← driver.version
  let second ← driver.version
  pure (first.1, second.2)

def runVersion (b : Bench) : (Finding × Ending) × Bench :=
  let ⟨driver, monitor, trace⟩ := b
  let (outcome, monitor) := perform (askVersion driver) monitor
  (findingOf (fun v => .version v.1 v.2) outcome, ⟨driver, monitor, trace⟩)

/-- The trace that a multiplication is given. -/
def traceFor (options : TraceOptions) (reuse : Bool) (kept : Option Trace) : Trace :=
  if reuse then kept.getD (.new options) else .new options

/-- The trace kept after a multiplication. -/
def keptTrace (given : Trace) : Outcome Answer → Trace
  | .done answer => answer.trace.getD given
  | _ => given

def runTraced (p : Driver.Coordinates) (k : Bytes) (options : TraceOptions) (reuse : Bool)
    (b : Bench) : (Finding × Ending) × Bench :=
  let ⟨driver, monitor, kept⟩ := b
  let trace := traceFor options reuse kept
  let (outcome, monitor) := perform ((Call.multiplyTraced p k trace).perform driver) monitor
  let kept := keptTrace trace outcome
  (findingOf .answer outcome, ⟨driver, monitor, some kept⟩)

def runLoad (size : AccessSize) (offset : UInt32) (b : Bench) : (Finding × Ending) × Bench :=
  let ⟨driver, monitor, trace⟩ := b
  let (outcome, monitor) := perform (Procedure.loadWord size offset) monitor
  let shown (value : UInt64) : Finding :=
    .value (match size with
      | .word => lowHalf value
      | .doubleWord => value)
  (findingOf shown outcome, ⟨driver, monitor, trace⟩)

def runStore (size : AccessSize) (offset : UInt32) (value : UInt64) (b : Bench) :
    (Finding × Ending) × Bench :=
  let ⟨driver, monitor, trace⟩ := b
  let stored := match size with
    | .word => lowHalf value
    | .doubleWord => value
  let (outcome, monitor) := perform (Procedure.storeWord size offset stored) monitor
  (findingOf (fun _ => .done) outcome, ⟨driver, monitor, trace⟩)

def runBusRead (size : AccessSize) (offset : UInt32) (b : Bench) : (Finding × Ending) × Bench :=
  let ⟨driver, monitor, trace⟩ := b
  let (answer, monitor) := Target.bus.monitored.read size offset monitor
  let finding := match answer with
    | .ok value => .value value
    | .error fault => .fault fault
  ((finding, .goesOn), ⟨driver, monitor, trace⟩)

def runBusWrite (size : AccessSize) (offset : UInt32) (value : UInt64) (b : Bench) :
    (Finding × Ending) × Bench :=
  let ⟨driver, monitor, trace⟩ := b
  let (answer, monitor) := Target.bus.monitored.write size offset value monitor
  let finding := match answer with
    | .ok () => .done
    | .error fault => .fault fault
  ((finding, .goesOn), ⟨driver, monitor, trace⟩)

/-- Looks at the target without an access. -/
def look (f : Target → Finding) (b : Bench) : (Finding × Ending) × Bench :=
  ((f b.monitor.inner, .goesOn), b)

/-- Changes the script on the bus. -/
def changeScript (f : ScriptedBus → ScriptedBus) (b : Bench) : (Finding × Ending) × Bench :=
  let ⟨driver, ⟨inner, threshold, records, file⟩, trace⟩ := b
  ((.done, .goesOn), ⟨driver, ⟨inner.mapScript f, threshold, records, file⟩, trace⟩)

/-- Changes the answers of several addresses of a script. -/
def setRules (rules : List (UInt32 × ScriptRule)) (bus : ScriptedBus) : ScriptedBus :=
  rules.foldl (fun bus rule => bus.setRule rule.1 rule.2) bus

def step (s : Step) (b : Bench) : (Finding × Ending) × Bench :=
  match s with
  | .call call => b.runCall call
  | .version => b.runVersion
  | .multiplyTraced p k options reuse => b.runTraced p k options reuse
  | .bind binding =>
    let ⟨_, monitor, trace⟩ := b
    bind binding trace monitor
  | .config => ((.config b.driver.config, .goesOn), b)
  | .load size offset => b.runLoad size offset
  | .store size offset value => b.runStore size offset value
  | .busRead size offset => b.runBusRead size offset
  | .busWrite size offset value => b.runBusWrite size offset value
  | .poll => ((.done, .goesOn), b)
  | .view => b.look fun target => .view target.view?
  | .opcode address => b.look fun target => .opcode (target.opcode? address)
  | .setRules rules => b.changeScript (setRules rules)
  | .setAnswers read write =>
    b.changeScript fun bus => { bus with readAnswer := read, writeAnswer := write }

/-- Takes steps until one ends the session. -/
def runSteps (watch : Watch) : List Step → Bench → Array Report → Array Report
  | [], _, reports => reports
  | s :: rest, b, reports =>
    let (found, b) := b.step s
    let (report, b) := b.report watch found
    let reports := reports.push report
    if found.2 = .goesOn then runSteps watch rest b reports else reports

/-- Binds a driver to a target and takes steps. -/
def session (watch : Watch) (target : Target) (binding : Binding) (steps : List Step) :
    Report × List Report :=
  let monitor : Monitor Target :=
    ⟨target, watch.threshold, #[], if watch.file then some #[] else none⟩
  let (found, b) := bind binding none monitor
  let (opening, b) := b.report watch found
  (opening, if found.2 = .goesOn then (runSteps watch steps b #[]).toList else [])

end Bench

end CurveEngine
