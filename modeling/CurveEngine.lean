import CurveEngine.Bench
import CurveEngine.Bus.Window
import CurveEngine.Proofs.Access
import CurveEngine.Proofs.Alike
import CurveEngine.Proofs.Fields
import CurveEngine.Proofs.Decoding
import CurveEngine.Proofs.Group
import CurveEngine.Proofs.Loading
import CurveEngine.Proofs.Product
import CurveEngine.Proofs.Reachable
import CurveEngine.Proofs.Receiving
import CurveEngine.Proofs.Sending
import CurveEngine.Proofs.Sequencing
import CurveEngine.Proofs.Settling
import CurveEngine.Proofs.Words
import CurveEngine.Proofs.Halting
import CurveEngine.Proofs.Tracing
import CurveEngine.Proofs.Breakpoints
import CurveEngine.Proofs.TracedRun
import CurveEngine.Proofs.Refinement
import CurveEngine.Proofs.Readings
import CurveEngine.Proofs.RunReadings
import CurveEngine.Proofs.Draws
import CurveEngine.Proofs.RunStores
import CurveEngine.Proofs.TracedReadings
import CurveEngine.Proofs.Lockstep
import CurveEngine.Proofs.Paired
import CurveEngine.Proofs.Upheld
import CurveEngine.Proofs.Releasing
import CurveEngine.Proofs.Accesses
import CurveEngine.Proofs.RoundTrip
import CurveEngine.Proofs.Operands
import CurveEngine.Proofs.LostFlags
import CurveEngine.Proofs.Layouts
import CurveEngine.Proofs.Quiet
import CurveEngine.Proofs.Twins
import CurveEngine.Proofs.Sessions
import CurveEngine.Proofs.Discipline
import CurveEngine.Proofs.Conduct
import CurveEngine.Proofs.Dialogue
import CurveEngine.Proofs.Guarding
import CurveEngine.Proofs.Reporting
import CurveEngine.Proofs.Latching
import CurveEngine.Proofs.Passing
import CurveEngine.Proofs.Unprovoked
import CurveEngine.Proofs.Untimed
import CurveEngine.Proofs.Pacing
import CurveEngine.Proofs.Latency
import CurveEngine.Proofs.Orderly
import CurveEngine.Proofs.Locked
import CurveEngine.Proofs.Schedules
import CurveEngine.Proofs.PointOperations
import CurveEngine.Proofs.NarrowLimbs
import CurveEngine.Proofs.BlindingBound
import CurveEngine.Proofs.BlindedProduct
import CurveEngine.Proofs.Concurring
import CurveEngine.Proofs.Awaiting
import CurveEngine.Proofs.Following
import CurveEngine.Proofs.Termination
import CurveEngine.Proofs.Residues
import CurveEngine.Proofs.OnCurve
import CurveEngine.Proofs.Holding
import CurveEngine.Proofs.Masking
import CurveEngine.Proofs.Opposites
import CurveEngine.Proofs.RunProgram
import CurveEngine.Proofs.Stopping
import CurveEngine.Proofs.StepBounds
import CurveEngine.Proofs.StepLimits
import CurveEngine.Proofs.Alongside
import CurveEngine.Proofs.LogCapacity
import CurveEngine.Proofs.LimbDecoding
import CurveEngine.Proofs.SmallScalars
import CurveEngine.Proofs.Settings
import CurveEngine.Proofs.Resizing
import CurveEngine.Proofs.CurveLoading
import CurveEngine.Proofs.Disarming
import CurveEngine.Proofs.Patching
import CurveEngine.Proofs.SlotRanges
import CurveEngine.Proofs.DrawBounds
