import CurveEngine.Driver.Point
import CurveEngine.Driver.Stepping

/-! Scalar multiplication.

The engine masks the result by a token, which is fetched before the run and taken off
both coordinates after it. The scalar and the point, which goes to R1, are loaded between
saving and restoring the infinity flags. -/
namespace CurveEngine.Driver
open Register Procedure

/-- Fetches the token and loads the operands. -/
def loadMultiplication (d : Driver) (point : Coordinates) (k : Bytes) : Operation Bytes := do
  let flags ← d.saveFlags
  let token ← d.fetchToken
  d.writeNumber k .scalar
  d.writePoint .r1 point
  d.restoreFlags flags
  pure token

/-- Reads the result and takes the token off. -/
def collectResult (d : Driver) (token : Bytes) : Operation PointAnswer := do
  let result ← d.readPoint .r1
  let x ← ofExcept (unmask token result.x)
  let y ← ofExcept (unmask token result.y)
  pure { result with x, y }

/-- The multiple of a point by `k`. -/
def multiply (d : Driver) (point : Coordinates) (k : Bytes) : Operation PointAnswer := do
  notify (.multiplication false)
  let token ← d.loadMultiplication point k
  d.execute .multiply
  d.collectResult token

/-- The multiple of a point by `k`, with a trace of the run. -/
def multiplyTraced (d : Driver) (point : Coordinates) (k : Bytes) : Tracing PointAnswer := do
  notify (.multiplication true)
  d.ensureDebug
  let token ← d.loadMultiplication point k
  d.traceRun
  d.collectResult token

end CurveEngine.Driver
