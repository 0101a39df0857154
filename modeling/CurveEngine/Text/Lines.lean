/-! Text made of lines. -/
namespace CurveEngine

/-- The lines one after the other, each with a line end. -/
def linesText (lines : List String) : String :=
  lines.foldl (fun text line => text ++ line ++ "\n") ""

end CurveEngine
