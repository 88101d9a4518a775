import Membranes.Shape.Canonical
import Membranes.Text.Blank
import Membranes.Text.Numeral

/-!
# Shapes as text

`Shape.toText` writes a shape as `[2,3,5]`. `Shape.ofText` is more generous: brackets may be missing or
repeated, and commas, points and blanks all separate. `Shape.report` and `Shape.factorReport` are
the reports of the command line.
-/

namespace Membranes

namespace Shape

/-! ### Writing -/

/-- Axis sizes in brackets with the given separator. -/
def axesText (separator : String) (axes : List UInt32) : String :=
  "[" ++ Text.joined separator (axes.map toString) ++ "]"

/-- A shape as text. -/
def toText (shape : Shape) : String := axesText "," shape.axes

end Shape

/-- The wording of a shape fault. -/
def ShapeFault.reason : ShapeFault → String
  | .zero => "0 has no prime factorization"
  | .thinAxis axis size => s!"axis {axis} has size {size}, sizes start at 2"
  | .overflow axes => "volume of " ++ Shape.axesText ", " axes ++ " overflows u64"
  | .notInteger piece => s!"'{piece}' is not an integer"
  | .noAxes => "a membrane shape needs at least one axis"
  | .tooManyAxes rank limit => s!"{rank} axes exceeds the maximum of {limit}"
  | .wrongLength held shape =>
    s!"buffer holds {held} elements but {shape.toText} has volume {shape.volume}"

/-- A shape fault as a complete message. -/
def ShapeFault.message (fault : ShapeFault) : String := s!"Invalid shape: {fault.reason}"

namespace Shape

/-! ### Reading -/

/-- Whether a character separates axis sizes. -/
def separates (c : Char) : Bool := c = ',' || c = '.' || Text.isBlank c

/-- A text without blanks at its ends, and then without the opening brackets in front and the closing
brackets behind. -/
def body (s : List Char) : List Char :=
  Text.dropEndWhile (· = ']') ((Text.trim s).dropWhile (· = '['))

/-- Reads one axis size. -/
def readAxis (piece : List Char) : Except ShapeFault UInt32 :=
  match Text.readUInt32 piece with
  | .ok a => .ok a
  | .error _ => .error (.notInteger (String.ofList piece))

/-- Reads a shape. -/
def ofText (s : List Char) : Except ShapeFault Shape := do
  ofAxes (← (Text.pieces separates (body s)).mapM readAxis)

/-! ### Reports -/

/-- The rank, volume and strides of a shape, and its refinement if it has composite axes. -/
def report (shape : Shape) : String :=
  let strides := Text.joined "," (shape.strides.map toString)
  s!"shape {shape.toText}\nrank {shape.rank}\nvolume {shape.volume}\nstrides [{strides}]\n" ++
    if shape.hasPrimeAxes then "" else s!"canonical {shape.canonical.toText}\n"

/-- A number with its prime factors. -/
def factorReport (n : UInt32) : Except ShapeFault String :=
  (factorize n).map fun shape => s!"{n} = {shape.toText} (rank {shape.rank})\n"

end Shape

end Membranes
