import RayTracer.Decimal.Rounded
import RayTracer.Geometry.Transformation

/-!
The written form of a transformation: the rows of its matrix, each entry with four significant digits in
scientific notation.
-/

namespace RayTracer

/-- An entry: one digit before the point and three after it, an exponent without sign or padding where
it is not negative, and at least six characters. -/
def entryText (x : Float) : String :=
  let pad (text : String) : String :=
    String.ofList (List.replicate (6 - text.length) ' ') ++ text
  let sign (negative : Bool) : String := if negative then "-" else ""
  match Decimal.toSignificant 4 x with
  | .notANumber => pad "NaN"
  | .infinite negative => pad (sign negative ++ "inf")
  | .number value =>
    pad (sign value.negative ++ String.ofList (value.digits.take 1) ++ "."
      ++ String.ofList (value.digits.drop 1) ++ "e" ++ toString value.exponent)

def Row.text (row : Row Float) : String :=
  "   [" ++ entryText row.x ++ " " ++ entryText row.y ++ " " ++ entryText row.z ++ " "
    ++ entryText row.w ++ "],\n"

def Transformation.text (t : Transformation Float) : String :=
  "[\n" ++ t.forward.row0.text ++ t.forward.row1.text ++ t.forward.row2.text ++ t.forward.row3.text
    ++ "]"

end RayTracer
