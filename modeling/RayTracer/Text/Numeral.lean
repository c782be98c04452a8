/-!
Numerals in headers and on the command line: counts with an upper limit, and decimal numbers.
-/

namespace RayTracer.Text

def digitValue (c : Char) : Nat := c.toNat - '0'.toNat

def digitsValue (digits : List Char) : Nat :=
  digits.foldl (fun n c => n * 10 + digitValue c) 0

/-- A text without a plus sign at its head. -/
def dropPlus : List Char → List Char
  | '+' :: rest => rest
  | text => text

/-- A count below a limit: at least one digit, with a plus sign or without. -/
def readCount? (limit : Nat) (text : List Char) : Option Nat :=
  let digits := dropPlus text
  let n := digitsValue digits
  if digits ≠ [] && digits.all Char.isDigit && n < limit then some n else none

/-- A decimal number as written: the digits without the point, and the power of ten of the last. -/
structure Decimal where
  negative : Bool
  digits : Nat
  exponent : Int
  deriving DecidableEq, Repr

/-- The binary64 number nearest to a decimal one. Numbers far outside the range of binary64 are told
by the position of their first digit, without computing the power of ten. -/
def Decimal.toFloat (d : Decimal) : Float :=
  let size : Int := (Nat.toDigits 10 d.digits).length + d.exponent
  let magnitude : Float :=
    if d.digits = 0 then 0.0
    else if 400 < size then Float.ofBits 0x7ff0000000000000
    else if size < -400 then 0.0
    else if d.exponent < 0 then Float.ofScientific d.digits true d.exponent.natAbs
    else Float.ofScientific d.digits false d.exponent.natAbs
  if d.negative then -magnitude else magnitude

/-- The sign of a number and what follows it. -/
def takeSign : List Char → Bool × List Char
  | '-' :: rest => (true, rest)
  | '+' :: rest => (false, rest)
  | text => (false, text)

/-- The exponent after the digits: nothing, or a mark, a sign or none, and at least one digit. -/
def readExponent? : List Char → Option Int
  | [] => some 0
  | mark :: rest =>
    if mark = 'e' ∨ mark = 'E' then
      let (negative, digits) := takeSign rest
      if digits ≠ [] && digits.all Char.isDigit then
        some (if negative then -(digitsValue digits : Int) else digitsValue digits)
      else none
    else none

/-- The digits behind a point, where the text begins with one, and what follows them. -/
def takeFraction : List Char → List Char × List Char
  | '.' :: after => (after.takeWhile Char.isDigit, after.dropWhile Char.isDigit)
  | text => ([], text)

/-- Digits with at most one point among them and at least one digit, then an exponent. -/
def readUnsigned? (negative : Bool) (text : List Char) : Option Decimal :=
  let whole := text.takeWhile Char.isDigit
  let rest := text.dropWhile Char.isDigit
  let (fraction, tail) := takeFraction rest
  if whole = [] && fraction = [] then none
  else (readExponent? tail).map fun exponent =>
    ⟨negative, digitsValue (whole ++ fraction), exponent - fraction.length⟩

/-- A binary64 numeral: a decimal number, or an infinity or not-a-number by name in any case. -/
def readFloat? (text : List Char) : Option Float :=
  let (negative, body) := takeSign text
  let name := body.map Char.toLower
  let signed (x : Float) : Float := if negative then -x else x
  if name = "inf".toList || name = "infinity".toList then
    some (signed (Float.ofBits 0x7ff0000000000000))
  else if name = "nan".toList then some (Float.ofBits 0x7ff8000000000000)
  else (readUnsigned? negative body).map Decimal.toFloat

end RayTracer.Text
