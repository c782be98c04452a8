import RayTracer.Decimal.Shortest
import RayTracer.Json.Value
import RayTracer.Text.Quoted

/-!
Writing JSON. Integers are written as such; every other number has one digit before the point and an
exponent.
-/

namespace RayTracer

/-- The number that a decimal of some digits writes, given the power of ten of the last digit. -/
def JsonNumber.ofDigits (negative : Bool) (digits : Nat) (exponent : Int) : JsonNumber :=
  ⟨negative, Nat.toDigits 10 digits, none, some exponent⟩

def JsonNumber.ofNat (n : Nat) : JsonNumber := ⟨false, Nat.toDigits 10 n, none, none⟩

/-- The shortest number that reads back as a finite binary64 number. -/
def JsonNumber.ofFloat? (x : Float) : Option JsonNumber :=
  match Binary.Parts.ofFloat x with
  | .finite negative mantissa exponent =>
    if mantissa = 0 then some (.ofDigits negative 0 0)
    else
      let (digits, last) := Decimal.shortest mantissa exponent
      some (.ofDigits negative digits last)
  | _ => none

/-- Digits without the zeros at their end. -/
def dropEndZeros (digits : List Char) : List Char := (digits.reverse.dropWhile (· = '0')).reverse

def JsonNumber.text (n : JsonNumber) : String :=
  let digits := Nat.toDigits 10 n.decimal.digits
  let sign := if n.decimal.negative then "-" else ""
  if n.isInteger then sign ++ String.ofList digits
  else
    let fraction := dropEndZeros (digits.drop 1)
    let power := n.decimal.exponent + (digits.length - 1 : Nat)
    sign ++ String.ofList (digits.take 1)
      ++ (if fraction = [] then "" else "." ++ String.ofList fraction) ++ "e" ++ toString power

namespace Json

/-- The written form of a character inside a string. -/
def escape (c : Char) : List Char :=
  if c = '"' then ['\\', '"']
  else if c = '\\' then ['\\', '\\']
  else if c.toNat < 0x20 then
    let digits := Text.hexadecimal c.toNat
    ['\\', 'u'] ++ List.replicate (4 - digits.length) '0' ++ digits
  else [c]

def stringText (s : String) : String := String.ofList ('"' :: s.toList.flatMap escape ++ ['"'])

mutual

def text : Json → String
  | .null => "null"
  | .bool value => if value then "true" else "false"
  | .number value => value.text
  | .string content => stringText (content.getD "")
  | .array items => "[" ++ ",".intercalate (itemTexts items) ++ "]"
  | .object members => "\x7b" ++ ",".intercalate (memberTexts members) ++ "\x7d"

def itemTexts : List Json → List String
  | [] => []
  | item :: items => item.text :: itemTexts items

def memberTexts : List (Option String × Json) → List String
  | [] => []
  | (key, value) :: members => (stringText (key.getD "") ++ ":" ++ value.text) :: memberTexts members

end

end Json

end RayTracer
