import RayTracer.Text.Invisible

/-!
Quoting a text inside a message. Quotes, backslashes and the common controls are written as two
characters, and every other invisible character by its number, so that what is shown is what is there.
-/

namespace RayTracer.Text

/-- A number in lower-case hexadecimal digits, without leading zeros. -/
def hexadecimal (n : Nat) : List Char := Nat.toDigits 16 n

/-- The written form of one character inside quotes. -/
def quoteChar (c : Char) : List Char :=
  match c with
  | '\x00' => ['\\', '0']
  | '\t' => ['\\', 't']
  | '\n' => ['\\', 'n']
  | '\r' => ['\\', 'r']
  | '"' => ['\\', '"']
  | '\\' => ['\\', '\\']
  | c =>
    if isInvisible c then ['\\', 'u', '\x7b'] ++ hexadecimal c.toNat ++ ['\x7d'] else [c]

def quoted (text : List Char) : String :=
  String.ofList ('"' :: text.flatMap quoteChar ++ ['"'])

end RayTracer.Text
