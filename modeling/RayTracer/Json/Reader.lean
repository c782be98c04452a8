import RayTracer.Json.Value

/-!
Reading JSON. The grammar is the strict one: no comments, no trailing commas, no raw control characters
in strings. `Json.parse?` reads a whole text.
-/

namespace RayTracer.Json

/-- The characters between the parts of a JSON text. -/
def isSpace (c : Char) : Bool := c == ' ' || c == '\n' || c == '\t' || c == '\r'

def skipSpace (text : List Char) : List Char := text.dropWhile isSpace

def hexDigit? (c : Char) : Option Nat :=
  if '0' ≤ c ∧ c ≤ '9' then some (c.toNat - '0'.toNat)
  else if 'a' ≤ c ∧ c ≤ 'f' then some (c.toNat - 'a'.toNat + 10)
  else if 'A' ≤ c ∧ c ≤ 'F' then some (c.toNat - 'A'.toNat + 10)
  else none

/-- The number that four hexadecimal digits at the head of a text write, and the rest. -/
def readUnit? : List Char → Option (Nat × List Char)
  | a :: b :: c :: d :: rest => do
    return ((((← hexDigit? a) * 16 + (← hexDigit? b)) * 16 + (← hexDigit? c)) * 16 + (← hexDigit? d),
      rest)
  | _ => none

def isHighHalf (unit : Nat) : Bool := 0xd800 ≤ unit && unit ≤ 0xdbff

def isLowHalf (unit : Nat) : Bool := 0xdc00 ≤ unit && unit ≤ 0xdfff

/-- The low half that is escaped at the head of a text, and the rest. -/
def readLowHalf? : List Char → Option (Nat × List Char)
  | '\\' :: 'u' :: rest =>
    match readUnit? rest with
    | some (unit, after) => if isLowHalf unit then some (unit, after) else none
    | none => none
  | _ => none

def pairCharacter (high low : Nat) : Char :=
  Char.ofNat (0x10000 + (high - 0xd800) * 0x400 + (low - 0xdc00))

/-- What follows the `u` of an escape: a character, or nothing for a half without its partner. -/
def readEscapedUnit? (text : List Char) : Option (Option Char × List Char) := do
  let (unit, rest) ← readUnit? text
  if isHighHalf unit then
    match readLowHalf? rest with
    | some (low, after) => return (some (pairCharacter unit low), after)
    | none => return (none, rest)
  else if isLowHalf unit then return (none, rest)
  else return (some (Char.ofNat unit), rest)

/-- What follows a backslash. -/
def readEscape? : List Char → Option (Option Char × List Char)
  | '"' :: rest => some (some '"', rest)
  | '\\' :: rest => some (some '\\', rest)
  | '/' :: rest => some (some '/', rest)
  | 'b' :: rest => some (some '\x08', rest)
  | 'f' :: rest => some (some '\x0c', rest)
  | 'n' :: rest => some (some '\n', rest)
  | 'r' :: rest => some (some '\r', rest)
  | 't' :: rest => some (some '\t', rest)
  | 'u' :: rest => readEscapedUnit? rest
  | _ => none

/-- The characters up to the closing quote, with nothing in place of what is no character. Every step
takes one unit of fuel and at least one character. -/
def readCharacters? : Nat → List Char → Option (List (Option Char) × List Char)
  | 0, _ => none
  | _ + 1, [] => none
  | fuel + 1, c :: rest =>
    if c = '"' then some ([], rest)
    else if c = '\\' then do
      let (character, after) ← readEscape? rest
      let (characters, final) ← readCharacters? fuel after
      return (character :: characters, final)
    else if c.toNat < 0x20 then none
    else do
      let (characters, final) ← readCharacters? fuel rest
      return (some c :: characters, final)

def readString? (fuel : Nat) (text : List Char) : Option (Option String × List Char) := do
  let (characters, rest) ← readCharacters? fuel text
  return ((characters.mapM id).map String.ofList, rest)

/-- The digits before the point: a zero alone, or digits that do not start with one. -/
def readWhole? (text : List Char) : Option (List Char × List Char) :=
  match text with
  | '0' :: rest => some (['0'], rest)
  | _ =>
    let digits := text.takeWhile Char.isDigit
    if digits = [] then none else some (digits, text.dropWhile Char.isDigit)

/-- At least one digit. -/
def readDigits? (text : List Char) : Option (List Char × List Char) :=
  let digits := text.takeWhile Char.isDigit
  if digits = [] then none else some (digits, text.dropWhile Char.isDigit)

/-- The digits after the point, if there is one. -/
def readFraction? : List Char → Option (Option (List Char) × List Char)
  | '.' :: rest => (readDigits? rest).map fun (digits, after) => (some digits, after)
  | text => some (none, text)

def readExponent? (text : List Char) : Option (Option Int × List Char) :=
  match text with
  | mark :: rest =>
    if mark = 'e' ∨ mark = 'E' then do
      let (negative, digits) := Text.takeSign rest
      let (digits, after) ← readDigits? digits
      let size : Int := Text.digitsValue digits
      return (some (if negative then -size else size), after)
    else some (none, text)
  | [] => some (none, text)

def readNumber? (text : List Char) : Option (JsonNumber × List Char) := do
  let (negative, unsigned) := match text with
    | '-' :: rest => (true, rest)
    | _ => (false, text)
  let (whole, afterWhole) ← readWhole? unsigned
  let (fraction, afterFraction) ← readFraction? afterWhole
  let (exponent, rest) ← readExponent? afterFraction
  return (⟨negative, whole, fraction, exponent⟩, rest)

mutual

/-- The value at the head of a text. Every call takes one unit of fuel. -/
def readValue? : Nat → List Char → Option (Json × List Char)
  | 0, _ => none
  | fuel + 1, text =>
    match skipSpace text with
    | 'n' :: 'u' :: 'l' :: 'l' :: rest => some (.null, rest)
    | 't' :: 'r' :: 'u' :: 'e' :: rest => some (.bool true, rest)
    | 'f' :: 'a' :: 'l' :: 's' :: 'e' :: rest => some (.bool false, rest)
    | '"' :: rest => (readString? fuel rest).map fun (content, after) => (.string content, after)
    | '[' :: rest =>
      match skipSpace rest with
      | ']' :: after => some (.array [], after)
      | items => (readItems? fuel items).map fun (items, after) => (.array items, after)
    | '\x7b' :: rest =>
      match skipSpace rest with
      | '\x7d' :: after => some (.object [], after)
      | members => (readMembers? fuel members).map fun (members, after) => (.object members, after)
    | start => (readNumber? start).map fun (value, after) => (.number value, after)

/-- The items of an array up to its closing bracket; there is at least one. -/
def readItems? : Nat → List Char → Option (List Json × List Char)
  | 0, _ => none
  | fuel + 1, text =>
    match readValue? fuel text with
    | none => none
    | some (item, rest) =>
      match skipSpace rest with
      | ',' :: after => (readItems? fuel after).map fun (items, final) => (item :: items, final)
      | ']' :: after => some ([item], after)
      | _ => none

/-- The members of an object up to its closing brace; there is at least one. -/
def readMembers? : Nat → List Char → Option (List (Option String × Json) × List Char)
  | 0, _ => none
  | fuel + 1, text =>
    match skipSpace text with
    | '"' :: start =>
      match readString? fuel start with
      | none => none
      | some (key, afterKey) =>
        match skipSpace afterKey with
        | ':' :: afterColon =>
          match readValue? fuel afterColon with
          | none => none
          | some (value, rest) =>
            match skipSpace rest with
            | ',' :: after =>
              (readMembers? fuel after).map fun (members, final) => ((key, value) :: members, final)
            | '\x7d' :: after => some ([(key, value)], after)
            | _ => none
        | _ => none
    | _ => none

end

/-- The value of a whole text. No call is made without a character having been read since the last but
one, so the fuel outlasts the text. -/
def parse? (text : List Char) : Option Json :=
  match readValue? (2 * text.length + 2) text with
  | some (value, rest) => if skipSpace rest = [] then some value else none
  | none => none

end RayTracer.Json
