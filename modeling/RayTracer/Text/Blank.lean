/-!
White space between and around the parts of a line.
-/

namespace RayTracer.Text

/-- The characters that count as white space in any script. -/
def isBlank (c : Char) : Bool :=
  let code := c.toNat
  (9 ≤ code && code ≤ 13) || code == 0x20 || code == 0x85 || code == 0xa0 || code == 0x1680
    || (0x2000 ≤ code && code ≤ 0x200a) || code == 0x2028 || code == 0x2029 || code == 0x202f
    || code == 0x205f || code == 0x3000

def trim (text : List Char) : List Char :=
  ((text.dropWhile isBlank).reverse.dropWhile isBlank).reverse

/-- The parts of a text between blanks. -/
def words (text : List Char) : List (List Char) :=
  let parts := text.foldr
    (fun c parts => if isBlank c then [] :: parts else (c :: parts.headD []) :: parts.drop 1) [[]]
  parts.filter (· ≠ [])

end RayTracer.Text
