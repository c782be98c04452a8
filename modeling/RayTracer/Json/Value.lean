import RayTracer.Json.Number

/-!
Values of the strict JSON grammar.
-/

namespace RayTracer

/-- A JSON value. The content of a string is missing when its escapes spell no text, that is, when one
of them is half of a pair. Such a string is well formed, but nothing can be read from it. -/
inductive Json where
  | null
  | bool (value : Bool)
  | number (value : JsonNumber)
  | string (content : Option String)
  | array (items : List Json)
  | object (members : List (Option String × Json))
  deriving Repr

end RayTracer
