/-!
# JSON columns
-/

namespace EPlatform

/-- What a `JSONField` may hold. A number is `mantissa · 10 ^ exponent`. -/
inductive Json
  | null
  | bool (value : Bool)
  | num (mantissa exponent : Int)
  | str (text : String)
  | arr (items : List Json)
  | obj (fields : List (String × Json))

/-- `isinstance(value, str)`, or `typeof value === "string"`. -/
def Json.text : Json → Option String
  | .str text => some text
  | _ => none

/-- The strings of an array, and none of anything else. -/
def Json.tags : Json → List String
  | .arr items => items.filterMap Json.text
  | _ => []

end EPlatform
