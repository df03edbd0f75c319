/-
**JSON values.**

A value keeps what its text says: the members of an object stay in their order and may repeat a key,
and a number is kept by its decimal parts, so `1`, `1.0` and `1e0` are different numbers.
-/

namespace Phrasebook

/-- A number by its parts: the sign, the whole part, the digits behind the point and the exponent,
the last two where the number has them. -/
structure Json.Number where
  negative : Bool
  whole : Nat
  fraction : List (Fin 10)
  exponent : Option Int
  deriving DecidableEq, Repr

/-- A JSON value. -/
inductive Json where
  | null
  | bool (value : Bool)
  | number (value : Json.Number)
  | string (text : String)
  | array (items : List Json)
  | object (members : List (String × Json))
  deriving Repr, Inhabited

/-- The number without fraction and exponent. -/
def Json.ofNat (value : Nat) : Json := .number ⟨false, value, [], none⟩

end Phrasebook
