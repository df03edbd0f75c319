/-
**Faults: why a text or value does not read as what was wanted.**

A fault is either one of form (`malformed`, and for texts `surplusItems`) or one of content, and the
first one from left to right is reported. `Fault.message` words it.

The message names the field, item, variant or value that a fault is about. The words for faults of
form, and those behind `expected`, are this library's own: what is printed may say where a text
breaks off, or expect `a map` or `struct EntityMapping` where here it is `an object` or the title of
a record. So messages that are said to be the same are the same in these words.
-/

import Phrasebook.Json.Draft
import Phrasebook.Text.Quoted

namespace Phrasebook.Json

/-- What was found where something else was expected. -/
inductive Found where
  | null
  | bool (value : Bool)
  | integer (value : Int)
  | floating (value : Float)
  | string (text : String)
  | array
  | object
  /-- The name of a variant that ought to hold a value, without one. -/
  | bareVariant

/-- Why a draft does not read as what was wanted. -/
inductive Fault where
  | malformed
  | surplusItems (length : Nat)
  | wrongType (found : Found) (expected : String)
  | missingItem (length : Nat) (expected : String)
  | missingField (name : String)
  | duplicateField (name : String)
  | unknownVariant (name : String) (expected : String)
  | rejected (reason : String)

/-- Whether a fault lies in the form of the text or in its content. -/
inductive Fault.Category where
  | form
  | content
  deriving DecidableEq, Repr

namespace Fault

/-- The category of a fault in a text. -/
def category : Fault → Category
  | malformed | surplusItems _ => .form
  | _ => .content

/-- The thing found, in words. -/
def describe : Found → String
  | .null => "null"
  | .bool value => "boolean `" ++ toString value ++ "`"
  | .integer value => "integer `" ++ String.ofList (Number.writeInt value) ++ "`"
  | .floating value => "floating point `" ++ Decimal.floatText value ++ "`"
  | .string text => "string " ++ Text.quoted text
  | .array => "sequence"
  | .object => "map"
  | .bareVariant => "unit variant"

/-- The fault in words. -/
def message : Fault → String
  | malformed => "malformed JSON"
  | surplusItems length =>
    "invalid length " ++ toString length ++ ", expected fewer elements in array"
  | wrongType found expected => "invalid type: " ++ describe found ++ ", expected " ++ expected
  | missingItem length expected =>
    "invalid length " ++ toString length ++ ", expected " ++ expected
  | missingField name => "missing field `" ++ name ++ "`"
  | duplicateField name => "duplicate field `" ++ name ++ "`"
  | unknownVariant name expected => "unknown variant `" ++ name ++ "`, expected " ++ expected
  | rejected reason => reason

/-- The fault of a draft that is not what was expected. -/
def unexpected (draft : Draft) (expected : String) : Fault :=
  match draft with
  | .malformed | .string none => malformed
  | .null => wrongType .null expected
  | .bool value => wrongType (.bool value) expected
  | .number value =>
    match value.kind with
    | .integer value => wrongType (.integer value) expected
    | .floating value => wrongType (.floating value) expected
    | .outOfRange => malformed
  | .string (some text) => wrongType (.string text) expected
  | .array _ _ => wrongType .array expected
  | .object _ _ => wrongType .object expected

end Fault

end Phrasebook.Json
