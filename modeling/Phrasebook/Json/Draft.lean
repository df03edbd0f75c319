/-
**Drafts: JSON texts as far as they can be read.**

A draft holds what stands in a text up to its first malformed spot. The spot itself is `malformed`,
or an array or object that does not close; nothing behind it is looked at. So a reader that walks a
draft from left to right meets the faults of the text in their order, whether they are faults of
form or of content.

Strings need care: an escape for half of a surrogate pair has no meaning as text, yet a reader that
skips the string does not mind. Such a string, or key, is drafted as `none`.

`Draft.ofText` scans a text, `Draft.ofJson` drafts a value that is already in memory.
-/

import Phrasebook.Json.Writer
import Phrasebook.Dictionary

namespace Phrasebook.Json

/-- What a text holds up to its first malformed spot. -/
inductive Draft where
  | malformed
  | null
  | bool (value : Bool)
  | number (value : Number)
  | string (text : Option String)
  /-- Items, and whether the closing bracket follows them. -/
  | array (items : List Draft) (closed : Bool)
  /-- Members, and whether the closing brace follows them. -/
  | object (members : List (Option String × Draft)) (closed : Bool)
  deriving Repr, Inhabited

namespace Draft

/-! ### Wholeness -/

mutual

/-- Whether nothing in the draft is malformed. -/
def isWhole : Draft → Bool
  | .malformed => false
  | .null | .bool _ | .number _ | .string _ => true
  | .array items closed => closed && areWhole items
  | .object members closed => closed && membersWhole members

/-- Whether all items are whole. -/
def areWhole : List Draft → Bool
  | [] => true
  | item :: items => item.isWhole && areWhole items

/-- Whether the values of all members are whole. -/
def membersWhole : List (Option String × Draft) → Bool
  | [] => true
  | (_, value) :: members => value.isWhole && membersWhole members

end

/-! ### Scanning strings -/

/-- Whether the character may stand between the tokens of a text. -/
def isSpace (character : Char) : Bool :=
  character == ' ' || character == '\n' || character == '\t' || character == '\r'

/-- The text from its first token on. -/
def skipSpace (text : List Char) : List Char := text.dropWhile isSpace

/-- The value of a hexadecimal digit. -/
def hexDigit? (character : Char) : Option Nat :=
  if character.isDigit then some (character.toNat - '0'.toNat)
  else if 'a' ≤ character ∧ character ≤ 'f' then some (character.toNat - 'a'.toNat + 10)
  else if 'A' ≤ character ∧ character ≤ 'F' then some (character.toNat - 'A'.toNat + 10)
  else none

/-- The number that four hexadecimal digits write. -/
def hexUnit? (first second third fourth : Char) : Option Nat := do
  let first ← hexDigit? first
  let second ← hexDigit? second
  let third ← hexDigit? third
  let fourth ← hexDigit? fourth
  return ((first * 16 + second) * 16 + third) * 16 + fourth

/-- The character that a backslash before this one stands for. -/
def simpleEscape? : Char → Option Char
  | '"' => some '"'
  | '\\' => some '\\'
  | '/' => some '/'
  | 'b' => some '\x08'
  | 'f' => some '\x0c'
  | 'n' => some '\n'
  | 'r' => some '\r'
  | 't' => some '\t'
  | _ => none

/-- An element of a string: a character, or an escape for half of a surrogate pair. -/
inductive StringUnit where
  | char (character : Char)
  | half (unit : Nat)
  deriving DecidableEq, Repr

/-- The element that an escape of four hexadecimal digits stands for. -/
def unitOf (unit : Nat) : StringUnit :=
  if 0xd800 ≤ unit ∧ unit < 0xe000 then .half unit else .char (Char.ofNat unit)

/-- An element in front of those scanned behind it. -/
def prepend (unit : StringUnit) (scanned : Option (List StringUnit × List Char)) :
    Option (List StringUnit × List Char) :=
  scanned.map fun (units, rest) => (unit :: units, rest)

/-- The elements of a string behind its opening quote, and what follows the closing quote. Fails on
a control character, an unknown escape, or when there is no closing quote. -/
def scanUnits? : List Char → Option (List StringUnit × List Char)
  | [] => none
  | '"' :: rest => some ([], rest)
  | '\\' :: 'u' :: first :: second :: third :: fourth :: rest =>
    match hexUnit? first second third fourth with
    | none => none
    | some unit => prepend (unitOf unit) (scanUnits? rest)
  | '\\' :: escape :: rest =>
    match simpleEscape? escape with
    | none => none
    | some character => prepend (.char character) (scanUnits? rest)
  | character :: rest =>
    if character.toNat < 32 ∨ character = '\\' then none
    else prepend (.char character) (scanUnits? rest)

/-- The character of a surrogate pair. -/
def pairChar (high low : Nat) : Char :=
  Char.ofNat (0x10000 + (high - 0xd800) * 0x400 + (low - 0xdc00))

/-- The characters that the elements make up, unless a half of a surrogate pair is left alone. -/
def joinUnits? : List StringUnit → Option (List Char)
  | [] => some []
  | .char character :: units => (joinUnits? units).map (character :: ·)
  | .half high :: .half low :: units =>
    if high < 0xdc00 ∧ 0xdc00 ≤ low then (joinUnits? units).map (pairChar high low :: ·) else none
  | .half _ :: _ => none

/-- The text that the elements make up. -/
def textOf (units : List StringUnit) : Option String := (joinUnits? units).map String.ofList

/-! ### Scanning values

A scanner returns what follows the part it has read, or `none` behind a malformed spot. Each call
within a call gets one less unit of `fuel`, and there is one for every character of the text. -/

mutual

/-- The value at the front of the text. -/
def scanValue : Nat → List Char → Draft × Option (List Char)
  | 0, _ => (.malformed, none)
  | fuel + 1, text =>
    match skipSpace text with
    | 'n' :: 'u' :: 'l' :: 'l' :: rest => (.null, some rest)
    | 't' :: 'r' :: 'u' :: 'e' :: rest => (.bool true, some rest)
    | 'f' :: 'a' :: 'l' :: 's' :: 'e' :: rest => (.bool false, some rest)
    | '"' :: rest =>
      match scanUnits? rest with
      | some (units, rest) => (.string (textOf units), some rest)
      | none => (.malformed, none)
    | '[' :: rest =>
      match skipSpace rest with
      | ']' :: rest => (.array [] true, some rest)
      | rest =>
        let (items, rest) := scanItems fuel rest
        (.array items rest.isSome, rest)
    | '{' :: rest =>
      match skipSpace rest with
      | '}' :: rest => (.object [] true, some rest)
      | '"' :: rest =>
        let (members, rest) := scanMembers fuel rest
        (.object members rest.isSome, rest)
      | _ => (.object [] false, none)
    | rest =>
      match Number.scan? rest with
      | some (value, rest) => (.number value, some rest)
      | none => (.malformed, none)

/-- The items from the next one to the closing bracket. -/
def scanItems : Nat → List Char → List Draft × Option (List Char)
  | 0, _ => ([.malformed], none)
  | fuel + 1, text =>
    match scanValue fuel text with
    | (item, none) => ([item], none)
    | (item, some rest) =>
      match skipSpace rest with
      | ',' :: rest =>
        let (items, rest) := scanItems fuel rest
        (item :: items, rest)
      | ']' :: rest => ([item], some rest)
      | _ => ([item], none)

/-- The members from behind the opening quote of the next key to the closing brace. -/
def scanMembers : Nat → List Char → List (Option String × Draft) × Option (List Char)
  | 0, _ => ([], none)
  | fuel + 1, text =>
    match scanUnits? text with
    | none => ([], none)
    | some (units, rest) =>
      let key := textOf units
      match skipSpace rest with
      | ':' :: rest =>
        match scanValue fuel rest with
        | (value, none) => ([(key, value)], none)
        | (value, some rest) =>
          match skipSpace rest with
          | ',' :: rest =>
            match skipSpace rest with
            | '"' :: rest =>
              let (members, rest) := scanMembers fuel rest
              ((key, value) :: members, rest)
            | _ => ([(key, value)], none)
          | '}' :: rest => ([(key, value)], some rest)
          | _ => ([(key, value)], none)
      | _ => ([(key, .malformed)], none)

end

/-- The draft of a text, and whether nothing but white space follows it. -/
def ofText (text : String) : Draft × Bool :=
  let (draft, rest) := scanValue (text.toList.length + 1) text.toList
  (draft, rest.any fun rest => (skipSpace rest).isEmpty)

/-! ### Drafts of values -/

mutual

/-- The draft of a value in memory. Its objects are maps, so their members stand in key order and of
members with the same key only the last is left. -/
def ofJson : Json → Draft
  | .null => .null
  | .bool value => .bool value
  | .number value => .number value
  | .string text => .string (some text)
  | .array items => .array (ofItems items) true
  | .object members =>
    .object ((Dictionary.ofList (ofMembers members)).entries.map fun (key, draft) =>
      (some key, draft)) true

/-- The drafts of items. -/
def ofItems : List Json → List Draft
  | [] => []
  | item :: items => ofJson item :: ofItems items

/-- The drafts of members. -/
def ofMembers : List (String × Json) → List (String × Draft)
  | [] => []
  | (key, value) :: members => (key, ofJson value) :: ofMembers members

end

mutual

/-- The value that a whole draft describes, if all its strings are texts. -/
def toJson? : Draft → Option Json
  | .malformed => none
  | .null => some .null
  | .bool value => some (.bool value)
  | .number value => some (.number value)
  | .string text => text.map .string
  | .array items closed => if closed then (toItems? items).map .array else none
  | .object members closed => if closed then (toMembers? members).map .object else none

/-- The values of items. -/
def toItems? : List Draft → Option (List Json)
  | [] => some []
  | item :: items => do return (← item.toJson?) :: (← toItems? items)

/-- The values of members. -/
def toMembers? : List (Option String × Draft) → Option (List (String × Json))
  | [] => some []
  | (key, value) :: members => do return (← key, ← value.toJson?) :: (← toMembers? members)

end

end Draft

/-- The value of a text. -/
def parse? (text : String) : Option Json :=
  let (draft, complete) := Draft.ofText text
  if complete then draft.toJson? else none

end Phrasebook.Json
