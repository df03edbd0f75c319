/-
**Writing JSON.**

`compact` writes a value without any white space, `pretty` with one member or item a line, indented
by two spaces a level; empty arrays and objects stay on one line. In strings the quote, the
backslash and the control characters are escaped and nothing else.
-/

import Phrasebook.Json.Number

namespace Phrasebook.Json

/-! ### Strings -/

/-- A control character by its code point, in four hexadecimal digits. -/
def controlEscape (character : Char) : List Char :=
  ['\\', 'u', '0', '0', Nat.digitChar (character.toNat / 16), Nat.digitChar (character.toNat % 16)]

/-- A character inside a string. -/
def escapeChar (character : Char) : List Char :=
  if character = '"' then ['\\', '"']
  else if character = '\\' then ['\\', '\\']
  else if character = '\x08' then ['\\', 'b']
  else if character = '\x0c' then ['\\', 'f']
  else if character = '\n' then ['\\', 'n']
  else if character = '\r' then ['\\', 'r']
  else if character = '\t' then ['\\', 't']
  else if character.toNat < 32 then controlEscape character
  else [character]

/-- A text as a JSON string. -/
def quote (text : String) : List Char := '"' :: (text.toList.flatMap escapeChar ++ ['"'])

/-- The word for a truth value. -/
def boolWord : Bool → List Char
  | true => "true".toList
  | false => "false".toList

/-! ### Without white space -/

mutual

/-- A value without white space. -/
def writeCompact : Json → List Char
  | .null => "null".toList
  | .bool value => boolWord value
  | .number value => value.write
  | .string text => quote text
  | .array items => '[' :: (writeItems items ++ [']'])
  | .object members => '{' :: (writeMembers members ++ ['}'])

/-- Items with commas between them. -/
def writeItems : List Json → List Char
  | [] => []
  | [item] => writeCompact item
  | item :: items => writeCompact item ++ ',' :: writeItems items

/-- Members with commas between them. -/
def writeMembers : List (String × Json) → List Char
  | [] => []
  | [(key, value)] => quote key ++ ':' :: writeCompact value
  | (key, value) :: members => quote key ++ ':' :: writeCompact value ++ ',' :: writeMembers members

end

/-- The text of a value without white space. -/
def compact (value : Json) : String := String.ofList value.writeCompact

/-! ### Indented -/

/-- A line break, and the indentation of a level. -/
def newLine (level : Nat) : List Char := '\n' :: List.replicate (2 * level) ' '

mutual

/-- A value over several lines, its own closing bracket standing at `level`. -/
def writePretty (level : Nat) : Json → List Char
  | .null => "null".toList
  | .bool value => boolWord value
  | .number value => value.write
  | .string text => quote text
  | .array [] => ['[', ']']
  | .array (item :: items) =>
    '[' :: (writePrettyItems (level + 1) (item :: items) ++ newLine level ++ [']'])
  | .object [] => ['{', '}']
  | .object (member :: members) =>
    '{' :: (writePrettyMembers (level + 1) (member :: members) ++ newLine level ++ ['}'])

/-- Items, each on its own line, with commas between them. -/
def writePrettyItems (level : Nat) : List Json → List Char
  | [] => []
  | [item] => newLine level ++ writePretty level item
  | item :: items => newLine level ++ writePretty level item ++ ',' :: writePrettyItems level items

/-- Members, each on its own line, with commas between them. -/
def writePrettyMembers (level : Nat) : List (String × Json) → List Char
  | [] => []
  | [(key, value)] => newLine level ++ quote key ++ ':' :: ' ' :: writePretty level value
  | (key, value) :: members =>
    newLine level ++ quote key ++ ':' :: ' ' :: writePretty level value ++
      ',' :: writePrettyMembers level members

end

/-- The text of a value over several lines. -/
def pretty (value : Json) : String := String.ofList (value.writePretty 0)

end Phrasebook.Json
