/-
**Numbers: written form, reading and kind.**

`Number.write` gives the written form and `Number.scan?` reads one from the front of a text. A
reader that has no use for a number reports it by its `kind`: an integer if it is written without
point and exponent and fits into 64 bits, and a binary floating-point number otherwise, unless it
is too large for one.
-/

import Phrasebook.Json.Value
import Phrasebook.Decimal.Shortest

namespace Phrasebook.Json.Number

/-! ### Written form -/

/-- An integer in decimal digits. -/
def writeInt : Int → List Char
  | .ofNat value => Nat.toDigits 10 value
  | .negSucc value => '-' :: Nat.toDigits 10 (value + 1)

/-- The part behind the whole digits. -/
def writeFraction (digits : List (Fin 10)) : List Char :=
  if digits.isEmpty then [] else '.' :: digits.map fun digit => Nat.digitChar digit.val

/-- The number as it is written. -/
def write (number : Number) : List Char :=
  let sign := if number.negative then ['-'] else []
  let exponent := match number.exponent with
    | none => []
    | some exponent => 'e' :: writeInt exponent
  sign ++ Nat.toDigits 10 number.whole ++ writeFraction number.fraction ++ exponent

/-! ### Reading -/

/-- The value of a decimal digit. -/
def digitOf (character : Char) : Fin 10 := Fin.ofNat 10 (character.toNat - '0'.toNat)

/-- The digits at the front of the text, if there are any, and the text behind them. -/
def scanDigits? (text : List Char) : Option (List Char × List Char) :=
  match text.takeWhile Char.isDigit with
  | [] => none
  | digits => some (digits, text.dropWhile Char.isDigit)

/-- The whole part at the front of the text: digits that begin with a zero only when it is alone. -/
def scanWhole? (text : List Char) : Option (Nat × List Char) :=
  match scanDigits? text with
  | some ('0' :: _ :: _, _) => none
  | some (digits, rest) => some (Nat.ofDigitChars 10 digits 0, rest)
  | none => none

/-- The fraction at the front of the text, empty when there is no point. -/
def scanFraction? (text : List Char) : Option (List (Fin 10) × List Char) :=
  match text with
  | '.' :: rest => (scanDigits? rest).map fun (digits, rest) => (digits.map digitOf, rest)
  | rest => some ([], rest)

/-- The digits of an exponent. -/
def scanExponentDigits? (negative : Bool) (text : List Char) : Option (Option Int × List Char) :=
  (scanDigits? text).map fun (digits, rest) =>
    let size : Int := Nat.ofDigitChars 10 digits 0
    (some (if negative then -size else size), rest)

/-- The exponent at the front of the text, if there is one. -/
def scanExponent? (text : List Char) : Option (Option Int × List Char) :=
  match text with
  | 'e' :: rest | 'E' :: rest =>
    match rest with
    | '-' :: rest => scanExponentDigits? true rest
    | '+' :: rest => scanExponentDigits? false rest
    | rest => scanExponentDigits? false rest
  | rest => some (none, rest)

/-- The number at the front of the text, and the text behind it. -/
def scan? (text : List Char) : Option (Number × List Char) := do
  let (negative, text) := match text with
    | '-' :: rest => (true, rest)
    | rest => (false, rest)
  let (whole, text) ← scanWhole? text
  let (fraction, text) ← scanFraction? text
  let (exponent, text) ← scanExponent? text
  return (⟨negative, whole, fraction, exponent⟩, text)

/-! ### Kind -/

/-- What a number is to a reader that has no use for it. -/
inductive Kind where
  | integer (value : Int)
  | floating (value : Float)
  | outOfRange

/-- The largest significand. -/
def significandLimit : Nat := Nat.pow 2 64

/-- The significand and the exponent of ten after one more whole digit. Digits that do not fit count
as zeros. -/
def pushWhole (state : Nat × Int) (digit : Nat) : Nat × Int :=
  let (significand, dropped) := state
  if dropped = 0 ∧ significand * 10 + digit < significandLimit then (significand * 10 + digit, 0)
  else (significand, dropped + 1)

/-- The significand and the exponent of ten after the fraction digits, of which those are left out
that come after one that does not fit. -/
def pushFraction : Nat × Int → List (Fin 10) → Nat × Int
  | state, [] => state
  | (significand, exponent), digit :: digits =>
    if significand * 10 + digit < significandLimit then
      pushFraction (significand * 10 + digit, exponent - 1) digits
    else (significand, exponent)

/-- The value divided by ten to the power `exponent`, in steps that a floating-point number can
take. -/
def divideByPower (value : Float) (exponent : Nat) : Float :=
  if exponent ≤ 308 ∨ value == 0 then value / Float.ofScientific 1 false (min exponent 308)
  else divideByPower (value / 1e308) (exponent - 308)
termination_by exponent
decreasing_by omega

/-- The floating-point number of a significand and an exponent of ten, if it is finite. -/
def scale (significand : Nat) (exponent : Int) : Option Float :=
  let value := significand.toUInt64.toFloat
  match exponent with
  | .ofNat power =>
    if significand = 0 then some 0
    else if power > 308 then none
    else
      let scaled := value * Float.ofScientific 1 false power
      if scaled.isInf then none else some scaled
  | .negSucc power => some (divideByPower value (power + 1))

/-- The kind of a number. -/
def kind (number : Number) : Kind :=
  let (significand, dropped) := (Nat.toDigits 10 number.whole).foldl
    (fun state digit => pushWhole state (digit.toNat - '0'.toNat)) (0, 0)
  let integral := number.fraction.isEmpty && number.exponent.isNone && dropped == 0
  if integral && !number.negative then .integer significand
  else if integral && 0 < significand && significand ≤ Nat.pow 2 63 then .integer (-significand)
  else
    let (significand, exponent) := pushFraction (significand, dropped) number.fraction
    match scale significand (exponent + number.exponent.getD 0) with
    | none => .outOfRange
    | some value => .floating (if number.negative then -value else value)

end Phrasebook.Json.Number
