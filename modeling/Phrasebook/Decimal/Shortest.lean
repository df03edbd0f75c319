/-
**The shortest decimal of a binary fraction.**

A binary floating-point number stands for every real that rounds to it. `shortest` gives the decimal
with the fewest digits among those reals, and of these the one nearest to the number itself, an even
last digit winning a tie. `floatText` writes it: positionally as long as the point falls at most
sixteen digits behind the first digit or at most five places before it, and with a signed exponent
otherwise.
-/

namespace Phrasebook.Decimal

/-- A nonnegative fraction. -/
structure Ratio where
  numerator : Nat
  denominator : Nat

namespace Ratio

/-- The fraction `significand · base ^ exponent`. -/
def scaled (base significand : Nat) (exponent : Int) : Ratio :=
  match exponent with
  | .ofNat power => ⟨significand * base.pow power, 1⟩
  | .negSucc power => ⟨significand, base.pow (power + 1)⟩

/-- Whether the first fraction is less than the second. -/
def less (first second : Ratio) : Bool :=
  first.numerator * second.denominator < second.numerator * first.denominator

/-- Whether the two fractions are equal. -/
def same (first second : Ratio) : Bool :=
  first.numerator * second.denominator == second.numerator * first.denominator

end Ratio

/-- A positive binary number: `significand · 2 ^ exponent`, and whether the next smaller number is
only half as far away as the next larger one. -/
structure Binary where
  significand : Nat
  exponent : Int
  narrowBelow : Bool

namespace Binary

/-- The number itself. -/
def value (number : Binary) : Ratio := .scaled 2 number.significand number.exponent

/-- The lower end of the reals that round to the number. -/
def lower (number : Binary) : Ratio :=
  if number.narrowBelow then .scaled 2 (4 * number.significand - 1) (number.exponent - 2)
  else .scaled 2 (2 * number.significand - 1) (number.exponent - 1)

/-- The upper end of the reals that round to the number. -/
def upper (number : Binary) : Ratio := .scaled 2 (2 * number.significand + 1) (number.exponent - 1)

/-- Whether the fraction rounds to the number; the two ends do when the significand is even. -/
def covers (number : Binary) (ratio : Ratio) : Bool :=
  let ends := number.significand % 2 == 0
  (number.lower.less ratio || (ends && number.lower.same ratio)) &&
    (ratio.less number.upper || (ends && number.upper.same ratio))

end Binary

/-- The place of the first digit of a fraction of less than one, searched from place `-place` down
in at most `fuel` steps. -/
def placeBelowOne (ratio : Ratio) : Nat → Nat → Int
  | 0, place => -place
  | fuel + 1, place =>
    if ratio.numerator * Nat.pow 10 place ≥ ratio.denominator then -place
    else placeBelowOne ratio fuel (place + 1)

/-- The place of the first digit: `p` where the fraction lies from `10 ^ p` to below
`10 ^ (p + 1)`. -/
def leadingPlace (ratio : Ratio) : Int :=
  let whole := ratio.numerator / ratio.denominator
  if whole = 0 then placeBelowOne ratio 400 1 else (Nat.toDigits 10 whole).length - 1

/-- The covered neighbour of the number on the grid of multiples of `10 ^ place`, the nearer one of
two. -/
def onGrid? (number : Binary) (place : Int) : Option Nat :=
  let value := number.value
  let below := match place with
    | .ofNat power => value.numerator / (value.denominator * Nat.pow 10 power)
    | .negSucc power => value.numerator * Nat.pow 10 (power + 1) / value.denominator
  let above := below + 1
  let covered (digits : Nat) : Bool := digits != 0 && number.covers (.scaled 10 digits place)
  match covered below, covered above with
  | true, true =>
    let middle := Ratio.scaled 10 (2 * below + 1) place
    let doubled : Ratio := ⟨2 * value.numerator, value.denominator⟩
    if doubled.less middle then some below
    else if middle.less doubled then some above
    else some (if below % 2 = 0 then below else above)
  | true, false => some below
  | false, true => some above
  | false, false => none

/-- The first grid with a covered neighbour, from `place` down in at most `fuel` steps. -/
def shortestFrom (number : Binary) : Nat → Int → Nat × Int
  | 0, place => (0, place)
  | fuel + 1, place =>
    match onGrid? number place with
    | some digits => (digits, place)
    | none => shortestFrom number fuel (place - 1)

/-- The digits and the place of the last digit of the shortest decimal that rounds to the number. -/
def shortest (number : Binary) : Nat × Int :=
  shortestFrom number 18 (leadingPlace number.value + 1)

/-! ### Writing -/

/-- Zeros. -/
def zeros (count : Nat) : List Char := List.replicate count '0'

/-- An exponent with its sign, which is written for exponents of both signs. -/
def signedText (exponent : Int) : List Char :=
  (if exponent < 0 then '-' else '+') :: Nat.toDigits 10 exponent.natAbs

/-- The decimal `digits · 10 ^ place`. -/
def decimalText (digits : List Char) (place : Int) : List Char :=
  let point := digits.length + place
  if 0 ≤ place ∧ point ≤ 16 then digits ++ zeros place.toNat ++ ['.', '0']
  else if 0 < point ∧ point ≤ 16 then
    digits.take point.toNat ++ '.' :: digits.drop point.toNat
  else if -5 < point ∧ point ≤ 0 then '0' :: '.' :: (zeros (-point).toNat ++ digits)
  else
    let exponent := signedText (point - 1)
    match digits with
    | [digit] => digit :: 'e' :: exponent
    | digit :: others => digit :: '.' :: (others ++ 'e' :: exponent)
    | [] => []

/-- The decimal without trailing zero digits. -/
def trimZeros (digits : List Char) (place : Int) : List Char × Int :=
  let kept := (digits.reverse.dropWhile (· == '0')).reverse
  (kept, place + (digits.length - kept.length : Nat))

/-- The parts of the bits of a finite double: the sign, and the number unless it is zero. -/
def binaryOfBits (bits : UInt64) : Bool × Option Binary :=
  let fraction := (bits &&& 0xfffffffffffff).toNat
  let scale := ((bits >>> 52) &&& 0x7ff).toNat
  let magnitude :=
    if scale = 0 then
      if fraction = 0 then none else some ⟨fraction, -1074, false⟩
    else some ⟨fraction + Nat.pow 2 52, scale - 1075, fraction = 0 && scale > 1⟩
  (bits >>> 63 == 1, magnitude)

/-- A finite double in the fewest digits that identify it. -/
def floatText (value : Float) : String :=
  let (negative, magnitude) := binaryOfBits value.toBits
  let text := match magnitude with
    | none => ['0', '.', '0']
    | some number =>
      let (digits, place) := shortest number
      let (digits, place) := trimZeros (Nat.toDigits 10 digits) place
      decimalText digits place
  String.ofList (if negative then '-' :: text else text)

end Phrasebook.Decimal
