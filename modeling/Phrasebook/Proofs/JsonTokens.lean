/-
**Strings and numbers are read as they are written.**

A string is scanned element by element: `scanUnits?_escapeChar` says that a character, escaped or
not, is found again whatever follows, and `scanUnits?_quote` says it of a whole string up to its
closing quote. A number is scanned part by part: the digits of each part end where something else
begins, so `scan?_write` needs no more than that the text behind the number does not continue it
(`EndsNumber`).
-/

import Mathlib.Tactic.SplitIfs
import Phrasebook.Json.Draft

namespace Phrasebook.Json

/-! ### Strings -/

namespace Draft

theorem hexDigit?_digitChar : ∀ digit < 16, hexDigit? (Nat.digitChar digit) = some digit := by
  decide

/-- The four digits of a control character write its code point. -/
theorem hexUnit?_controlEscape {character : Char} (control : character.toNat < 32) :
    hexUnit? '0' '0' (Nat.digitChar (character.toNat / 16)) (Nat.digitChar (character.toNat % 16)) =
      some character.toNat := by
  have zero : hexDigit? '0' = some 0 := by decide
  have high := hexDigit?_digitChar (character.toNat / 16) (by omega)
  have low := hexDigit?_digitChar (character.toNat % 16) (by omega)
  have whole : character.toNat / 16 * 16 + character.toNat % 16 = character.toNat := by omega
  simp [hexUnit?, zero, high, low, whole]

theorem unitOf_toNat {character : Char} (control : character.toNat < 32) :
    unitOf character.toNat = .char character := by
  rw [unitOf, if_neg (by omega), Char.ofNat_toNat]

/-- A character that needs no escape stands for itself. -/
theorem scanUnits?_plain {character : Char} (notQuote : character ≠ '"')
    (notBackslash : character ≠ '\\') (printable : ¬character.toNat < 32) (rest : List Char) :
    scanUnits? (character :: rest) = prepend (.char character) (scanUnits? rest) := by
  rw [scanUnits?.eq_def]
  split <;> simp_all [Nat.not_lt.mpr]

/-- A character is found again as it was escaped. -/
theorem scanUnits?_escapeChar (character : Char) (rest : List Char) :
    scanUnits? (escapeChar character ++ rest) = prepend (.char character) (scanUnits? rest) := by
  unfold escapeChar
  split_ifs with quote backslash backspace formFeed newLine return_ tab control
  · rw [quote]; rfl
  · rw [backslash]; rfl
  · rw [backspace]; rfl
  · rw [formFeed]; rfl
  · rw [newLine]; rfl
  · rw [return_]; rfl
  · rw [tab]; rfl
  · rw [controlEscape]
    show scanUnits? ('\\' :: 'u' :: '0' :: '0' :: _ :: _ :: rest) = _
    rw [scanUnits?, hexUnit?_controlEscape control]
    show prepend (unitOf character.toNat) _ = _
    rw [unitOf_toNat control]
  · exact scanUnits?_plain quote backslash control rest

/-- **A string is scanned up to its closing quote**, character by character. -/
theorem scanUnits?_quote (characters rest : List Char) :
    scanUnits? (characters.flatMap escapeChar ++ '"' :: rest) =
      some (characters.map .char, rest) := by
  induction characters with
  | nil => rfl
  | cons character characters ih =>
    rw [List.flatMap_cons, List.append_assoc, scanUnits?_escapeChar, ih]
    rfl

theorem joinUnits?_map_char (characters : List Char) :
    joinUnits? (characters.map .char) = some characters := by
  induction characters with
  | nil => rfl
  | cons character characters ih => rw [List.map_cons, joinUnits?, ih]; rfl

theorem textOf_map_char (text : String) : textOf (text.toList.map .char) = some text := by
  rw [textOf, joinUnits?_map_char, Option.map_some, String.ofList_toList]

end Draft

/-! ### Numbers -/

namespace Number

/-- The text does not continue a number that it stands behind. -/
def EndsNumber (rest : List Char) : Prop :=
  ∀ character ∈ rest.head?, character.isDigit = false ∧ character ≠ '.' ∧ character ≠ 'e' ∧
    character ≠ 'E'

/-- The text does not begin with a digit. -/
def EndsDigits (rest : List Char) : Prop := ∀ character ∈ rest.head?, character.isDigit = false

theorem EndsNumber.endsDigits {rest : List Char} (ends : EndsNumber rest) : EndsDigits rest :=
  fun character first => (ends character first).1

theorem endsDigits_cons {character : Char} (other : character.isDigit = false) (rest : List Char) :
    EndsDigits (character :: rest) := by
  rintro _ ⟨⟩
  exact other

/-- Digits are scanned up to where something else begins. -/
theorem scanDigits?_append {digits rest : List Char} (nonempty : digits ≠ [])
    (all : ∀ character ∈ digits, character.isDigit = true) (ends : EndsDigits rest) :
    scanDigits? (digits ++ rest) = some (digits, rest) := by
  have stop : rest.takeWhile Char.isDigit = [] ∧ rest.dropWhile Char.isDigit = rest := by
    cases rest with
    | nil => exact ⟨rfl, rfl⟩
    | cons character rest => simp [ends character rfl]
  have taken : (digits ++ rest).takeWhile Char.isDigit = digits := by
    rw [List.takeWhile_append_of_pos all, stop.1, List.append_nil]
  have dropped : (digits ++ rest).dropWhile Char.isDigit = rest := by
    rw [List.dropWhile_append_of_pos all, stop.2]
  rw [scanDigits?, taken, dropped]
  cases digits with
  | nil => exact absurd rfl nonempty
  | cons _ _ => rfl

theorem scanDigits?_toDigits (value : Nat) {rest : List Char} (ends : EndsDigits rest) :
    scanDigits? (Nat.toDigits 10 value ++ rest) = some (Nat.toDigits 10 value, rest) :=
  scanDigits?_append Nat.toDigits_ne_nil
    (fun _ member => Nat.isDigit_of_mem_toDigits (by decide) (by decide) member) ends

/-- A number does not begin with a zero unless it is zero. -/
theorem toDigits_ne_zero_cons (value : Nat) (next : Char) (rest : List Char) :
    Nat.toDigits 10 value ≠ '0' :: next :: rest := by
  induction value using Nat.strongRecOn generalizing next rest with
  | ind value ih =>
    intro same
    rw [Nat.toDigits_eq_if (by decide)] at same
    split at same
    next small => simp at same
    next large =>
      -- The digits before the last one are those of a smaller number, which is not zero.
      have smaller : value / 10 < value := by omega
      cases front : Nat.toDigits 10 (value / 10) with
      | nil => exact Nat.toDigits_ne_nil front
      | cons first later =>
        rw [front] at same
        obtain rfl : first = '0' := by simpa using congrArg List.head? same
        cases later with
        | cons second others => exact ih _ smaller second others front
        | nil =>
          have zero := Nat.ofDigitChars_toDigits (b := 10) (n := value / 10) (by decide) (by decide)
          rw [front] at zero
          have : value / 10 = 0 := zero.symm.trans (by decide)
          omega

theorem scanWhole?_toDigits (value : Nat) {rest : List Char} (ends : EndsDigits rest) :
    scanWhole? (Nat.toDigits 10 value ++ rest) = some (value, rest) := by
  rw [scanWhole?, scanDigits?_toDigits value ends]
  split
  next same =>
    simp only [Option.some.injEq, Prod.mk.injEq] at same
    exact absurd same.1 (toDigits_ne_zero_cons value _ _)
  next same =>
    simp only [Option.some.injEq, Prod.mk.injEq] at same
    rw [← same.1, ← same.2, Nat.ofDigitChars_toDigits (by decide) (by decide)]
  next same => cases same

theorem digitOf_digitChar (digit : Fin 10) : digitOf (Nat.digitChar digit.val) = digit := by
  revert digit
  decide

theorem scanFraction?_write (digits : List (Fin 10)) {rest : List Char} (ends : EndsDigits rest)
    (noPoint : rest.head? ≠ some '.') :
    scanFraction? (writeFraction digits ++ rest) = some (digits, rest) := by
  cases digits with
  | nil =>
    show scanFraction? rest = _
    cases rest with
    | nil => rfl
    | cons character rest =>
      have other : character ≠ '.' := fun same => noPoint (by rw [same]; rfl)
      rw [scanFraction?.eq_def]
      split <;> simp_all
  | cons digit digits =>
    have nonempty : (digit :: digits).map (fun digit => Nat.digitChar digit.val) ≠ [] := by simp
    have scanned := scanDigits?_append nonempty (by simp [Nat.isDigit_digitChar]) ends
    rw [writeFraction, if_neg (by simp), List.cons_append, scanFraction?, scanned]
    simp [Function.comp_def, digitOf_digitChar]

/-- The exponent as it is written, with its letter. -/
def writeExponent : Option Int → List Char
  | none => []
  | some exponent => 'e' :: writeInt exponent

theorem scanExponentDigits?_toDigits (negative : Bool) (size : Nat) {rest : List Char}
    (ends : EndsDigits rest) :
    scanExponentDigits? negative (Nat.toDigits 10 size ++ rest) =
      some (some (if negative then -(size : Int) else size), rest) := by
  rw [scanExponentDigits?, scanDigits?_toDigits size ends]
  simp [Nat.ofDigitChars_toDigits]

theorem scanExponent?_write (exponent : Option Int) {rest : List Char} (ends : EndsNumber rest) :
    scanExponent? (writeExponent exponent ++ rest) = some (exponent, rest) := by
  cases exponent with
  | none =>
    show scanExponent? rest = _
    cases rest with
    | nil => rfl
    | cons character rest =>
      obtain ⟨_, _, small, capital⟩ := ends character rfl
      rw [scanExponent?.eq_def]
      split <;> simp_all
  | some exponent =>
    cases exponent with
    | negSucc size =>
      show scanExponentDigits? true (Nat.toDigits 10 (size + 1) ++ rest) = _
      rw [scanExponentDigits?_toDigits _ _ ends.endsDigits]
      rfl
    | ofNat size =>
      have unsigned : scanExponent? ('e' :: (Nat.toDigits 10 size ++ rest)) =
          scanExponentDigits? false (Nat.toDigits 10 size ++ rest) := by
        cases digits : Nat.toDigits 10 size with
        | nil => exact absurd digits Nat.toDigits_ne_nil
        | cons first others =>
          have digit : first.isDigit = true :=
            Nat.isDigit_of_mem_toDigits (b := 10) (n := size) (by decide) (by decide)
              (digits ▸ List.mem_cons_self)
          rw [List.cons_append, scanExponent?]
          · rintro _ ⟨⟩
            cases digit
          · rintro _ ⟨⟩
            cases digit
      show scanExponent? ('e' :: (Nat.toDigits 10 size ++ rest)) = _
      rw [unsigned, scanExponentDigits?_toDigits _ _ ends.endsDigits]
      rfl

theorem write_eq (number : Number) :
    number.write = (if number.negative then ['-'] else []) ++ (Nat.toDigits 10 number.whole ++
      (writeFraction number.fraction ++ writeExponent number.exponent)) := by
  rw [write, List.append_assoc, List.append_assoc]
  cases number.exponent <;> rfl

/-- A number begins with a minus or a digit. -/
theorem write_eq_cons (number : Number) :
    ∃ first others, number.write = first :: others ∧ (first = '-' ∨ first.isDigit = true) := by
  rw [write_eq]
  cases number.negative with
  | true => exact ⟨'-', _, rfl, .inl rfl⟩
  | false =>
    cases digits : Nat.toDigits 10 number.whole with
    | nil => exact absurd digits Nat.toDigits_ne_nil
    | cons first others =>
      exact ⟨first, _, rfl, .inr (Nat.isDigit_of_mem_toDigits (b := 10) (n := number.whole)
        (by decide) (by decide) (digits ▸ List.mem_cons_self))⟩

/-- What follows the whole part, and what follows the fraction, does not begin with a digit. -/
theorem endsDigits_writeExponent (exponent : Option Int) {rest : List Char}
    (ends : EndsNumber rest) : EndsDigits (writeExponent exponent ++ rest) := by
  cases exponent with
  | none => exact ends.endsDigits
  | some exponent => exact endsDigits_cons (by decide) _

theorem head?_writeExponent (exponent : Option Int) {rest : List Char} (ends : EndsNumber rest) :
    (writeExponent exponent ++ rest).head? ≠ some '.' := by
  cases exponent with
  | none =>
    intro point
    exact (ends '.' point).2.1 rfl
  | some exponent => rintro ⟨⟩

theorem endsDigits_writeFraction (digits : List (Fin 10)) {rest : List Char}
    (ends : EndsDigits rest) : EndsDigits (writeFraction digits ++ rest) := by
  cases digits with
  | nil => exact ends
  | cons digit digits => exact endsDigits_cons (by decide) _

/-- **A number is read as it is written**, up to a text that does not continue it. -/
theorem scan?_write (number : Number) {rest : List Char} (ends : EndsNumber rest) :
    scan? (number.write ++ rest) = some (number, rest) := by
  obtain ⟨negative, whole, fraction, exponent⟩ := number
  have exponentEnds := endsDigits_writeExponent exponent ends
  have parts : ((scanWhole? (Nat.toDigits 10 whole ++ (writeFraction fraction ++
        (writeExponent exponent ++ rest)))).bind fun whole =>
      (scanFraction? whole.2).bind fun fraction =>
        (scanExponent? fraction.2).bind fun exponent =>
          some ((⟨negative, whole.1, fraction.1, exponent.1⟩ : Number), exponent.2)) =
      some (⟨negative, whole, fraction, exponent⟩, rest) := by
    rw [scanWhole?_toDigits whole (endsDigits_writeFraction fraction exponentEnds),
      Option.bind_some,
      scanFraction?_write fraction exponentEnds (head?_writeExponent exponent ends),
      Option.bind_some, scanExponent?_write exponent ends]
    rfl
  rw [write_eq]
  cases negative with
  | true =>
    simp only [if_true, List.append_assoc, List.cons_append, List.nil_append]
    exact parts
  | false =>
    cases digits : Nat.toDigits 10 whole with
    | nil => exact absurd digits Nat.toDigits_ne_nil
    | cons first others =>
      have digit : first.isDigit = true :=
        Nat.isDigit_of_mem_toDigits (b := 10) (n := whole) (by decide) (by decide)
          (digits ▸ List.mem_cons_self)
      rw [digits] at parts
      simp only [Bool.false_eq_true, if_false, List.nil_append, List.append_assoc,
        List.cons_append] at parts ⊢
      rw [scan?]
      · exact parts
      · rintro _ ⟨⟩
        cases digit

end Number

end Phrasebook.Json
