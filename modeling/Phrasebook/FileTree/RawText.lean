/-
**Bytes where a text is expected.**

The file system keeps the names of entries, and where links lead, as bytes. Mostly they are the UTF-8
of a text, but they need not be: `text?` is the text if there is one (`text?_eq_some_iff`), and
`shown` is what is shown in any case. Raw texts are in the order of their bytes, which is the order
in which a directory is listed.
-/

namespace Phrasebook

/-- What the file system keeps for a text. -/
structure RawText where
  bytes : List UInt8
  deriving DecidableEq, Repr

namespace RawText

/-- The raw text of a text, its UTF-8. -/
def of (text : String) : RawText := ⟨text.toUTF8.data.toList⟩

instance : Coe String RawText := ⟨of⟩

/-- The number of bytes. -/
def size (raw : RawText) : Nat := raw.bytes.length

/-- The text, if the bytes are the UTF-8 of one. -/
def text? (raw : RawText) : Option String := String.fromUTF8? ⟨raw.bytes.toArray⟩

/-! ### Order -/

instance : Ord RawText := ⟨compareOn bytes⟩

instance : Std.TransOrd RawText := inferInstanceAs (Std.TransCmp (compareOn bytes))

instance : Std.LawfulEqOrd RawText where
  compare_self {raw} := show compare raw.bytes raw.bytes = .eq from Std.ReflCmp.compare_self
  eq_of_compare {first second} same := by
    cases first
    cases second
    exact congrArg mk (Std.LawfulEqCmp.eq_of_compare same)

/-! ### Texts -/

theorem text?_eq_some_iff {raw : RawText} {text : String} :
    raw.text? = some text ↔ raw = of text := by
  constructor
  · intro read
    rw [text?, String.fromUTF8?] at read
    split at read
    next =>
      cases read
      rfl
    next => cases read
  · rintro rfl
    exact dif_pos text.isValidUTF8

@[simp]
theorem text?_of (text : String) : (of text).text? = some text := text?_eq_some_iff.mpr rfl

@[simp]
theorem of_inj {first second : String} : of first = of second ↔ first = second :=
  ⟨fun same => Option.some.inj (by rw [← text?_of, same, text?_of]), congrArg of⟩

@[simp]
theorem size_of (text : String) : (of text).size = text.utf8ByteSize := rfl

/-! ### What is shown -/

/-- What may follow a byte that begins a character of several: the bounds of the next byte, and how
many bytes there are behind that. -/
def following? (lead : UInt8) : Option (UInt8 × UInt8 × Nat) :=
  if lead < 0xC2 then none
  else if lead ≤ 0xDF then some (0x80, 0xBF, 0)
  else if lead = 0xE0 then some (0xA0, 0xBF, 1)
  else if lead = 0xED then some (0x80, 0x9F, 1)
  else if lead ≤ 0xEF then some (0x80, 0xBF, 1)
  else if lead = 0xF0 then some (0x90, 0xBF, 2)
  else if lead ≤ 0xF3 then some (0x80, 0xBF, 2)
  else if lead = 0xF4 then some (0x80, 0x8F, 2)
  else none

/-- As many of the bytes as can stand behind the leading one. -/
def follow (lead : UInt8) : List UInt8 → List UInt8
  | [] => []
  | next :: rest =>
    match following? lead with
    | none => []
    | some (low, high, more) =>
      if low ≤ next ∧ next ≤ high then
        next :: (rest.take more).takeWhile fun byte => 0x80 ≤ byte && byte ≤ 0xBF
      else []

/-- The character that a leading byte and those behind it make up, if none is missing; otherwise the
one that is shown instead. -/
def character (lead : UInt8) (behind : List UInt8) : Char :=
  let read := behind.foldl (fun value byte => value * 64 + byte.toNat % 64)
  match following? lead, behind.length with
  | some (_, _, 0), 1 => Char.ofNat (read (lead.toNat % 32))
  | some (_, _, 1), 2 => Char.ofNat (read (lead.toNat % 16))
  | some (_, _, 2), 3 => Char.ofNat (read (lead.toNat % 8))
  | _, _ => '\ufffd'

/-- The characters of bytes, with another one in place of each stretch that is no character. -/
def characters : List UInt8 → List Char
  | [] => []
  | lead :: rest =>
    if lead < 0x80 then Char.ofNat lead.toNat :: characters rest
    else character lead (follow lead rest) :: characters (rest.drop (follow lead rest).length)
termination_by bytes => bytes.length
decreasing_by all_goals simp only [List.length_cons, List.length_drop]; omega

/-- What is shown of the bytes: their text, or as much of one as there is in them. -/
def shown (raw : RawText) : String := raw.text?.getD (String.ofList (characters raw.bytes))

@[simp]
theorem shown_of (text : String) : (of text).shown = text := by
  rw [shown, text?_of, Option.getD_some]

/-- A byte that begins no character, and a character that is cut off. -/
example : shown ⟨[0x61, 0xFF, 0xE2, 0x82, 0x62, 0xC3, 0xA9]⟩ = "a\ufffd\ufffdb\u00e9" := by
  cbv

end RawText

end Phrasebook
