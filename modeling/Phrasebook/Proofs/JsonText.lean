/-
**JSON texts and what they hold.**

`Spells value text` is the grammar: the text writes the value, with white space between the tokens
as one likes. Both written forms of a value belong to it (`spells_writeCompact`,
`spells_writePretty`). A text of the grammar is scanned to its end, and its draft is that of the
value (`Spells.scanValue_eq`); so it is read as the value, however it is laid out
(`Spells.parse?_eq`).
-/

import Phrasebook.Proofs.JsonTokens

namespace Phrasebook.Json

open Draft Number

/-! ### The grammar -/

/-- Nothing but white space. -/
def IsGap (text : List Char) : Prop := ∀ character ∈ text, isSpace character = true

mutual

/-- The text writes the value. -/
inductive Spells : Json → List Char → Prop where
  | null : Spells .null "null".toList
  | bool (value : Bool) : Spells (.bool value) (boolWord value)
  | number (value : Number) : Spells (.number value) value.write
  | string (text : String) : Spells (.string text) (quote text)
  | array {items : List Json} {text : List Char} :
      SpellsItems items text → Spells (.array items) ('[' :: (text ++ [']']))
  | object {members : List (String × Json)} {text : List Char} :
      SpellsMembers members text → Spells (.object members) ('{' :: (text ++ ['}']))

/-- The text writes the items between the brackets of an array. -/
inductive SpellsItems : List Json → List Char → Prop where
  | none {gap : List Char} : IsGap gap → SpellsItems [] gap
  | last {item : Json} {before text after : List Char} :
      IsGap before → Spells item text → IsGap after →
      SpellsItems [item] (before ++ (text ++ after))
  | more {item next : Json} {items : List Json} {before text after others : List Char} :
      IsGap before → Spells item text → IsGap after → SpellsItems (next :: items) others →
      SpellsItems (item :: next :: items) (before ++ (text ++ (after ++ ',' :: others)))

/-- The text writes the members between the braces of an object. -/
inductive SpellsMembers : List (String × Json) → List Char → Prop where
  | none {gap : List Char} : IsGap gap → SpellsMembers [] gap
  | last (key : String) {value : Json} {before middle space text after : List Char} :
      IsGap before → IsGap middle → IsGap space → Spells value text → IsGap after →
      SpellsMembers [(key, value)]
        (before ++ (quote key ++ (middle ++ ':' :: (space ++ (text ++ after)))))
  | more (key : String) {value : Json} {next : String × Json} {members : List (String × Json)}
      {before middle space text after : List Char} (others : List Char) :
      IsGap before → IsGap middle → IsGap space → Spells value text → IsGap after →
      SpellsMembers (next :: members) others →
      SpellsMembers ((key, value) :: next :: members)
        (before ++ (quote key ++ (middle ++ ':' :: (space ++ (text ++ (after ++ ',' :: others))))))

end

/-! ### The written forms -/

theorem isGap_nil : IsGap [] := nofun

theorem isGap_space : IsGap [' '] := List.forall_mem_singleton.mpr rfl

theorem isGap_newLine (level : Nat) : IsGap (newLine level) := by
  intro character member
  rcases List.mem_cons.mp member with rfl | member
  · rfl
  · rw [List.eq_of_mem_replicate member]
    rfl

mutual

theorem spells_writeCompact : ∀ value : Json, Spells value value.writeCompact
  | .null => .null
  | .bool value => .bool value
  | .number value => .number value
  | .string text => .string text
  | .array items => .array (spells_writeItems items)
  | .object members => .object (spells_writeMembers members)

theorem spells_writeItems : ∀ items : List Json, SpellsItems items (writeItems items)
  | [] => .none isGap_nil
  | [item] => by
    have here := SpellsItems.last isGap_nil (spells_writeCompact item) isGap_nil
    simpa [writeItems] using here
  | item :: next :: items => by
    have here := SpellsItems.more isGap_nil (spells_writeCompact item) isGap_nil
      (spells_writeItems (next :: items))
    simpa [writeItems] using here

theorem spells_writeMembers :
    ∀ members : List (String × Json), SpellsMembers members (writeMembers members)
  | [] => .none isGap_nil
  | [(key, value)] => by
    have here := SpellsMembers.last key isGap_nil isGap_nil isGap_nil
      (spells_writeCompact value) isGap_nil
    simpa [writeMembers] using here
  | (key, value) :: next :: members => by
    have here := SpellsMembers.more key _ isGap_nil isGap_nil isGap_nil
      (spells_writeCompact value) isGap_nil (spells_writeMembers (next :: members))
    simpa [writeMembers] using here

end

mutual

theorem spells_writePretty (level : Nat) : ∀ value : Json, Spells value (value.writePretty level)
  | .null => .null
  | .bool value => .bool value
  | .number value => .number value
  | .string text => .string text
  | .array [] => .array (.none isGap_nil)
  | .array (item :: items) =>
    .array (spells_writePrettyItems (level + 1) (isGap_newLine level) (item :: items))
  | .object [] => .object (.none isGap_nil)
  | .object (member :: members) =>
    .object (spells_writePrettyMembers (level + 1) (isGap_newLine level) (member :: members))

/-- The last item is followed by the line break before the bracket. -/
theorem spells_writePrettyItems (level : Nat) {gap : List Char} (white : IsGap gap) :
    ∀ items : List Json, SpellsItems items (writePrettyItems level items ++ gap)
  | [] => .none white
  | [item] => by
    have here := SpellsItems.last (isGap_newLine level) (spells_writePretty level item) white
    simpa [writePrettyItems] using here
  | item :: next :: items => by
    have here := SpellsItems.more (isGap_newLine level) (spells_writePretty level item) isGap_nil
      (spells_writePrettyItems level white (next :: items))
    simpa [writePrettyItems] using here

theorem spells_writePrettyMembers (level : Nat) {gap : List Char} (white : IsGap gap) :
    ∀ members : List (String × Json),
      SpellsMembers members (writePrettyMembers level members ++ gap)
  | [] => .none white
  | [(key, value)] => by
    have here := SpellsMembers.last key (isGap_newLine level) isGap_nil isGap_space
      (spells_writePretty level value) white
    simpa [writePrettyMembers] using here
  | (key, value) :: next :: members => by
    have here := SpellsMembers.more key _ (isGap_newLine level) isGap_nil isGap_space
      (spells_writePretty level value) isGap_nil
      (spells_writePrettyMembers level white (next :: members))
    simpa [writePrettyMembers] using here

end

/-! ### White space between tokens -/

theorem skipSpace_gap {gap : List Char} (white : IsGap gap) (rest : List Char) :
    skipSpace (gap ++ rest) = skipSpace rest :=
  List.dropWhile_append_of_pos white

theorem skipSpace_cons {character : Char} (token : isSpace character = false)
    (rest : List Char) : skipSpace (character :: rest) = character :: rest := by
  rw [skipSpace, List.dropWhile_cons, token]
  rfl

theorem skipSpace_gap_cons {gap : List Char} (white : IsGap gap) (character : Char)
    (token : isSpace character = false) (rest : List Char) :
    skipSpace (gap ++ character :: rest) = character :: rest := by
  rw [skipSpace_gap white, skipSpace_cons token]

theorem skipSpace_skipSpace (text : List Char) : skipSpace (skipSpace text) = skipSpace text := by
  induction text with
  | nil => rfl
  | cons character rest ih =>
    cases space : isSpace character with
    | true =>
      have gone := skipSpace_gap (List.forall_mem_singleton.mpr space) rest
      rw [List.singleton_append] at gone
      rw [gone, ih]
    | false => rw [skipSpace_cons space, skipSpace_cons space]

theorem scanValue_skipSpace (fuel : Nat) (text : List Char) :
    scanValue fuel (skipSpace text) = scanValue fuel text := by
  cases fuel with
  | zero => rfl
  | succ fuel => rw [scanValue, scanValue, skipSpace_skipSpace]

theorem scanValue_gap (fuel : Nat) {gap : List Char} (white : IsGap gap) (rest : List Char) :
    scanValue fuel (gap ++ rest) = scanValue fuel rest := by
  rw [← scanValue_skipSpace, skipSpace_gap white, scanValue_skipSpace]

theorem scanItems_skipSpace (fuel : Nat) (text : List Char) :
    scanItems fuel (skipSpace text) = scanItems fuel text := by
  cases fuel with
  | zero => rfl
  | succ fuel => rw [scanItems, scanItems, scanValue_skipSpace]

theorem endsNumber_nil : EndsNumber [] := nofun

/-- White space does not continue a number. -/
theorem endsNumber_gap {gap rest : List Char} (white : IsGap gap) (ends : EndsNumber rest) :
    EndsNumber (gap ++ rest) := by
  cases gap with
  | nil => exact ends
  | cons first others =>
    rintro _ ⟨⟩
    have space := white first List.mem_cons_self
    simp only [isSpace, Bool.or_eq_true, beq_iff_eq] at space
    rcases space with ((rfl | rfl) | rfl) | rfl <;> decide

/-- Neither does a comma or a closing bracket. -/
theorem endsNumber_gap_cons {gap : List Char} (white : IsGap gap) {character : Char}
    (ends : character = ',' ∨ character = ']' ∨ character = '\x7d') (rest : List Char) :
    EndsNumber (gap ++ character :: rest) := by
  refine endsNumber_gap white ?_
  rintro _ ⟨⟩
  rcases ends with rfl | rfl | rfl <;> decide

/-! ### Scanning -/

namespace Draft

mutual

/-- The draft of a text that writes the value: its members as they stand. -/
def exact : Json → Draft
  | .null => .null
  | .bool value => .bool value
  | .number value => .number value
  | .string text => .string (some text)
  | .array items => .array (exactItems items) true
  | .object members => .object (exactMembers members) true

/-- The drafts of items. -/
def exactItems : List Json → List Draft
  | [] => []
  | item :: items => exact item :: exactItems items

/-- The drafts of members. -/
def exactMembers : List (String × Json) → List (Option String × Draft)
  | [] => []
  | (key, value) :: members => (some key, exact value) :: exactMembers members

end

end Draft

theorem isSpace_eq_false_of_isDigit {character : Char} (digit : character.isDigit = true) :
    isSpace character = false := by
  rw [Bool.eq_false_iff]
  intro space
  simp only [isSpace, Bool.or_eq_true, beq_iff_eq] at space
  rcases space with ((rfl | rfl) | rfl) | rfl <;> cases digit

/-- The first character of a value: it is no white space, and it closes nothing. -/
theorem Spells.exists_cons {value : Json} {text : List Char} (spelled : Spells value text) :
    ∃ first others, text = first :: others ∧ isSpace first = false ∧ first ≠ ']' := by
  cases spelled with
  | null => exact ⟨'n', _, rfl, rfl, by decide⟩
  | bool value => cases value <;> exact ⟨_, _, rfl, rfl, by decide⟩
  | number value =>
    obtain ⟨first, others, same, start⟩ := value.write_eq_cons
    refine ⟨first, others, same, ?_⟩
    rcases start with rfl | digit
    · exact ⟨rfl, by decide⟩
    · refine ⟨isSpace_eq_false_of_isDigit digit, ?_⟩
      rintro rfl
      cases digit
  | string text => exact ⟨'"', _, rfl, rfl, by decide⟩
  | array => exact ⟨'[', _, rfl, rfl, by decide⟩
  | object => exact ⟨'\x7b', _, rfl, rfl, by decide⟩

theorem scanValue_number (number : Number) (fuel : Nat) {rest : List Char}
    (ends : EndsNumber rest) :
    scanValue (fuel + 1) (number.write ++ rest) = (.number number, some rest) := by
  have scanned := number.scan?_write ends
  obtain ⟨first, others, same, start⟩ := number.write_eq_cons
  have token : isSpace first = false := by
    rcases start with rfl | digit
    · rfl
    · exact isSpace_eq_false_of_isDigit digit
  rw [same, List.cons_append] at scanned ⊢
  rw [scanValue, skipSpace_cons token]
  split
  case h_7 => rw [scanned]
  -- No other kind of value begins like a number.
  all_goals
    next head =>
      obtain rfl := (List.cons.inj head).1
      rcases start with start | start <;> cases start

theorem scanValue_string (text : String) (fuel : Nat) (rest : List Char) :
    scanValue (fuel + 1) (quote text ++ rest) = (.string (some text), some rest) := by
  rw [quote, List.cons_append, List.append_assoc]
  show scanValue (fuel + 1) ('"' :: (_ ++ '"' :: rest)) = _
  rw [scanValue, skipSpace_cons rfl]
  simp only [scanUnits?_quote, textOf_map_char]

/-- An array whose first item is there. -/
theorem scanValue_array {inner : List Char} {first : Char} {others : List Char}
    (start : skipSpace inner = first :: others) (open_ : first ≠ ']') (fuel : Nat) :
    scanValue (fuel + 1) ('[' :: inner) =
      (.array (scanItems fuel inner).1 (scanItems fuel inner).2.isSome,
        (scanItems fuel inner).2) := by
  rw [scanValue, skipSpace_cons rfl]
  simp only [← scanItems_skipSpace fuel inner, start]
  split
  next same => cases same; exact absurd rfl open_
  next => rfl

/-- An object whose first key is there. -/
theorem scanValue_object {inner others : List Char} (start : skipSpace inner = '"' :: others)
    (fuel : Nat) :
    scanValue (fuel + 1) ('\x7b' :: inner) =
      (.object (scanMembers fuel others).1 (scanMembers fuel others).2.isSome,
        (scanMembers fuel others).2) := by
  rw [scanValue, skipSpace_cons rfl]
  simp only [start]

/-- Items begin with the first of them. -/
theorem SpellsItems.exists_cons {item : Json} {items : List Json} {text : List Char}
    (spelled : SpellsItems (item :: items) text) :
    ∃ first others, first ≠ ']' ∧ ∀ rest, skipSpace (text ++ rest) = first :: (others ++ rest) := by
  have start {before text behind : List Char} (white : IsGap before) (item : Spells item text) :
      ∃ first others, first ≠ ']' ∧ ∀ rest,
        skipSpace (before ++ (text ++ behind) ++ rest) = first :: (others ++ rest) := by
    obtain ⟨first, others, rfl, token, open_⟩ := item.exists_cons
    refine ⟨first, others ++ behind, open_, fun rest => ?_⟩
    rw [List.append_assoc, skipSpace_gap white, List.cons_append, List.cons_append,
      skipSpace_cons token]
  cases spelled with
  | last before item _ => exact start before item
  | more before item _ _ => exact start before item

/-- A key with its value, as it stands behind the opening quote of the key. -/
theorem scanMembers_key (key : String) {value : Json} {middle space text : List Char}
    (middleWhite : IsGap middle) (spaceWhite : IsGap space) {fuel : Nat} {rest : List Char}
    (scanned : scanValue fuel (text ++ rest) = (exact value, some rest)) :
    scanMembers (fuel + 1) (key.toList.flatMap escapeChar ++ '"' ::
        (middle ++ ':' :: (space ++ (text ++ rest)))) =
      match skipSpace rest with
      | ',' :: rest =>
        match skipSpace rest with
        | '"' :: rest =>
          ((some key, exact value) :: (scanMembers fuel rest).1, (scanMembers fuel rest).2)
        | _ => ([(some key, exact value)], none)
      | '\x7d' :: rest => ([(some key, exact value)], some rest)
      | _ => ([(some key, exact value)], none) := by
  have unfolded := scanMembers.eq_2 (key.toList.flatMap escapeChar ++ '"' ::
    (middle ++ ':' :: (space ++ (text ++ rest)))) fuel
  simp only [scanUnits?_quote, textOf_map_char, skipSpace_gap_cons middleWhite ':' rfl,
    scanValue_gap fuel spaceWhite, scanned] at unfolded
  exact unfolded

mutual

/-- **A text of the grammar is scanned to its end**, and its draft is that of the value. -/
theorem Spells.scanValue_eq : ∀ {value : Json} {text : List Char}, Spells value text →
    ∀ (rest : List Char) (fuel : Nat), EndsNumber rest → text.length < fuel →
      scanValue fuel (text ++ rest) = (exact value, some rest)
  | _, _, _, rest, 0, _, enough => absurd enough (Nat.not_lt_zero _)
  | _, _, .null, rest, fuel + 1, _, _ => rfl
  | _, _, .bool value, rest, fuel + 1, _, _ => by cases value <;> rfl
  | _, _, .number value, rest, fuel + 1, ends, _ => scanValue_number value fuel ends
  | _, _, .string text, rest, fuel + 1, _, _ => scanValue_string text fuel rest
  | _, _, .array (.none white), rest, fuel + 1, _, _ => by
    rw [List.cons_append, List.append_assoc, scanValue, skipSpace_cons rfl]
    simp only [List.singleton_append, skipSpace_gap_cons white ']' rfl]
    rfl
  | .array (item :: items), _, .array inside, rest, fuel + 1, _, enough => by
    simp only [List.length_cons, List.length_append, List.length_nil] at enough
    obtain ⟨first, others, open_, start⟩ := inside.exists_cons
    have scanned := inside.scanItems_eq rest fuel (by omega)
    rw [List.cons_append, List.append_assoc, List.singleton_append,
      scanValue_array (start _) open_, scanned]
    rfl
  | _, _, .object (.none white), rest, fuel + 1, _, _ => by
    rw [List.cons_append, List.append_assoc, scanValue, skipSpace_cons rfl]
    simp only [List.singleton_append, skipSpace_gap_cons white '\x7d' rfl]
    rfl
  | .object (member :: members), _, .object inside, rest, fuel + 1, _, enough => by
    simp only [List.length_cons, List.length_append, List.length_nil] at enough
    obtain ⟨behind, start, scanned⟩ := inside.scanMembers_eq rest fuel
      (by omega)
    rw [List.cons_append, List.append_assoc, List.singleton_append, scanValue_object start, scanned]
    rfl

theorem SpellsItems.scanItems_eq : ∀ {item : Json} {items : List Json} {text : List Char},
    SpellsItems (item :: items) text → ∀ (rest : List Char) (fuel : Nat), text.length + 1 < fuel →
      scanItems fuel (text ++ ']' :: rest) = (exactItems (item :: items), some rest)
  | _, _, _, .last before item white, rest, fuel + 1, enough => by
    simp only [List.length_append] at enough
    have scanned := item.scanValue_eq _ fuel (endsNumber_gap_cons white (.inr (.inl rfl)) rest)
      (by omega)
    rw [List.append_assoc, List.append_assoc, scanItems, scanValue_gap fuel before, scanned]
    simp only [skipSpace_gap_cons white ']' rfl]
    rfl
  | _, _, _, .more before item white behind, rest, fuel + 1, enough => by
    simp only [List.length_append, List.length_cons] at enough
    have scanned (rest : List Char) :=
      item.scanValue_eq _ fuel (endsNumber_gap_cons white (.inl rfl) rest) (by omega)
    have later := behind.scanItems_eq rest fuel (by omega)
    simp only [List.append_assoc, List.cons_append]
    rw [scanItems, scanValue_gap fuel before, scanned]
    simp only [skipSpace_gap_cons white ',' rfl, later]
    rfl

theorem SpellsMembers.scanMembers_eq : ∀ {member : String × Json} {members : List (String × Json)}
    {text : List Char}, SpellsMembers (member :: members) text →
    ∀ (rest : List Char) (fuel : Nat), text.length + 1 < fuel →
      ∃ behind, skipSpace (text ++ '\x7d' :: rest) = '"' :: behind ∧
        scanMembers fuel behind = (exactMembers (member :: members), some rest)
  | _, _, _, .last key before middle space value white, rest, fuel + 1, enough => by
    simp only [quote, List.length_append, List.length_cons] at enough
    have scanned := value.scanValue_eq _ fuel (endsNumber_gap_cons white (.inr (.inr rfl)) rest)
      (by omega)
    refine ⟨_, ?_, (scanMembers_key key middle space scanned).trans ?_⟩
    · simp only [quote, List.append_assoc, List.cons_append, List.nil_append]
      exact skipSpace_gap_cons before _ rfl _
    · simp only [skipSpace_gap_cons white '\x7d' rfl]
      rfl
  | _, _, _, .more key others before middle space value white behind, rest, fuel + 1, enough => by
    simp only [quote, List.length_append, List.length_cons] at enough
    have scanned := value.scanValue_eq _ fuel
      (endsNumber_gap_cons white (.inl rfl) (others ++ '\x7d' :: rest)) (by omega)
    obtain ⟨later, start, done⟩ := behind.scanMembers_eq rest fuel (by omega)
    refine ⟨_, ?_, (scanMembers_key key middle space scanned).trans ?_⟩
    · simp only [quote, List.append_assoc, List.cons_append, List.nil_append]
      exact skipSpace_gap_cons before _ rfl _
    · simp only [skipSpace_gap_cons white ',' rfl, start, done]
      rfl

end

/-! ### Reading -/

/-- **A text that writes a value holds the draft of the value**, with white space around it. -/
theorem Spells.ofText_eq {value : Json} {text before after : List Char}
    (spelled : Spells value text) (beforeWhite : IsGap before) (afterWhite : IsGap after) :
    Draft.ofText (String.ofList (before ++ (text ++ after))) = (exact value, true) := by
  have ends : EndsNumber after := by
    simpa using endsNumber_gap afterWhite endsNumber_nil
  have scanned := spelled.scanValue_eq after ((before ++ (text ++ after)).length + 1) ends
    (by simp only [List.length_append]; omega)
  rw [ofText, String.toList_ofList, scanValue_gap _ beforeWhite, scanned]
  have gone : skipSpace after = [] := by
    rw [← List.append_nil after, skipSpace_gap afterWhite]
    rfl
  simp [gone]

mutual

theorem toJson?_exact : ∀ value : Json, (exact value).toJson? = some value
  | .null => rfl
  | .bool value => rfl
  | .number value => rfl
  | .string text => rfl
  | .array items => by rw [exact, toJson?, toItems?_exact items]; rfl
  | .object members => by rw [exact, toJson?, toMembers?_exact members]; rfl

theorem toItems?_exact : ∀ items : List Json, toItems? (exactItems items) = some items
  | [] => rfl
  | item :: items => by rw [exactItems, toItems?, toJson?_exact item, toItems?_exact items]; rfl

theorem toMembers?_exact :
    ∀ members : List (String × Json), toMembers? (exactMembers members) = some members
  | [] => rfl
  | (key, value) :: members => by
    rw [exactMembers, toMembers?, toJson?_exact value, toMembers?_exact members]; rfl

end

/-- **A text that writes a value is read as the value.** -/
theorem Spells.parse?_eq {value : Json} {text before after : List Char}
    (spelled : Spells value text) (beforeWhite : IsGap before) (afterWhite : IsGap after) :
    parse? (String.ofList (before ++ (text ++ after))) = some value := by
  rw [parse?, spelled.ofText_eq beforeWhite afterWhite]
  exact toJson?_exact value

end Phrasebook.Json
