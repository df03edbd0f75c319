/-
**References and requests, found exactly.**

The reference pattern and the request pattern look for the same kind of thing: plain text between
double braces. `Pattern.DoubleBraced` says so, and that the pattern finds an occurrence exactly
where it is written. Two occurrences never share a brace, so such a search can be cut in two

* before every pair of opening braces (`DoubleBraced.apart_open`), and
* behind every pair of closing braces (`DoubleBraced.apart_close`),

whatever braces stand around the cut. `referencePattern_doubleBraced` and
`requestPattern_doubleBraced` are the two instances; an occurrence of the first is a `Reference`
that is `Valid`, one of the second is a name, and `write_request` says that a request is written as
the reference with a lone hyphen for its value.
-/

import Phrasebook.Proofs.Search
import Phrasebook.Reference
import Mathlib.Data.List.TakeWhile

namespace Phrasebook

open Text

/-! ### Text without braces -/

/-- Neither brace occurs among the characters. -/
def BraceFree (characters : List Char) : Prop := ∀ character ∈ characters, isPlain character = true

instance : DecidablePred BraceFree := fun characters =>
  decidable_of_iff (characters.all isPlain = true) List.all_eq_true

@[simp] theorem braceFree_nil : BraceFree [] := by simp [BraceFree]

@[simp] theorem braceFree_cons {character : Char} {rest : List Char} :
    BraceFree (character :: rest) ↔ isPlain character = true ∧ BraceFree rest := by
  simp [BraceFree]

@[simp] theorem braceFree_append {first second : List Char} :
    BraceFree (first ++ second) ↔ BraceFree first ∧ BraceFree second := by
  simp [BraceFree, or_imp, forall_and]

theorem isPlain_iff {character : Char} :
    isPlain character = true ↔ character ≠ '{' ∧ character ≠ '}' := by
  simp [isPlain]

theorem BraceFree.openBrace_not_mem {characters : List Char} (free : BraceFree characters) :
    '{' ∉ characters :=
  fun member => absurd (free _ member) (by decide)

theorem BraceFree.closeBrace_not_mem {characters : List Char} (free : BraceFree characters) :
    '}' ∉ characters :=
  fun member => absurd (free _ member) (by decide)

theorem braceFree_iff {characters : List Char} :
    BraceFree characters ↔ '{' ∉ characters ∧ '}' ∉ characters := by
  refine ⟨fun free => ⟨free.openBrace_not_mem, free.closeBrace_not_mem⟩, ?_⟩
  rintro ⟨noOpen, noClose⟩ character member
  exact isPlain_iff.mpr ⟨fun same => noOpen (same ▸ member), fun same => noClose (same ▸ member)⟩

theorem isPlain_of_isWord {character : Char} (word : isWord character = true) :
    isPlain character = true := by
  refine isPlain_iff.mpr ⟨?_, ?_⟩ <;> rintro rfl <;> simp at word

/-- A stretch of plain text ends at a closing brace. -/
theorem BraceFree.takeWhile_append {content : List Char} (free : BraceFree content)
    (behind : List Char) :
    (content ++ '}' :: behind).takeWhile isPlain = content ∧
      (content ++ '}' :: behind).dropWhile isPlain = '}' :: behind := by
  rw [List.takeWhile_append_of_pos free, List.dropWhile_append_of_pos free]
  simp [isPlain]

theorem braceFree_takeWhile (characters : List Char) : BraceFree (characters.takeWhile isPlain) :=
  fun _ member => List.mem_takeWhile_imp member

theorem isName.ne_nil {name : List Char} (named : isName name = true) : name ≠ [] := by
  rintro rfl
  simp [isName] at named

theorem isName.words {name : List Char} (named : isName name = true) :
    ∀ character ∈ name, isWord character = true := by
  simp only [isName, Bool.and_eq_true, List.all_eq_true] at named
  exact named.2

theorem isName.braceFree {name : List Char} (named : isName name = true) : BraceFree name :=
  fun character member => isPlain_of_isWord (isName.words named character member)

theorem isName.bar_not_mem {name : List Char} (named : isName name = true) : '|' ∉ name :=
  fun member => absurd (isName.words named _ member) (by simp)

/-! ### Plain text between double braces -/

namespace Text.Pattern

variable {α : Type}

/-- The pattern finds an occurrence exactly where it is written, and that is plain text between
double braces. -/
structure DoubleBraced (pattern : Pattern α) (IsOccurrence : α → Prop) : Prop where
  here_iff : ∀ {previous text occurrence}, pattern.here? previous text = some occurrence ↔
    IsOccurrence occurrence ∧ pattern.write occurrence <+: text
  shape : ∀ {occurrence}, IsOccurrence occurrence → ∃ content, content ≠ [] ∧ BraceFree content ∧
    pattern.write occurrence = '{' :: '{' :: (content ++ ['}', '}'])

/-- Plain text between double braces that begins inside `tail` does not need the opening braces
behind it. -/
theorem braced_isPrefix_open {content tail second : List Char} (nonempty : content ≠ [])
    (free : BraceFree content) (inside : tail ≠ [])
    (starts : '{' :: '{' :: (content ++ ['}', '}']) <+: tail ++ '{' :: '{' :: second) :
    '{' :: '{' :: (content ++ ['}', '}']) <+: tail := by
  obtain ⟨behind, split⟩ := starts
  rcases List.append_eq_append_iff.mp split with ⟨more, shape, _⟩ | ⟨excess, shape, opening⟩
  · exact ⟨more, shape.symm⟩
  have noOpen : '{' ∉ content ++ ['}', '}'] := by simp [free.openBrace_not_mem]
  match tail, excess with
  | tail, [] => exact ⟨[], by simpa using shape⟩
  | [_], head :: rest =>
    -- Only the first opening brace of the occurrence is in `tail`: its content begins with one.
    obtain ⟨first, content, rfl⟩ := List.exists_cons_of_ne_nil nonempty
    have body : '{' :: (first :: content ++ ['}', '}']) = head :: rest := (List.cons.inj shape).2
    rw [← body] at opening
    have same : '{' = first := (List.cons.inj (List.cons.inj opening).2).1
    exact absurd (same ▸ List.mem_cons_self) noOpen
  | _ :: _ :: tail, head :: rest =>
    -- The closing braces of the occurrence come behind an opening one.
    have body : content ++ ['}', '}'] = tail ++ head :: rest :=
      (List.cons.inj (List.cons.inj shape).2).2
    have same : '{' = head := (List.cons.inj opening).1
    rw [body, same] at noOpen
    exact absurd (List.mem_append_right tail List.mem_cons_self) noOpen

/-- Plain text between double braces that begins in front of closing braces ends with them at the
latest. -/
theorem braced_isPrefix_close {content first tail second : List Char}
    (free : BraceFree content) (suffix : tail <:+ first ++ ['}', '}']) (inside : tail ≠ [])
    (starts : '{' :: '{' :: (content ++ ['}', '}']) <+: tail ++ second) :
    '{' :: '{' :: (content ++ ['}', '}']) <+: tail := by
  obtain ⟨behind, split⟩ := starts
  rcases List.append_eq_append_iff.mp split with ⟨more, shape, _⟩ | ⟨excess, shape, _⟩
  · exact ⟨more, shape.symm⟩
  rcases List.eq_nil_or_concat excess with rfl | ⟨init, last, rfl⟩
  · exact ⟨[], by simpa using shape⟩
  exfalso
  obtain ⟨front, cut⟩ := suffix
  rcases List.append_eq_append_iff.mp cut with ⟨before, _, rfl⟩ | ⟨before, _, closes⟩
  · -- Without its last brace the occurrence has one closing brace, and `tail` alone has two.
    have ends : ('{' :: '{' :: (content ++ ['}'])) ++ ['}'] =
        (before ++ ['}', '}'] ++ init) ++ [last] := by simpa using shape
    have braces := congrArg (List.count '}') (List.append_inj' ends rfl).1
    simp [List.count_append, List.count_eq_zero_of_not_mem free.closeBrace_not_mem] at braces
    omega
  · obtain ⟨head, rest, rfl⟩ := List.exists_cons_of_ne_nil inside
    have same : '{' = head := (List.cons.inj shape).1
    have member : '{' ∈ ['}', '}'] := by
      rw [closes, same]
      exact List.mem_append_right _ List.mem_cons_self
    exact absurd member (by decide)

/-! ### Cutting such a search -/

namespace DoubleBraced

variable {pattern : Pattern α} {IsOccurrence : α → Prop}

theorem faithful (braced : pattern.DoubleBraced IsOccurrence) : pattern.Faithful where
  written found := (braced.here_iff.mp found).2
  nonempty found := by
    obtain ⟨content, _, _, written⟩ := braced.shape (braced.here_iff.mp found).1
    rw [written]
    exact List.cons_ne_nil _ _

theorem forward (braced : pattern.DoubleBraced IsOccurrence) : pattern.Forward :=
  fun previous other text => Option.ext fun occurrence => by rw [braced.here_iff, braced.here_iff]

theorem apart_of_isPrefix (braced : pattern.DoubleBraced IsOccurrence) {first second : List Char}
    (inside : ∀ content tail, content ≠ [] → BraceFree content → tail ≠ [] → tail <:+ first →
      '{' :: '{' :: (content ++ ['}', '}']) <+: tail ++ second →
      '{' :: '{' :: (content ++ ['}', '}']) <+: tail) : pattern.Apart first second := by
  intro previous tail within suffix
  refine Option.ext fun occurrence => ?_
  rw [braced.here_iff, braced.here_iff]
  refine and_congr_right fun valid => ⟨fun starts => ?_, fun starts => ?_⟩
  · obtain ⟨content, nonempty, free, written⟩ := braced.shape valid
    rw [written] at starts ⊢
    exact inside content tail nonempty free within suffix starts
  · exact starts.trans (List.prefix_append _ _)

theorem apart_open (braced : pattern.DoubleBraced IsOccurrence) (first second : List Char) :
    pattern.Apart first ('{' :: '{' :: second) :=
  braced.apart_of_isPrefix fun _ _ nonempty free inside _ starts =>
    braced_isPrefix_open nonempty free inside starts

theorem apart_close (braced : pattern.DoubleBraced IsOccurrence) (first second : List Char) :
    pattern.Apart (first ++ ['}', '}']) second :=
  braced.apart_of_isPrefix fun _ _ _ free inside suffix starts =>
    braced_isPrefix_close free suffix inside starts

/-- **Whatever stands between double braces is searched by itself**, and so is the text on both
sides of them. -/
theorem pieces_between (braced : pattern.DoubleBraced IsOccurrence)
    (front middle behind : List Char) :
    pattern.pieces (front ++ ('{' :: '{' :: (middle ++ ['}', '}'])) ++ behind) =
      pattern.pieces front ++ pattern.pieces ('{' :: '{' :: (middle ++ ['}', '}'])) ++
        pattern.pieces behind := by
  have opened := braced.apart_open front (middle ++ ['}', '}'])
  have closed := braced.apart_close (front ++ '{' :: '{' :: middle) behind
  simp only [List.append_assoc, List.cons_append] at closed
  rw [pieces_append braced.faithful braced.forward (by simpa using closed),
    pieces_append braced.faithful braced.forward opened]

/-! ### Computing such a search -/

theorem pieces_cons_of_none (braced : pattern.DoubleBraced IsOccurrence) {character : Char}
    {rest : List Char} (nothing : pattern.here? none (character :: rest) = none) :
    pattern.pieces (character :: rest) = .plain character :: pattern.pieces rest := by
  rw [pieces, piecesFrom, nothing, piecesFrom_forward braced.forward 0 (some character) none]
  rfl

theorem pieces_cons (braced : pattern.DoubleBraced IsOccurrence) {character : Char}
    (notOpen : character ≠ '{') (rest : List Char) :
    pattern.pieces (character :: rest) = .plain character :: pattern.pieces rest := by
  refine braced.pieces_cons_of_none (Option.eq_none_iff_forall_not_mem.mpr fun occurrence found => ?_)
  obtain ⟨valid, starts⟩ := braced.here_iff.mp found
  obtain ⟨content, _, _, written⟩ := braced.shape valid
  rw [written] at starts
  exact notOpen (List.cons_prefix_cons.mp starts).1.symm

/-- A single opening brace opens nothing. -/
theorem pieces_openBrace_cons (braced : pattern.DoubleBraced IsOccurrence) {character : Char}
    (notOpen : character ≠ '{') (rest : List Char) :
    pattern.pieces ('{' :: character :: rest) = .plain '{' :: pattern.pieces (character :: rest) := by
  refine braced.pieces_cons_of_none (Option.eq_none_iff_forall_not_mem.mpr fun occurrence found => ?_)
  obtain ⟨valid, starts⟩ := braced.here_iff.mp found
  obtain ⟨content, _, _, written⟩ := braced.shape valid
  rw [written, List.cons_prefix_cons, List.cons_prefix_cons] at starts
  exact notOpen starts.2.1.symm

theorem pieces_braceFree_append (braced : pattern.DoubleBraced IsOccurrence) {text : List Char}
    (free : BraceFree text) (behind : List Char) :
    pattern.pieces (text ++ behind) = text.map .plain ++ pattern.pieces behind := by
  induction text with
  | nil => rfl
  | cons character rest ih =>
    obtain ⟨plain, free⟩ := braceFree_cons.mp free
    rw [List.cons_append, braced.pieces_cons (isPlain_iff.mp plain).1, ih free]
    rfl

theorem pieces_write (braced : pattern.DoubleBraced IsOccurrence) {occurrence : α}
    (valid : IsOccurrence occurrence) (behind : List Char) :
    pattern.pieces (pattern.write occurrence ++ behind) =
      .found occurrence :: pattern.pieces behind := by
  have found : pattern.here? none (pattern.write occurrence ++ behind) = some occurrence :=
    braced.here_iff.mpr ⟨valid, List.prefix_append _ _⟩
  rw [pieces, piecesFrom_write (braced.faithful.nonempty found) found,
    piecesFrom_forward braced.forward 0 _ none]
  rfl

theorem pieces_write_self (braced : pattern.DoubleBraced IsOccurrence) {occurrence : α}
    (valid : IsOccurrence occurrence) :
    pattern.pieces (pattern.write occurrence) = [.found occurrence] := by
  have here := braced.pieces_write valid []
  rwa [List.append_nil] at here

/-- An occurrence is found where it is written, whatever stands around it. -/
theorem pieces_append_write (braced : pattern.DoubleBraced IsOccurrence) {occurrence : α}
    (valid : IsOccurrence occurrence) (front behind : List Char) :
    pattern.pieces (front ++ pattern.write occurrence ++ behind) =
      pattern.pieces front ++ .found occurrence :: pattern.pieces behind := by
  obtain ⟨content, _, _, written⟩ := braced.shape valid
  have here := braced.pieces_write_self valid
  rw [written] at here ⊢
  rw [braced.pieces_between, here, List.append_assoc]
  rfl

/-- A search reports occurrences only. -/
theorem isOccurrence (braced : pattern.DoubleBraced IsOccurrence) {text : List Char}
    {occurrence : α} (member : .found occurrence ∈ pattern.pieces text) :
    IsOccurrence occurrence := by
  obtain ⟨previous, tail, found⟩ := exists_here?_of_mem_piecesFrom member
  exact (braced.here_iff.mp found).1

/-- A search reports exactly the occurrences that are written somewhere in the text. -/
theorem found_mem_pieces_iff (braced : pattern.DoubleBraced IsOccurrence) {text : List Char}
    {occurrence : α} :
    .found occurrence ∈ pattern.pieces text ↔
      IsOccurrence occurrence ∧ pattern.write occurrence <:+: text := by
  constructor
  · intro member
    obtain ⟨before, behind, split⟩ := List.append_of_mem member
    refine ⟨braced.isOccurrence member, pattern.text before, pattern.text behind, ?_⟩
    rw [← text_pieces braced.faithful text, split, text_append, text_found, List.append_assoc]
  · rintro ⟨valid, front, behind, rfl⟩
    rw [braced.pieces_append_write valid]
    exact List.mem_append_right _ List.mem_cons_self

end DoubleBraced

end Text.Pattern

/-! ### The content of a reference -/

theorem splitLastBar_of_bar_not_mem {name : List Char} (noBar : '|' ∉ name) :
    splitLastBar name = (none, name) := by
  induction name with
  | nil => rfl
  | cons character rest ih =>
    rw [List.mem_cons, not_or] at noBar
    rw [splitLastBar, ih noBar.2]
    simp [Ne.symm noBar.1]

theorem splitLastBar_append {name : List Char} (noBar : '|' ∉ name) (value : List Char) :
    splitLastBar (value ++ '|' :: name) = (some value, name) := by
  induction value with
  | nil => simp [splitLastBar, splitLastBar_of_bar_not_mem noBar]
  | cons character rest ih => rw [List.cons_append, splitLastBar, ih]

/-- The two parts spell the text. -/
theorem eq_of_splitLastBar (content : List Char) :
    content = match splitLastBar content with
      | (none, name) => name
      | (some value, name) => value ++ '|' :: name := by
  induction content with
  | nil => rfl
  | cons character rest ih =>
    rw [splitLastBar]
    rcases parts : splitLastBar rest with ⟨_ | value, name⟩
    · rw [parts] at ih
      by_cases bar : character = '|'
      · simpa [bar] using ih
      · simpa [bar] using ih
    · rw [parts] at ih
      simpa using ih

/-- A reference that is found where it is written: the name is made of word characters, and the
value has no braces. -/
structure Reference.Valid (reference : Reference) : Prop where
  isName : isName reference.name.toList = true
  braceFree : ∀ value ∈ reference.value, BraceFree value.toList

namespace Reference

theorem valid_bare {name : String} (named : isName name.toList = true) :
    (Reference.mk none name).Valid :=
  ⟨named, by simp⟩

theorem valid_annotated {word name : String} (named : isName name.toList = true)
    (free : BraceFree word.toList) : (Reference.mk (some word) name).Valid :=
  ⟨named, by simpa using free⟩

theorem Valid.content_braceFree {reference : Reference} (valid : reference.Valid) :
    BraceFree reference.content := by
  rw [content]
  split
  · exact isName.braceFree valid.isName
  next value same =>
    have free := valid.braceFree value same
    exact braceFree_append.mpr
      ⟨free, braceFree_cons.mpr ⟨by decide, isName.braceFree valid.isName⟩⟩

theorem Valid.content_ne_nil {reference : Reference} (valid : reference.Valid) :
    reference.content ≠ [] := by
  rw [content]
  split
  · exact isName.ne_nil valid.isName
  · simp

theorem ofContent?_content {reference : Reference} (valid : reference.Valid) :
    ofContent? reference.content = some reference := by
  obtain ⟨_ | value, name⟩ := reference
  · simp [ofContent?, content, splitLastBar_of_bar_not_mem (isName.bar_not_mem valid.isName),
      valid.isName]
  · simp [ofContent?, content, splitLastBar_append (isName.bar_not_mem valid.isName),
      valid.isName]

theorem of_ofContent? {characters : List Char} {reference : Reference}
    (free : BraceFree characters) (read : ofContent? characters = some reference) :
    reference.Valid ∧ reference.content = characters := by
  have spelled := eq_of_splitLastBar characters
  rw [ofContent?] at read
  rcases parts : splitLastBar characters with ⟨value, name⟩
  rw [parts] at read spelled
  by_cases named : Text.isName name = true
  · simp only [named, if_true, Option.some.injEq] at read
    subst read
    cases value with
    | none => exact ⟨⟨by simpa using named, by simp⟩, by simpa [content] using spelled.symm⟩
    | some value =>
      rw [spelled, braceFree_append] at free
      exact ⟨⟨by simpa using named, by simpa using free.1⟩, by simpa [content] using spelled.symm⟩
  · simp [named] at read

/-- **A reference stands exactly where it is written.** -/
theorem here?_eq_some_iff {text : List Char} {reference : Reference} :
    here? text = some reference ↔ reference.Valid ∧ reference.write <+: text := by
  constructor
  · intro found
    unfold here? at found
    split at found
    next rest =>
      split at found
      next behind closed =>
        obtain ⟨valid, same⟩ := of_ofContent? (braceFree_takeWhile rest) found
        refine ⟨valid, behind, ?_⟩
        have whole := List.takeWhile_append_dropWhile (p := isPlain) (l := rest)
        rw [closed, ← same] at whole
        simp [write, ← whole]
      · cases found
    · cases found
  · rintro ⟨valid, behind, rfl⟩
    obtain ⟨taken, dropped⟩ := valid.content_braceFree.takeWhile_append ('}' :: behind)
    simp only [write, List.cons_append, List.append_assoc, List.nil_append, here?]
    rw [taken, dropped]
    exact ofContent?_content valid

end Reference

theorem requestedName?_eq_some_iff {text : List Char} {name : String} :
    requestedName? text = some name ↔
      isName name.toList = true ∧ requestPattern.write name <+: text := by
  constructor
  · intro found
    unfold requestedName? at found
    split at found
    next rest =>
      split at found
      · cases found
      next behind closed nonempty =>
        cases found
        have whole := List.takeWhile_append_dropWhile (p := isWord) (l := rest)
        rw [closed] at whole
        refine ⟨?_, behind, by simp [requestPattern, whole]⟩
        rw [String.toList_ofList, isName, Bool.and_eq_true, List.all_eq_true]
        exact ⟨by simpa using nonempty, fun character member => List.mem_takeWhile_imp member⟩
      · cases found
    · cases found
  · rintro ⟨named, behind, rfl⟩
    have words := isName.words named
    simp only [requestPattern, List.cons_append, List.append_assoc, List.nil_append, requestedName?]
    rw [List.takeWhile_append_of_pos words, List.dropWhile_append_of_pos words]
    have stops : ('}' :: '}' :: behind).takeWhile isWord = [] ∧
        ('}' :: '}' :: behind).dropWhile isWord = '}' :: '}' :: behind := by simp
    rw [stops.1, stops.2, List.append_nil]
    obtain ⟨head, rest, shape⟩ := List.exists_cons_of_ne_nil (isName.ne_nil named)
    have whole : String.ofList (head :: rest) = name := by rw [← shape, String.ofList_toList]
    rw [shape]
    exact congrArg some whole

/-! ### The two patterns -/

theorem referencePattern_doubleBraced : referencePattern.DoubleBraced Reference.Valid where
  here_iff := Reference.here?_eq_some_iff
  shape {reference} valid :=
    ⟨reference.content, valid.content_ne_nil, valid.content_braceFree, rfl⟩

theorem requestPattern_doubleBraced :
    requestPattern.DoubleBraced fun name => isName name.toList = true where
  here_iff := requestedName?_eq_some_iff
  shape {name} named := ⟨'-' :: '|' :: name.toList, List.cons_ne_nil _ _,
    by simpa using ⟨by decide, by decide, isName.braceFree named⟩, rfl⟩

/-- A request is written as the reference whose value is a lone hyphen. -/
theorem write_request (name : String) :
    requestPattern.write name = (Reference.mk (some "-") name).write := rfl

end Phrasebook
