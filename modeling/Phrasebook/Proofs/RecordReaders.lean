/-
**The readers of records follow their layouts.**

The reader of a record takes the members of an object in the order in which they stand, and the
items of an array as the fields in theirs. Where the members suit a record, what it has collected is
told by the names that it has read so far: a field adds its name (`Field.Follows`), any other member
adds nothing (`readMembers_cons_eq_ok_iff`), and in the end the fields that are missing are at their
default (`Follows.readMembers_eq`, `readItems_eq`).

Whatever the members are, a field that is read is marked as read (`Field.Marks`). So no field is
read twice, and none from a draft that its format refuses (`readOnce_of_readMembers`). Together this
makes the format of a record follow the layouts of its fields (`Follows.format`).
-/

import Phrasebook.Proofs.Layouts

namespace Phrasebook.Json

open Draft

/-! ### Fields -/

section Fields

variable {α β σ : Type}

/-- Whether a field has one of the names that were read, now that `name` is one of them. -/
def alsoSeen (name : String) (seen : String → Bool) (other : String) : Bool :=
  other == name || seen other

/-- The part of a record, if it was read. -/
def taken (read : Bool) (part : β) : Option β := if read then some part else none

/-- The field is read from its layouts, however much was read before. `held value seen` is what is
collected of `value` when the fields with the names in `seen` were read. -/
structure Field.Follows (field : Field α σ) (layout : FieldLayout α)
    (held : α → (String → Bool) → σ) : Prop where
  name_eq : layout.name = field.name
  canonical : ∀ value json, field.write value = some json → layout.lays value (exact json)
  /-- What is not written may be missing, or be null. -/
  hidden : ∀ value, field.write value = none → layout.mayMiss value ∧ layout.lays value .null
  accepts : ∀ {value draft} seen, layout.lays value draft →
    field.read draft (held value seen) = .ok (held value (alsoSeen field.name seen))
  refuses : ∀ {draft collected next}, layout.repeats draft →
    field.read draft collected ≠ .ok next
  isSet_eq : ∀ value seen, field.isSet (held value seen) = seen field.name
  needed : field.required → ∀ value, ¬ layout.mayMiss value

theorem Field.Follows.of {format : Format β} {layout : Layout β} (follows : format.Follows layout)
    {name : String} {required : Bool} {get : α → β} {slot : σ → Option β} {fill : β → σ → σ}
    {hidden : β → Bool} {default : Option β} {held : α → (String → Bool) → σ}
    (slotted : ∀ value seen, slot (held value seen) = taken (seen name) (get value))
    (filled : ∀ value seen, fill (get value) (held value seen) = held value (alsoSeen name seen))
    (shown : ∀ value, hidden value = true → default = some value ∧ layout.lays value .null)
    (needed : required → default = none) :
    (Field.of name required format get slot fill hidden).Follows (.of name get layout default)
      held where
  name_eq := rfl
  canonical value json written := by
    simp only [Field.of] at written
    split at written
    · cases written
    · obtain rfl := Option.some.inj written
      exact follows.canonical (get value)
  hidden value unwritten := by
    simp only [Field.of] at unwritten
    split at unwritten
    next hides => exact shown (get value) hides
    next => cases unwritten
  accepts {value draft} seen lays := by
    show (format.read draft).map _ = .ok (held value (alsoSeen name seen))
    rw [← filled value seen]
    exact map_eq_ok_iff.mpr ⟨get value, follows.accepts lays, rfl⟩
  refuses repeats read := by
    obtain ⟨value, accepted, _⟩ := map_eq_ok_iff.mp read
    exact follows.refuses repeats accepted
  isSet_eq value seen := by
    show (slot (held value seen)).isSome = seen name
    rw [slotted, taken]
    cases seen name <;> rfl
  needed required value := by
    show default ≠ some (get value)
    rw [needed required]
    exact (Option.some_ne_none _).symm

/-- Reading the field marks it as read, and no other one. -/
structure Field.Marks (field : Field α σ) (fields : List (Field α σ)) : Prop where
  isSet_eq : ∀ {draft collected next}, field.read draft collected = .ok next →
    ∀ other ∈ fields, other.isSet next = (other.name == field.name || other.isSet collected)

theorem Field.Marks.of {format : Format β} {name : String} {required : Bool} {get : α → β}
    {slot : σ → Option β} {fill : β → σ → σ} {hidden : β → Bool} {fields : List (Field α σ)}
    (filled : ∀ part collected, ∀ other ∈ fields,
      other.isSet (fill part collected) = (other.name == name || other.isSet collected)) :
    (Field.of name required format get slot fill hidden).Marks fields where
  isSet_eq read := by
    obtain ⟨part, _, rfl⟩ := map_eq_ok_iff.mp read
    exact filled part _

/-- The fields of a record follow their layouts, and together they make up the value. -/
structure RecordFormat.Follows (record : RecordFormat α σ) (layouts : List (FieldLayout α))
    (held : α → (String → Bool) → σ) : Prop where
  distinct : (record.fields.map (·.name)).Nodup
  start_eq : ∀ value, record.start = held value fun _ => false
  fields : List.Forall₂ (fun field layout => field.Follows layout held) record.fields layouts
  marks : ∀ field ∈ record.fields, field.Marks record.fields
  /-- What may not be missing is enough. -/
  finish_eq : ∀ value seen,
    (∀ layout ∈ layouts, seen layout.name = false → layout.mayMiss value) →
      record.finish (held value seen) = some value

end Fields

theorem exists_right_of_forall₂ {α β : Type} {related : α → β → Prop} {lefts : List α}
    {rights : List β} (all : List.Forall₂ related lefts rights) {left : α} (member : left ∈ lefts) :
    ∃ right ∈ rights, related left right := by
  induction all with
  | nil => cases member
  | cons here _ ih =>
    rcases List.mem_cons.mp member with rfl | later
    · exact ⟨_, List.mem_cons_self, here⟩
    · obtain ⟨right, listed, found⟩ := ih later
      exact ⟨right, List.mem_cons_of_mem _ listed, found⟩

namespace RecordFormat

variable {α σ : Type} {record : RecordFormat α σ} {layouts : List (FieldLayout α)}
  {held : α → (String → Bool) → σ} {value : α}

theorem Follows.exists_layout (follows : record.Follows layouts held) {field : Field α σ}
    (among : field ∈ record.fields) : ∃ layout ∈ layouts, field.Follows layout held :=
  exists_right_of_forall₂ follows.fields among

theorem Follows.exists_field (follows : record.Follows layouts held) {layout : FieldLayout α}
    (among : layout ∈ layouts) : ∃ field ∈ record.fields, field.Follows layout held :=
  exists_right_of_forall₂ follows.fields.flip among

/-! ### What a reader accepts -/

theorem find?_name {fields : List (Field α σ)} (distinct : (fields.map (·.name)).Nodup)
    {field : Field α σ} (member : field ∈ fields) :
    fields.find? (·.name == field.name) = some field := by
  induction fields with
  | nil => cases member
  | cons other fields ih =>
    rw [List.map_cons, List.nodup_cons] at distinct
    rcases List.mem_cons.mp member with rfl | later
    · rw [List.find?_cons_of_pos (by simp)]
    · have apart : other.name ≠ field.name := fun same =>
        distinct.1 (same ▸ List.mem_map_of_mem later)
      rw [List.find?_cons_of_neg (by simpa using apart), ih distinct.2 later]

/-- What the first member does: it is no field and is passed over, or it is a field that was not
read before and is read now. -/
theorem readMembers_cons_eq_ok_iff {fields : List (Field α σ)}
    (distinct : (fields.map (·.name)).Nodup) {collected last : σ} {key : String} {draft : Draft}
    {members : List (Option String × Draft)} :
    readMembers fields collected ((some key, draft) :: members) = .ok last ↔
      ((∀ field ∈ fields, field.name ≠ key) ∧ draft.isWhole = true ∧
          readMembers fields collected members = .ok last) ∨
        ∃ field ∈ fields, field.name = key ∧ field.isSet collected = false ∧
          ∃ next, field.read draft collected = .ok next ∧
            readMembers fields next members = .ok last := by
  rw [readMembers]
  constructor
  · intro read
    cases known : fields.find? (·.name == key) with
    | none =>
      simp only [known] at read
      split at read
      next whole =>
        have unknown := List.find?_eq_none.mp known
        exact .inl ⟨fun field among same => unknown field among (by simp [same]), whole, read⟩
      next => cases read
    | some field =>
      simp only [known] at read
      split at read
      next => cases read
      next unset =>
        obtain ⟨next, first, rest⟩ := bind_eq_ok_iff.mp read
        exact .inr ⟨field, List.mem_of_find?_eq_some known, by simpa using List.find?_some known,
          Bool.eq_false_iff.mpr unset, next, first, rest⟩
  · rintro (⟨unknown, whole, read⟩ | ⟨field, among, rfl, unset, next, first, rest⟩)
    · have known : fields.find? (·.name == key) = none :=
        List.find?_eq_none.mpr fun field among => by simpa using unknown field among
      simpa only [known, whole, if_true] using read
    · simp only [find?_name distinct among, unset]
      exact bind_eq_ok_iff.mpr ⟨next, first, rest⟩

/-- The members that suit a record are read one after the other. -/
theorem Follows.readMembers_eq (follows : record.Follows layouts held)
    {members : List (Option String × Draft)} (suit : MembersSuit layouts value members)
    (seen : String → Bool)
    (new : ∀ layout ∈ layouts, seen layout.name = true → some layout.name ∉ members.map Prod.fst) :
    ∃ later, readMembers record.fields (held value seen) members = .ok (held value later) ∧
      (∀ name, seen name = true → later name = true) ∧
      ∀ layout ∈ layouts, later layout.name = false → some layout.name ∉ members.map Prod.fst := by
  induction members generalizing seen with
  | nil => exact ⟨seen, rfl, fun _ there => there, fun _ _ _ => List.not_mem_nil⟩
  | cons member members ih =>
    obtain ⟨_ | key, draft⟩ := member
    · rcases suit.others _ List.mem_cons_self with ⟨_, _, impossible⟩ | ⟨impossible, _⟩ <;>
        cases impossible
    by_cases known : ∃ layout ∈ layouts, layout.name = key
    · obtain ⟨layout, among, rfl⟩ := known
      obtain ⟨field, listed, takes⟩ := follows.exists_field among
      have unset : field.isSet (held value seen) = false := by
        rw [takes.isSet_eq, ← takes.name_eq]
        exact Bool.eq_false_iff.mpr fun there => new layout among there List.mem_cons_self
      have accepted := takes.accepts seen (suit.lays layout among draft List.mem_cons_self)
      have others : ∀ other ∈ layouts, alsoSeen field.name seen other.name = true →
          some other.name ∉ members.map Prod.fst := by
        intro other declared there
        by_cases same : other.name = layout.name
        · exact same ▸ suit.not_mem among
        · have before : seen other.name = true := by
            simpa [alsoSeen, ← takes.name_eq, same] using there
          exact fun member => new other declared before (List.mem_cons_of_mem _ member)
      obtain ⟨later, read, kept, all⟩ := ih suit.tail (alsoSeen field.name seen) others
      refine ⟨later, ?_, fun name there => kept name (by simp [alsoSeen, there]), ?_⟩
      · exact (readMembers_cons_eq_ok_iff follows.distinct).mpr
          (.inr ⟨field, listed, takes.name_eq.symm, unset, _, accepted, read⟩)
      · intro other declared unseen member
        rcases List.mem_cons.mp member with same | later
        · have there := kept field.name (by simp [alsoSeen])
          rw [← takes.name_eq, ← Option.some.inj same, unseen] at there
          cases there
        · exact all other declared unseen later
    · have unknown : ∀ layout ∈ layouts, layout.name ≠ key :=
        fun layout among same => known ⟨layout, among, same⟩
      have whole : draft.isWhole = true := by
        rcases suit.others _ List.mem_cons_self with ⟨layout, among, same⟩ | ⟨_, whole⟩
        · exact absurd (Option.some.inj same).symm (unknown layout among)
        · exact whole
      have noField : ∀ field ∈ record.fields, field.name ≠ key := by
        intro field listed
        obtain ⟨layout, among, takes⟩ := follows.exists_layout listed
        exact takes.name_eq ▸ unknown layout among
      obtain ⟨later, read, kept, all⟩ := ih suit.tail seen fun layout among there member =>
        new layout among there (List.mem_cons_of_mem _ member)
      refine ⟨later, ?_, kept, fun layout among unseen member => ?_⟩
      · exact (readMembers_cons_eq_ok_iff follows.distinct).mpr (.inl ⟨noField, whole, read⟩)
      rcases List.mem_cons.mp member with same | listed
      · exact unknown layout among (Option.some.inj same)
      · exact all layout among unseen listed

/-- The items that lay out a record are read as its fields. -/
theorem readItems_eq {fields : List (Field α σ)} {layouts : List (FieldLayout α)}
    (all : List.Forall₂ (fun field layout => field.Follows layout held) fields layouts)
    {items : List Draft} (lay : ItemsLay value layouts items) (seen : String → Bool) :
    ∃ later, readItems fields (held value seen) items = .ok (held value later, []) ∧
      (∀ name, seen name = true → later name = true) ∧
      ∀ layout ∈ layouts, later layout.name = false → layout.mayMiss value := by
  induction all generalizing items seen with
  | nil =>
    obtain rfl : items = [] := lay
    exact ⟨seen, rfl, fun _ there => there, List.forall_mem_nil _⟩
  | @cons field layout fields layouts takes _ ih =>
    cases items with
    | nil => exact ⟨seen, rfl, fun _ there => there, fun layout among _ => lay layout among⟩
    | cons item items =>
      obtain ⟨lays, rest⟩ := lay
      obtain ⟨later, read, kept, missing⟩ := ih rest (alsoSeen field.name seen)
      refine ⟨later, ?_, fun name there => kept name (by simp [alsoSeen, there]), ?_⟩
      · rw [readItems, takes.accepts seen lays]
        exact read
      · refine List.forall_mem_cons.mpr ⟨fun unseen => ?_, missing⟩
        have there := kept field.name (by simp [alsoSeen])
        rw [← takes.name_eq, unseen] at there
        cases there

/-- A record is complete once nothing is missing that must not be. -/
theorem Follows.missing?_eq_none (follows : record.Follows layouts held) {seen : String → Bool}
    (missing : ∀ layout ∈ layouts, seen layout.name = false → layout.mayMiss value) :
    missing? record.fields (held value seen) = none := by
  refine List.find?_eq_none.mpr fun field among => ?_
  obtain ⟨layout, listed, takes⟩ := follows.exists_layout among
  rw [takes.isSet_eq]
  cases needed : field.required with
  | false => simp
  | true =>
    have there : seen field.name = true := by
      refine Bool.of_not_eq_false fun unseen => ?_
      exact takes.needed needed value (missing layout listed (takes.name_eq ▸ unseen))
    simp [there]

/-! ### What a reader refuses -/

/-- No field is read twice, and each was read from the draft under its name. -/
theorem readOnce_of_readMembers
    (marks : ∀ field ∈ record.fields, field.Marks record.fields)
    (distinct : (record.fields.map (·.name)).Nodup) {members : List (Option String × Draft)}
    {collected last : σ} (read : readMembers record.fields collected members = .ok last)
    {field : Field α σ} (among : field ∈ record.fields) :
    (field.isSet collected = true → some field.name ∉ members.map Prod.fst) ∧
      (members.map Prod.fst).count (some field.name) ≤ 1 ∧
      ∀ draft, (some field.name, draft) ∈ members →
        ∃ before next, field.read draft before = .ok next := by
  induction members generalizing collected with
  | nil => simp
  | cons member members ih =>
    obtain ⟨_ | key, draft⟩ := member
    · cases read
    · -- What is read behind the first member, under another name than that of the field.
      have apart {next : σ} (rest : readMembers record.fields next members = .ok last)
          (other : field.name ≠ key) (kept : field.isSet next = field.isSet collected) :
          (field.isSet collected = true →
              some field.name ∉ ((some key, draft) :: members).map Prod.fst) ∧
            (((some key, draft) :: members).map Prod.fst).count (some field.name) ≤ 1 ∧
            ∀ inner, (some field.name, inner) ∈ (some key, draft) :: members →
              ∃ before next, field.read inner before = .ok next := by
        obtain ⟨new, once, accepted⟩ := ih rest
        have differ : some key ≠ some field.name := fun same => other (Option.some.inj same).symm
        rw [List.map_cons, List.count_cons_of_ne differ, List.mem_cons, not_or]
        refine ⟨fun set => ⟨differ.symm, new (kept ▸ set)⟩, once, fun inner member => ?_⟩
        rcases List.mem_cons.mp member with same | later
        · exact absurd (Prod.mk.inj same).1.symm differ
        · exact accepted inner later
      rcases (readMembers_cons_eq_ok_iff distinct).mp read with
        ⟨unknown, _, rest⟩ | ⟨other, listed, rfl, unset, next, first, rest⟩
      · exact apart rest (unknown field among) rfl
      have marked := (marks other listed).isSet_eq first field among
      by_cases same : field.name = other.name
      · obtain rfl := List.inj_on_of_nodup_map distinct among listed same
        obtain ⟨new, _, accepted⟩ := ih rest
        have absent := new (by simp [marked])
        refine ⟨fun set => absurd set (by simp [unset]), ?_, fun inner member => ?_⟩
        · have uncounted := List.count_eq_zero.mpr absent
          rw [List.map_cons, List.count_cons_self]
          exact Nat.succ_le_succ (Nat.le_of_eq uncounted)
        · rcases List.mem_cons.mp member with head | later
          · obtain ⟨_, rfl⟩ := Prod.mk.inj head
            exact ⟨collected, next, first⟩
          · exact absurd (List.mem_map_of_mem later) absent
      · exact apart rest same (by rw [marked, beq_false_of_ne same, Bool.false_or])

theorem exists_ok_of_readItems {fields : List (Field α σ)} {items : List Draft} {collected : σ}
    {result : σ × List Draft} (read : readItems fields collected items = .ok result)
    {pair : Field α σ × Draft} (member : pair ∈ fields.zip items) :
    ∃ before next, pair.1.read pair.2 before = .ok next := by
  induction fields generalizing items collected with
  | nil => cases member
  | cons field fields ih =>
    cases items with
    | nil => cases member
    | cons item items =>
      obtain ⟨next, first, rest⟩ := bind_eq_ok_iff.mp read
      rcases List.mem_cons.mp member with rfl | later
      · exact ⟨collected, next, first⟩
      · exact ih rest later

/-! ### The format of a record -/

theorem mem_exactMembers_writeFields {fields : List (Field α σ)}
    {member : Option String × Draft} : member ∈ exactMembers (writeFields fields value) ↔
      ∃ field ∈ fields, ∃ json, field.write value = some json ∧
        member = (some field.name, exact json) := by
  simp only [exactMembers_eq, writeFields, List.mem_map, List.mem_filterMap, Option.map_eq_some_iff]
  constructor
  · rintro ⟨_, ⟨field, among, json, written, rfl⟩, rfl⟩
    exact ⟨field, among, json, written, rfl⟩
  · rintro ⟨field, among, json, written, rfl⟩
    exact ⟨_, ⟨field, among, json, written, rfl⟩, rfl⟩

theorem sublist_keys_writeFields (fields : List (Field α σ)) (value : α) :
    ((exactMembers (writeFields fields value)).map Prod.fst).Sublist
      (fields.map fun field => some field.name) := by
  induction fields with
  | nil => exact .slnil
  | cons field fields ih =>
    cases written : field.write value with
    | none =>
      rw [writeFields, List.filterMap_cons_none (by rw [written]; rfl)]
      exact ih.cons _
    | some json =>
      rw [writeFields, List.filterMap_cons_some (by rw [written]; rfl)]
      exact ih.cons_cons _

/-- What is written of a record lays it out. -/
theorem Follows.membersLay_write (follows : record.Follows layouts held) (value : α) :
    MembersLay layouts value (exactMembers (writeFields record.fields value)) := by
  have keys : ((exactMembers (writeFields record.fields value)).map Prod.fst).Nodup := by
    refine (sublist_keys_writeFields record.fields value).nodup ?_
    have names := follows.distinct.map fun _ _ same => Option.some.inj same
    rwa [List.map_map] at names
  refine ⟨⟨?_, ?_, ?_⟩, ?_⟩
  · exact fun layout _ => List.nodup_iff_count_le_one.mp keys (some layout.name)
  · intro layout among draft member
    obtain ⟨field, listed, takes⟩ := follows.exists_field among
    obtain ⟨other, also, json, written, same⟩ := mem_exactMembers_writeFields.mp member
    obtain ⟨name, rfl⟩ := Prod.mk.inj same
    rw [takes.name_eq] at name
    obtain rfl := List.inj_on_of_nodup_map follows.distinct listed also (Option.some.inj name)
    exact takes.canonical value json written
  · intro member listed
    obtain ⟨field, among, json, _, rfl⟩ := mem_exactMembers_writeFields.mp listed
    obtain ⟨layout, also, takes⟩ := follows.exists_layout among
    exact .inl ⟨layout, also, congrArg some takes.name_eq.symm⟩
  · intro layout among absent
    obtain ⟨field, listed, takes⟩ := follows.exists_field among
    cases written : field.write value with
    | none => exact (takes.hidden value written).1
    | some json =>
      have member : (some field.name, exact json) ∈
          exactMembers (writeFields record.fields value) :=
        mem_exactMembers_writeFields.mpr ⟨field, listed, json, written, rfl⟩
      rw [takes.name_eq] at absent
      exact absurd (List.mem_map.mpr ⟨_, member, rfl⟩) absent

/-- The items that an array has for the fields of a record. -/
def fieldItems (fields : List (Field α σ)) (value : α) : List Json :=
  fields.map fun field => (field.write value).getD .null

/-- The fields in their order lay out a record. -/
theorem itemsLay_fieldItems {fields : List (Field α σ)} {layouts : List (FieldLayout α)}
    (all : List.Forall₂ (fun field layout => field.Follows layout held) fields layouts)
    (value : α) :
    ItemsLay value layouts (exactItems (fieldItems fields value)) := by
  induction all with
  | nil => rfl
  | @cons field layout _ _ takes _ ih =>
    refine ⟨?_, ih⟩
    show layout.lays value (exact ((field.write value).getD .null))
    cases written : field.write value with
    | none => exact (takes.hidden value written).2
    | some json => exact takes.canonical value json written

theorem exists_field_of_mem_zip {fields : List (Field α σ)} {layouts : List (FieldLayout α)}
    (all : List.Forall₂ (fun field layout => field.Follows layout held) fields layouts)
    {items : List Draft} {pair : FieldLayout α × Draft} (member : pair ∈ layouts.zip items) :
    ∃ field, (field, pair.2) ∈ fields.zip items ∧ field.Follows pair.1 held := by
  induction all generalizing items with
  | nil => cases member
  | cons takes _ ih =>
    cases items with
    | nil => cases member
    | cons item items =>
      rcases List.mem_cons.mp member with rfl | later
      · exact ⟨_, List.mem_cons_self, takes⟩
      · obtain ⟨field, listed, found⟩ := ih later
        exact ⟨field, List.mem_cons_of_mem _ listed, found⟩

theorem Follows.not_ok_of_repeats (follows : record.Follows layouts held) {draft : Draft}
    (repeats : (Layout.record layouts).repeats draft) : record.format.read draft ≠ .ok value := by
  intro read
  rcases repeats with ⟨members, closed, rfl, layout, among, twice⟩ |
    ⟨items, closed, rfl, pair, member, repeats⟩
  · obtain ⟨last, done, _⟩ := bind_eq_ok_iff.mp read
    obtain ⟨field, listed, takes⟩ := follows.exists_field among
    obtain ⟨_, once, accepted⟩ := readOnce_of_readMembers follows.marks follows.distinct done
      listed
    rw [takes.name_eq] at twice
    rcases twice with twice | ⟨inner, member, repeats⟩
    · exact absurd once (Nat.not_le_of_lt twice)
    · obtain ⟨_, _, accepted⟩ := accepted inner member
      exact takes.refuses repeats accepted
  · obtain ⟨_, done, _⟩ := bind_eq_ok_iff.mp read
    obtain ⟨field, listed, takes⟩ := exists_field_of_mem_zip follows.fields member
    obtain ⟨_, _, accepted⟩ := exists_ok_of_readItems done listed
    exact takes.refuses repeats accepted

/-- **A record follows the layouts of its fields.** -/
theorem Follows.format (follows : record.Follows layouts held) :
    record.format.Follows (.record layouts) where
  canonical value := .inl ⟨_, rfl, follows.membersLay_write value⟩
  accepts := by
    rintro value _ (⟨members, rfl, lay⟩ | ⟨items, rfl, lay⟩)
    · obtain ⟨seen, read, _, missing⟩ := follows.readMembers_eq lay.toMembersSuit (fun _ => false)
        fun _ _ there => nomatch there
      have missing : ∀ layout ∈ layouts, seen layout.name = false → layout.mayMiss value :=
        fun layout among unseen => lay.missing layout among (missing layout among unseen)
      rw [← follows.start_eq] at read
      refine bind_eq_ok_iff.mpr ⟨held value seen, read, ?_⟩
      simp only [follows.missing?_eq_none missing, RecordFormat.complete,
        follows.finish_eq value seen missing]
      rfl
    · obtain ⟨seen, read, _, missing⟩ := readItems_eq follows.fields lay fun _ => false
      rw [← follows.start_eq] at read
      refine bind_eq_ok_iff.mpr ⟨(held value seen, []), read, ?_⟩
      simp only [follows.missing?_eq_none missing, RecordFormat.complete,
        follows.finish_eq value seen missing]
      rfl
  refuses := follows.not_ok_of_repeats

end RecordFormat

end Phrasebook.Json
