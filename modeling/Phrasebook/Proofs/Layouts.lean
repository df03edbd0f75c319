/-
**Layouts: the many drafts that say the same.**

A value can be laid out in other ways than the one in which it is written. A record may have its
fields in any order, members with other names among them, and may lack fields that are at their
default; or it may be an array of its fields. `Layout` says which drafts lay out a value, and which
ones repeat a field that may stand only once; `MembersLay` and `ItemsLay` say so of records, and
there are layouts of lists, dictionaries and optional values of anything that has layouts, to any
depth.

`EditedMembers` are the members that come of edits, one after the other: members are permuted, a
field is left out or laid out anew, a member with another name is put in. What edits make of a
layout is a layout again (`MembersLay.edited`), however deep the value is that is put in
(`isWhole_exact`).

A format that follows a layout reads the value from each of its layouts and refuses the drafts that
repeat a field (`Format.Follows`). The formats of lists, dictionaries and optional values do if the
formats inside them do. As what is written is one of the layouts, such a format restores its values
(`Follows.restores`).
-/

import Mathlib.Data.List.Nodup
import Phrasebook.Proofs.Formats

namespace Phrasebook.Json

open Draft

/-! ### Layouts -/

/-- Which drafts say the same as a value, and which ones repeat a field somewhere. -/
structure Layout (α : Type) where
  lays : α → Draft → Prop
  repeats : Draft → Prop

/-- A field of a record, with how it is laid out. -/
structure FieldLayout (α : Type) where
  name : String
  /-- The draft lays out the field of the record. -/
  lays : α → Draft → Prop
  /-- The field may be left out, since the record has its default there. -/
  mayMiss : α → Prop
  repeats : Draft → Prop

/-- The field that is taken from a record by `get`, with its default if it has one. -/
def FieldLayout.of {α β : Type} (name : String) (get : α → β) (layout : Layout β)
    (default : Option β) : FieldLayout α where
  name := name
  lays record := layout.lays (get record)
  mayMiss record := default = some (get record)
  repeats := layout.repeats

section Records

variable {α : Type}

/-- The members suit the record: a field stands at most once, laid out as the record has it, and
each other member has a key and a well-formed value. -/
structure MembersSuit (fields : List (FieldLayout α)) (record : α)
    (members : List (Option String × Draft)) : Prop where
  once : ∀ field ∈ fields, (members.map Prod.fst).count (some field.name) ≤ 1
  lays : ∀ field ∈ fields, ∀ draft, (some field.name, draft) ∈ members → field.lays record draft
  others : ∀ member ∈ members, (∃ field ∈ fields, member.1 = some field.name) ∨
    member.1.isSome ∧ member.2.isWhole = true

/-- The members lay out the record: they suit it, and where a field is missing the record has its
default. -/
structure MembersLay (fields : List (FieldLayout α)) (record : α)
    (members : List (Option String × Draft)) : Prop extends MembersSuit fields record members where
  missing : ∀ field ∈ fields, some field.name ∉ members.map Prod.fst → field.mayMiss record

/-- The items lay out the fields of the record in their order; fields at their default may be left
out at the end. -/
def ItemsLay (record : α) : List (FieldLayout α) → List Draft → Prop
  | [], items => items = []
  | field :: fields, [] => ∀ left ∈ field :: fields, left.mayMiss record
  | field :: fields, item :: items => field.lays record item ∧ ItemsLay record fields items

/-- A field stands twice among the members, or is itself a draft that repeats a field. -/
def MembersRepeat (fields : List (FieldLayout α)) (members : List (Option String × Draft)) : Prop :=
  ∃ field ∈ fields, 1 < (members.map Prod.fst).count (some field.name) ∨
    ∃ draft, (some field.name, draft) ∈ members ∧ field.repeats draft

end Records

namespace Layout

variable {α : Type}

/-- Only what the format writes. -/
def written (format : Format α) : Layout α where
  lays value draft := draft = exact (format.write value)
  repeats _ := False

/-- Arrays of what the layout allows for the items. -/
def list (layout : Layout α) : Layout (List α) where
  lays values draft := ∃ items, draft = .array items true ∧ List.Forall₂ layout.lays values items
  repeats draft := ∃ items closed, draft = .array items closed ∧ ∃ item ∈ items, layout.repeats item

/-- Objects of what the layout allows under the keys; of members with the same key the last one
counts. -/
def dictionary (layout : Layout α) : Layout (Dictionary String α) where
  lays values draft := ∃ entries members, draft = .object members true ∧
    List.Forall₂ (fun entry member => member.1 = some entry.1 ∧ layout.lays entry.2 member.2)
      entries members ∧ values = .ofList entries
  repeats draft := ∃ members closed, draft = .object members closed ∧
    ∃ member ∈ members, layout.repeats member.2

/-- Null, or what the layout allows. -/
def optional (layout : Layout α) : Layout (Option α) where
  lays value draft := value.elim (draft = .null) fun present => layout.lays present draft
  repeats := layout.repeats

/-- Objects and arrays of the fields. -/
def record (fields : List (FieldLayout α)) : Layout α where
  lays value draft := (∃ members, draft = .object members true ∧ MembersLay fields value members) ∨
    ∃ items, draft = .array items true ∧ ItemsLay value fields items
  repeats draft :=
    (∃ members closed, draft = .object members closed ∧ MembersRepeat fields members) ∨
      ∃ items closed, draft = .array items closed ∧ ∃ pair ∈ fields.zip items, pair.1.repeats pair.2

end Layout

/-! ### Edits of objects -/

mutual

theorem isWhole_exact : ∀ value : Json, (exact value).isWhole = true
  | .null | .bool _ | .number _ | .string _ => rfl
  | .array items => areWhole_exactItems items
  | .object members => membersWhole_exactMembers members

theorem areWhole_exactItems : ∀ items : List Json, areWhole (exactItems items) = true
  | [] => rfl
  | item :: items => Bool.and_eq_true_iff.mpr ⟨isWhole_exact item, areWhole_exactItems items⟩

theorem membersWhole_exactMembers :
    ∀ members : List (String × Json), membersWhole (exactMembers members) = true
  | [] => rfl
  | (_, value) :: members =>
    Bool.and_eq_true_iff.mpr ⟨isWhole_exact value, membersWhole_exactMembers members⟩

end

section Edits

variable {α : Type} (fields : List (FieldLayout α)) (record : α)

/-- The members that come of editing others without changing the record. -/
inductive EditedMembers (start : List (String × Json)) : List (String × Json) → Prop where
  | start : EditedMembers start start
  | permute {members others : List (String × Json)} :
      EditedMembers start members → members.Perm others → EditedMembers start others
  | leaveOut {field : FieldLayout α} {json : Json} {members : List (String × Json)} :
      EditedMembers start ((field.name, json) :: members) → field ∈ fields →
      field.mayMiss record → EditedMembers start members
  | layAnew {field : FieldLayout α} {json other : Json} {members : List (String × Json)} :
      EditedMembers start ((field.name, json) :: members) → field ∈ fields →
      field.lays record (exact other) → EditedMembers start ((field.name, other) :: members)
  | putIn {key : String} {members : List (String × Json)} (json : Json) :
      EditedMembers start members → (∀ field ∈ fields, field.name ≠ key) →
      EditedMembers start ((key, json) :: members)

end Edits

/-- What stands in front does not stand behind once more. -/
theorem MembersSuit.not_mem {α : Type} {fields : List (FieldLayout α)} {record : α}
    {field : FieldLayout α} {draft : Draft} {members : List (Option String × Draft)}
    (suit : MembersSuit fields record ((some field.name, draft) :: members))
    (among : field ∈ fields) :
    some field.name ∉ members.map Prod.fst := by
  have once := suit.once field among
  rw [List.map_cons, List.count_cons_self] at once
  exact List.count_eq_zero.mp (Nat.le_zero.mp (Nat.le_of_succ_le_succ once))

theorem MembersSuit.tail {α : Type} {fields : List (FieldLayout α)} {record : α}
    {member : Option String × Draft} {members : List (Option String × Draft)}
    (suit : MembersSuit fields record (member :: members)) : MembersSuit fields record members where
  once field among := Nat.le_trans List.count_le_count_cons (suit.once field among)
  lays field among draft listed := suit.lays field among draft (List.mem_cons_of_mem _ listed)
  others := (List.forall_mem_cons.mp suit.others).2

namespace MembersLay

variable {α : Type} {fields : List (FieldLayout α)} {record : α}
  {members others : List (Option String × Draft)}

theorem perm (lays : MembersLay fields record members) (permuted : members.Perm others) :
    MembersLay fields record others := by
  have keys := permuted.map Prod.fst
  refine ⟨⟨?_, ?_, ?_⟩, ?_⟩
  · exact fun field among => keys.count_eq (some field.name) ▸ lays.once field among
  · exact fun field among draft member => lays.lays field among draft (permuted.mem_iff.mpr member)
  · exact fun member listed => lays.others member (permuted.mem_iff.mpr listed)
  · exact fun field among absent => lays.missing field among (mt keys.mem_iff.mp absent)

/-- Members without the first one, which is no field. -/
theorem cons_other {key : String} {draft : Draft} (lays : MembersLay fields record members)
    (unknown : ∀ field ∈ fields, field.name ≠ key) (whole : draft.isWhole = true) :
    MembersLay fields record ((some key, draft) :: members) := by
  have apart {field : FieldLayout α} (among : field ∈ fields) : some key ≠ some field.name :=
    fun same => unknown field among (Option.some.inj same).symm
  refine ⟨⟨?_, ?_, ?_⟩, ?_⟩
  · intro field among
    rw [List.map_cons, List.count_cons_of_ne (apart among)]
    exact lays.once field among
  · intro field among inner member
    rcases List.mem_cons.mp member with same | later
    · exact absurd (Prod.mk.inj same).1.symm (apart among)
    · exact lays.lays field among inner later
  · exact List.forall_mem_cons.mpr ⟨.inr ⟨rfl, whole⟩, lays.others⟩
  · exact fun field among absent => lays.missing field among (mt (List.mem_cons_of_mem _) absent)

variable (distinct : (fields.map (·.name)).Nodup) {field : FieldLayout α} {draft : Draft}

include distinct

theorem cons_anew {other : Draft}
    (lays : MembersLay fields record ((some field.name, draft) :: members)) (among : field ∈ fields)
    (anew : field.lays record other) :
    MembersLay fields record ((some field.name, other) :: members) := by
  refine ⟨⟨?_, ?_, ?_⟩, ?_⟩
  · exact lays.once
  · intro same listed inner member
    rcases List.mem_cons.mp member with head | later
    · obtain ⟨name, rfl⟩ := Prod.mk.inj head
      obtain rfl := List.inj_on_of_nodup_map distinct listed among (Option.some.inj name)
      exact anew
    · exact lays.lays same listed inner (List.mem_cons_of_mem _ later)
  · exact List.forall_mem_cons.mpr ⟨.inl ⟨field, among, rfl⟩, lays.tail.others⟩
  · exact lays.missing

theorem of_cons (lays : MembersLay fields record ((some field.name, draft) :: members))
    (among : field ∈ fields) (default : field.mayMiss record) :
    MembersLay fields record members := by
  refine ⟨lays.tail, fun other listed absent => ?_⟩
  by_cases same : other.name = field.name
  · exact List.inj_on_of_nodup_map distinct listed among same ▸ default
  · refine lays.missing other listed fun member => ?_
    rcases List.mem_cons.mp member with head | later
    · exact same (Option.some.inj head)
    · exact absent later

/-- **Edits keep a layout what it is.** -/
theorem edited {start others : List (String × Json)}
    (lays : MembersLay fields record (exactMembers start))
    (edits : EditedMembers fields record start others) :
    MembersLay fields record (exactMembers others) := by
  induction edits with
  | start => exact lays
  | @permute members others _ permuted ih =>
    rw [exactMembers_eq] at ih ⊢
    exact ih.perm (permuted.map _)
  | leaveOut _ among default ih => exact ih.of_cons distinct among default
  | layAnew _ among anew ih => exact ih.cons_anew distinct among anew
  | putIn json _ unknown ih => exact ih.cons_other unknown (isWhole_exact json)

end MembersLay

/-! ### Formats that follow layouts -/

/-- The format reads a value from each of its layouts, what it writes being one of them, and refuses
the drafts that repeat a field. -/
structure Format.Follows {α : Type} (format : Format α) (layout : Layout α) : Prop where
  canonical : ∀ value, layout.lays value (exact (format.write value))
  accepts : ∀ {value draft}, layout.lays value draft → format.read draft = .ok value
  refuses : ∀ {value draft}, layout.repeats draft → format.read draft ≠ .ok value

namespace Format

variable {α : Type} {format : Format α} {layout : Layout α}

theorem Restores.follows (restores : format.Restores) : format.Follows (.written format) where
  canonical _ := rfl
  accepts {value _} lays := lays ▸ restores value
  refuses := False.elim

theorem Follows.restores (follows : format.Follows layout) : format.Restores :=
  fun value => follows.accepts (follows.canonical value)

theorem Follows.mapM_eq (follows : format.Follows layout) {values : List α} {items : List Draft}
    (lay : List.Forall₂ layout.lays values items) : items.mapM format.read = .ok values :=
  mapM_eq_ok_iff.mpr (lay.imp fun _ _ lays => follows.accepts lays).flip

theorem Follows.list (follows : format.Follows layout) :
    (Format.list format).Follows (.list layout) where
  canonical values := by
    refine ⟨_, congrArg (Draft.array · true) (exactItems_eq _), ?_⟩
    rw [List.map_map, List.forall₂_map_right_iff, List.forall₂_same]
    exact fun value _ => follows.canonical value
  accepts := by
    rintro values _ ⟨items, rfl, lay⟩
    exact bind_eq_ok_iff.mpr ⟨values, follows.mapM_eq lay, rfl⟩
  refuses := by
    rintro values _ ⟨items, closed, rfl, item, member, repeats⟩ read
    obtain ⟨_, done, _⟩ := bind_eq_ok_iff.mp read
    obtain ⟨value, accepted⟩ := exists_ok_of_mapM done member
    exact follows.refuses repeats accepted

theorem Restores.list (restores : format.Restores) : (Format.list format).Restores :=
  restores.follows.list.restores

theorem Follows.readEntries_eq (follows : format.Follows layout) {entries : List (String × α)}
    {members : List (Option String × Draft)} (dictionary : Dictionary String α)
    (lay : List.Forall₂ (fun entry member => member.1 = some entry.1 ∧ layout.lays entry.2 member.2)
      entries members) :
    readEntries format dictionary members =
      .ok (entries.foldl (fun dictionary entry => dictionary.insert entry.1 entry.2)
        dictionary) := by
  induction lay generalizing dictionary with
  | nil => rfl
  | @cons entry member _ _ head _ ih =>
    obtain ⟨_, draft⟩ := member
    obtain ⟨rfl, lays⟩ := head
    rw [readEntries, follows.accepts lays]
    exact ih _

theorem exists_ok_of_readEntries {dictionary result : Dictionary String α}
    {members : List (Option String × Draft)}
    (read : readEntries format dictionary members = .ok result) {member : Option String × Draft}
    (listed : member ∈ members) : ∃ value, format.read member.2 = .ok value := by
  induction members generalizing dictionary with
  | nil => cases listed
  | cons head members ih =>
    obtain ⟨key, draft⟩ := head
    cases key with
    | none => cases read
    | some key =>
      obtain ⟨value, accepted, rest⟩ := bind_eq_ok_iff.mp read
      rcases List.mem_cons.mp listed with rfl | later
      · exact ⟨value, accepted⟩
      · exact ih rest later

theorem Follows.dictionary (follows : format.Follows layout) :
    (Format.dictionary format).Follows (.dictionary layout) where
  canonical values := by
    refine ⟨values.entries, _, congrArg (Draft.object · true) (exactMembers_eq _), ?_,
      values.ofList_entries.symm⟩
    rw [List.map_map, List.forall₂_map_right_iff, List.forall₂_same]
    exact fun entry _ => ⟨rfl, follows.canonical entry.2⟩
  accepts := by
    rintro _ _ ⟨entries, members, rfl, lay, rfl⟩
    exact bind_eq_ok_iff.mpr ⟨_, follows.readEntries_eq .empty lay, rfl⟩
  refuses := by
    rintro values _ ⟨members, closed, rfl, member, listed, repeats⟩ read
    obtain ⟨_, done, _⟩ := bind_eq_ok_iff.mp read
    obtain ⟨value, accepted⟩ := exists_ok_of_readEntries done listed
    exact follows.refuses repeats accepted

theorem Restores.dictionary (restores : format.Restores) :
    (Format.dictionary format).Restores :=
  restores.follows.dictionary.restores

/-- A missing value is told from one that is there as long as null lays out none. -/
theorem Follows.optional (follows : format.Follows layout)
    (present : ∀ value, ¬ layout.lays value .null) (single : ¬ layout.repeats .null) :
    (Format.optional format).Follows (.optional layout) where
  canonical value := by
    cases value with
    | none => rfl
    | some value => exact follows.canonical value
  accepts := by
    rintro (_ | value) draft lays
    · obtain rfl : draft = .null := lays
      rfl
    · have lays : layout.lays value draft := lays
      have read := follows.accepts lays
      cases draft with
      | null => exact absurd lays (present value)
      | _ => exact map_eq_ok_iff.mpr ⟨value, read, rfl⟩
  refuses := by
    rintro value draft repeats read
    have repeats : layout.repeats draft := repeats
    cases draft with
    | null => exact single repeats
    | _ =>
      obtain ⟨inner, accepted, _⟩ := map_eq_ok_iff.mp read
      exact follows.refuses repeats accepted

theorem Restores.optional (restores : format.Restores)
    (present : ∀ value, exact (format.write value) ≠ .null) :
    (Format.optional format).Restores :=
  (restores.follows.optional (fun value => (present value).symm) nofun).restores

end Format

end Phrasebook.Json
