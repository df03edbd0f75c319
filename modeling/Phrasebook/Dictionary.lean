/-
**Dictionaries in ascending key order.**

A dictionary is a list of entries whose keys ascend strictly, so two dictionaries that answer every
look-up alike are equal (`Dictionary.ext_find?`) and the order in which entries were put in leaves
no trace. `find?_insert` says what one insertion does to the look-ups, `find?_eq_some_iff` ties the
look-ups to the entries.
-/

namespace Phrasebook

/-- A finite map kept as entries with strictly ascending keys. -/
structure Dictionary (κ : Type) (α : Type) [Ord κ] where
  /-- The entries, in key order. -/
  entries : List (κ × α)
  /-- Each key comes before all later ones. -/
  ascending : entries.Pairwise fun first second => compare first.1 second.1 = .lt

namespace Dictionary

variable {κ α β : Type} [Ord κ]

theorem ext {first second : Dictionary κ α} (same : first.entries = second.entries) :
    first = second := by
  cases first; cases second; cases same; rfl

instance [DecidableEq κ] [DecidableEq α] : DecidableEq (Dictionary κ α) := fun first second =>
  decidable_of_iff (first.entries = second.entries) ⟨ext, fun same => same ▸ rfl⟩

/-- The dictionary without entries. -/
def empty : Dictionary κ α := ⟨[], .nil⟩

instance : EmptyCollection (Dictionary κ α) := ⟨empty⟩

instance : Inhabited (Dictionary κ α) := ⟨empty⟩

/-- The keys, in ascending order. -/
def keys (dictionary : Dictionary κ α) : List κ := dictionary.entries.map Prod.fst

/-- The number of entries. -/
def size (dictionary : Dictionary κ α) : Nat := dictionary.entries.length

/-- Whether there is no entry. -/
def isEmpty (dictionary : Dictionary κ α) : Bool := dictionary.entries.isEmpty

/-! ### Look-up -/

/-- The value of the first entry under `key`. -/
def findIn? (key : κ) : List (κ × α) → Option α
  | [] => none
  | (other, value) :: rest => if compare key other = .eq then some value else findIn? key rest

/-- The value under `key`. -/
def find? (dictionary : Dictionary κ α) (key : κ) : Option α := findIn? key dictionary.entries

/-- Whether there is a value under `key`. -/
def contains (dictionary : Dictionary κ α) (key : κ) : Bool := (dictionary.find? key).isSome

/-! ### Insertion -/

/-- Puts a value under `key` at its place in the key order, instead of an older one. -/
def insertEntry (key : κ) (value : α) : List (κ × α) → List (κ × α)
  | [] => [(key, value)]
  | (other, old) :: rest =>
    match compare key other with
    | .lt => (key, value) :: (other, old) :: rest
    | .eq => (key, value) :: rest
    | .gt => (other, old) :: insertEntry key value rest

theorem mem_insertEntry {key : κ} {value : α} {entries : List (κ × α)} {entry : κ × α}
    (member : entry ∈ insertEntry key value entries) : entry = (key, value) ∨ entry ∈ entries := by
  induction entries with
  | nil => simpa [insertEntry] using member
  | cons head rest ih =>
    obtain ⟨other, old⟩ := head
    rw [insertEntry] at member
    split at member
    · simpa using member
    · rcases List.mem_cons.mp member with same | later
      · exact .inl same
      · exact .inr (List.mem_cons_of_mem _ later)
    · rcases List.mem_cons.mp member with same | later
      · exact .inr (same ▸ List.mem_cons_self)
      · exact (ih later).imp_right (List.mem_cons_of_mem _)

section Ordered

variable [Std.TransOrd κ] [Std.LawfulEqOrd κ]

theorem insertEntry_ascending (key : κ) (value : α) {entries : List (κ × α)}
    (ascending : entries.Pairwise fun first second => compare first.1 second.1 = .lt) :
    (insertEntry key value entries).Pairwise
      fun first second => compare first.1 second.1 = .lt := by
  induction entries with
  | nil => simp [insertEntry]
  | cons head rest ih =>
    obtain ⟨other, old⟩ := head
    rw [List.pairwise_cons] at ascending
    rw [insertEntry]
    split
    next before =>
      refine List.pairwise_cons.mpr ⟨fun entry member => ?_, List.pairwise_cons.mpr ascending⟩
      rcases List.mem_cons.mp member with same | later
      · exact same ▸ before
      · exact Std.TransCmp.lt_trans before (ascending.1 entry later)
    next same =>
      have equal : key = other := Std.LawfulEqCmp.eq_of_compare same
      exact List.pairwise_cons.mpr ⟨fun entry member => equal ▸ ascending.1 entry member,
        ascending.2⟩
    next after =>
      refine List.pairwise_cons.mpr ⟨fun entry member => ?_, ih ascending.2⟩
      rcases mem_insertEntry member with same | later
      · exact same ▸ Std.OrientedCmp.gt_iff_lt.mp after
      · exact ascending.1 entry later

/-- The dictionary with `value` under `key`, instead of an older value there. -/
def insert (dictionary : Dictionary κ α) (key : κ) (value : α) : Dictionary κ α :=
  ⟨insertEntry key value dictionary.entries, insertEntry_ascending key value dictionary.ascending⟩

/-- The dictionary of a list of entries, of which the last one under a key counts. -/
def ofList (entries : List (κ × α)) : Dictionary κ α :=
  entries.foldl (fun dictionary entry => dictionary.insert entry.1 entry.2) empty

/-- The dictionary with the value under `key` changed by `change`, which is given the old value. -/
def update (dictionary : Dictionary κ α) (key : κ) (change : Option α → α) : Dictionary κ α :=
  dictionary.insert key (change (dictionary.find? key))

end Ordered

/-- The dictionary with every value changed, in knowledge of its key. -/
def mapValues (change : κ → α → β) (dictionary : Dictionary κ α) : Dictionary κ β :=
  ⟨dictionary.entries.map fun entry => (entry.1, change entry.1 entry.2),
    List.pairwise_map.mpr dictionary.ascending⟩

/-! ### What the look-ups show -/

@[simp] theorem find?_empty (key : κ) : (empty : Dictionary κ α).find? key = none := rfl

@[simp] theorem keys_mapValues (change : κ → α → β) (dictionary : Dictionary κ α) :
    (dictionary.mapValues change).keys = dictionary.keys := by
  simp [keys, mapValues]

section Ordered

variable [Std.TransOrd κ] [Std.LawfulEqOrd κ]

omit [Std.TransOrd κ] in
theorem compare_self (key : κ) : compare key key = .eq := Std.ReflCmp.compare_self

omit [Std.TransOrd κ] in
theorem nodup_of_ascending {keys : List κ}
    (ascending : keys.Pairwise fun first second => compare first second = .lt) : keys.Nodup :=
  ascending.imp fun {first second} before same => by
    rw [same, compare_self] at before
    cases before

omit [Std.TransOrd κ] [Std.LawfulEqOrd κ] in
theorem keys_ascending (dictionary : Dictionary κ α) :
    dictionary.keys.Pairwise fun first second => compare first second = .lt :=
  List.pairwise_map.mpr dictionary.ascending

omit [Std.TransOrd κ] in
theorem keys_nodup (dictionary : Dictionary κ α) : dictionary.keys.Nodup :=
  nodup_of_ascending dictionary.keys_ascending

omit [Std.TransOrd κ] in
theorem findIn?_insertEntry (key probe : κ) (value : α) (entries : List (κ × α)) :
    findIn? probe (insertEntry key value entries) =
      if compare probe key = .eq then some value else findIn? probe entries := by
  induction entries with
  | nil => simp [insertEntry, findIn?]
  | cons head rest ih =>
    obtain ⟨other, old⟩ := head
    rw [insertEntry]
    split
    next => simp [findIn?]
    next same =>
      have equal : key = other := Std.LawfulEqCmp.eq_of_compare same
      subst equal
      by_cases hit : compare probe key = .eq <;> simp [findIn?, hit]
    next after =>
      rw [findIn?, findIn?, ih]
      by_cases hit : compare probe other = .eq
      · have equal : probe = other := Std.LawfulEqCmp.eq_of_compare hit
        have apart : ¬compare probe key = .eq := by
          intro same
          have back : probe = key := Std.LawfulEqCmp.eq_of_compare same
          rw [← back, ← equal, compare_self] at after
          cases after
        simp [hit, apart]
      · simp [hit]

theorem find?_insert (dictionary : Dictionary κ α) (key probe : κ) (value : α) :
    (dictionary.insert key value).find? probe =
      if compare probe key = .eq then some value else dictionary.find? probe :=
  findIn?_insertEntry key probe value dictionary.entries

@[simp] theorem find?_insert_self (dictionary : Dictionary κ α) (key : κ) (value : α) :
    (dictionary.insert key value).find? key = some value := by
  rw [find?_insert, if_pos Std.ReflCmp.compare_self]

theorem find?_update (dictionary : Dictionary κ α) (key probe : κ) (change : Option α → α) :
    (dictionary.update key change).find? probe =
      if compare probe key = .eq then some (change (dictionary.find? key))
      else dictionary.find? probe :=
  dictionary.find?_insert key probe _

omit [Std.TransOrd κ] in
theorem findIn?_eq_none_iff {key : κ} {entries : List (κ × α)} :
    findIn? key entries = none ↔ key ∉ entries.map Prod.fst := by
  induction entries with
  | nil => simp [findIn?]
  | cons head rest ih =>
    rw [findIn?, List.map_cons, List.mem_cons, not_or, ← ih]
    by_cases hit : compare key head.1 = .eq
    · have equal : key = head.1 := Std.LawfulEqCmp.eq_of_compare hit
      simp [equal]
    · have apart : key ≠ head.1 := fun equal => hit (equal ▸ compare_self key)
      simp [hit, apart]

omit [Std.TransOrd κ] in
theorem findIn?_eq_some_iff {entries : List (κ × α)} (distinct : (entries.map Prod.fst).Nodup)
    {key : κ} {value : α} : findIn? key entries = some value ↔ (key, value) ∈ entries := by
  induction entries with
  | nil => simp [findIn?]
  | cons head rest ih =>
    obtain ⟨other, old⟩ := head
    rw [List.map_cons, List.nodup_cons] at distinct
    rw [findIn?, List.mem_cons]
    by_cases hit : compare key other = .eq
    · obtain rfl : key = other := Std.LawfulEqCmp.eq_of_compare hit
      have later : (key, value) ∉ rest :=
        fun member => distinct.1 (List.mem_map.mpr ⟨_, member, rfl⟩)
      simp [later, eq_comm]
    · have apart : key ≠ other := fun equal => hit (equal ▸ compare_self key)
      simp [hit, apart, ih distinct.2]

omit [Std.TransOrd κ] in
/-- A look-up finds exactly the entries. -/
theorem find?_eq_some_iff {dictionary : Dictionary κ α} {key : κ} {value : α} :
    dictionary.find? key = some value ↔ (key, value) ∈ dictionary.entries :=
  findIn?_eq_some_iff dictionary.keys_nodup

omit [Std.TransOrd κ] in
theorem find?_mapValues (dictionary : Dictionary κ α) (change : κ → α → β) (key : κ) :
    (dictionary.mapValues change).find? key = (dictionary.find? key).map (change key) := by
  show findIn? key (dictionary.entries.map fun entry => (entry.1, change entry.1 entry.2)) =
    (findIn? key dictionary.entries).map (change key)
  induction dictionary.entries with
  | nil => rfl
  | cons entry entries ih =>
    rw [List.map_cons, findIn?, findIn?, ih]
    by_cases hit : compare key entry.1 = .eq
    · rw [if_pos hit, if_pos hit, Std.LawfulEqCmp.eq_of_compare hit, Option.map_some]
    · rw [if_neg hit, if_neg hit]

omit [Std.TransOrd κ] in
/-- A look-up finds something exactly under the keys. -/
theorem find?_isSome_iff {dictionary : Dictionary κ α} {key : κ} :
    (dictionary.find? key).isSome ↔ key ∈ dictionary.keys := by
  rw [Option.isSome_iff_exists, keys, List.mem_map]
  constructor
  · rintro ⟨value, found⟩
    exact ⟨(key, value), find?_eq_some_iff.mp found, rfl⟩
  · rintro ⟨⟨_, value⟩, member, rfl⟩
    exact ⟨value, find?_eq_some_iff.mpr member⟩

theorem entries_ext {first second : List (κ × α)}
    (firstAscending : first.Pairwise fun left right => compare left.1 right.1 = .lt)
    (secondAscending : second.Pairwise fun left right => compare left.1 right.1 = .lt)
    (same : ∀ entry, entry ∈ first ↔ entry ∈ second) : first = second := by
  induction first generalizing second with
  | nil =>
    cases second with
    | nil => rfl
    | cons head rest => exact absurd ((same head).mpr List.mem_cons_self) (by simp)
  | cons head rest ih =>
    cases second with
    | nil => exact absurd ((same head).mp List.mem_cons_self) (by simp)
    | cons other others =>
      rw [List.pairwise_cons] at firstAscending secondAscending
      have irreflexive (key : κ) : compare key key ≠ .lt := by
        rw [compare_self]; simp
      have heads : head = other := by
        rcases List.mem_cons.mp ((same head).mp List.mem_cons_self) with equal | later
        · exact equal
        rcases List.mem_cons.mp ((same other).mpr List.mem_cons_self) with equal | earlier
        · exact equal.symm
        exact absurd (Std.TransCmp.lt_trans (firstAscending.1 other earlier)
          (secondAscending.1 head later)) (irreflexive _)
      subst heads
      refine congrArg (head :: ·) (ih firstAscending.2 secondAscending.2 fun entry => ?_)
      constructor
      · intro member
        rcases List.mem_cons.mp ((same entry).mp (List.mem_cons_of_mem _ member)) with equal | later
        · exact absurd (equal ▸ firstAscending.1 entry member) (irreflexive _)
        · exact later
      · intro member
        rcases List.mem_cons.mp ((same entry).mpr (List.mem_cons_of_mem _ member)) with
          equal | later
        · exact absurd (equal ▸ secondAscending.1 entry member) (irreflexive _)
        · exact later

/-- Dictionaries that answer every look-up alike are equal. -/
theorem ext_find? {first second : Dictionary κ α}
    (same : ∀ key, first.find? key = second.find? key) : first = second :=
  ext (entries_ext first.ascending second.ascending fun entry => by
    rw [← find?_eq_some_iff, ← find?_eq_some_iff, same entry.1])

theorem find?_foldl_insert (dictionary : Dictionary κ α) {entries : List (κ × α)}
    (distinct : (entries.map Prod.fst).Nodup) (key : κ) :
    (entries.foldl (fun dictionary entry => dictionary.insert entry.1 entry.2) dictionary).find?
      key = (findIn? key entries).or (dictionary.find? key) := by
  induction entries generalizing dictionary with
  | nil => rfl
  | cons entry entries ih =>
    rw [List.map_cons, List.nodup_cons] at distinct
    rw [List.foldl_cons, ih _ distinct.2, find?_insert, findIn?]
    by_cases hit : compare key entry.1 = .eq
    · have equal : key = entry.1 := Std.LawfulEqCmp.eq_of_compare hit
      rw [if_pos hit, if_pos hit, equal, findIn?_eq_none_iff.mpr distinct.1]
      rfl
    · rw [if_neg hit, if_neg hit]

/-- A dictionary is made of its entries. -/
theorem ofList_entries (dictionary : Dictionary κ α) : ofList dictionary.entries = dictionary :=
  ext_find? fun key => by
    rw [ofList, find?_foldl_insert _ dictionary.keys_nodup, find?_empty, Option.or_none]
    rfl

theorem find?_ofList_eq_some_iff {entries : List (κ × α)}
    (distinct : (entries.map Prod.fst).Nodup) {key : κ} {value : α} :
    (ofList entries).find? key = some value ↔ (key, value) ∈ entries := by
  rw [ofList, find?_foldl_insert _ distinct, find?_empty, Option.or_none,
    findIn?_eq_some_iff distinct]

end Ordered

end Dictionary

end Phrasebook
