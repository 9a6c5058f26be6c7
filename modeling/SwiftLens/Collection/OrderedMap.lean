namespace SwiftLens

namespace Entries

variable {κ α : Type} [DecidableEq κ]

def find? (key : κ) : List (κ × α) → Option α
  | [] => none
  | (other, value) :: rest => if other = key then some value else find? key rest

def insert (key : κ) (value : α) : List (κ × α) → List (κ × α)
  | [] => [(key, value)]
  | (other, old) :: rest =>
    if other = key then (other, value) :: rest else (other, old) :: insert key value rest

theorem find?_insert (key other : κ) (value : α) (entries : List (κ × α)) :
    find? other (insert key value entries) =
      if key = other then some value else find? other entries := by
  induction entries with
  | nil => simp [insert, find?]
  | cons entry rest ih =>
    simp only [insert]
    split <;> simp only [find?] <;> grind

theorem keys_insert (key : κ) (value : α) (entries : List (κ × α)) :
    (insert key value entries).map Prod.fst =
      if key ∈ entries.map Prod.fst then entries.map Prod.fst
      else entries.map Prod.fst ++ [key] := by
  induction entries with
  | nil => simp [insert]
  | cons entry rest ih =>
    simp only [insert]
    split <;> grind

theorem insert_of_find? {key : κ} {value : α} {entries : List (κ × α)}
    (found : find? key entries = some value) : insert key value entries = entries := by
  induction entries with
  | nil => simp [find?] at found
  | cons entry rest ih =>
    simp only [find?] at found
    simp only [insert]
    split
    · next same =>
      rw [if_pos same] at found
      rw [← Option.some.inj found]
    · next differs =>
      rw [if_neg differs] at found
      rw [ih found]

theorem find?_eq_some_iff_mem {key : κ} {value : α} {entries : List (κ × α)}
    (nodup : (entries.map Prod.fst).Nodup) :
    find? key entries = some value ↔ (key, value) ∈ entries := by
  induction entries with
  | nil => simp [find?]
  | cons entry rest ih =>
    obtain ⟨absent, nodupRest⟩ := List.nodup_cons.mp nodup
    simp only [find?]
    by_cases same : entry.1 = key
    · have notLater : (key, value) ∉ rest := fun later =>
        absent (List.mem_map.mpr ⟨(key, value), later, same.symm⟩)
      grind
    · grind

theorem find?_isSome (key : κ) (entries : List (κ × α)) :
    (find? key entries).isSome = true ↔ key ∈ entries.map Prod.fst := by
  induction entries with
  | nil => simp [find?]
  | cons entry rest ih =>
    simp only [find?]
    split <;> grind

theorem find?_of_not_mem {key : κ} {entries : List (κ × α)} (absent : key ∉ entries.map Prod.fst) :
    find? key entries = none := by
  have missing := mt (find?_isSome key entries).mp absent
  simpa using missing

theorem find?_append (key : κ) (front back : List (κ × α)) :
    find? key (front ++ back) = (find? key front).or (find? key back) := by
  induction front with
  | nil => rfl
  | cons entry rest ih =>
    simp only [List.cons_append, find?, ih]
    split <;> rfl

theorem eq_of_find? {left right : List (κ × α)} (nodup : (left.map Prod.fst).Nodup)
    (keys : left.map Prod.fst = right.map Prod.fst)
    (found : ∀ key, find? key left = find? key right) : left = right := by
  induction left generalizing right with
  | nil =>
    symm
    simpa using keys.symm
  | cons entry rest ih =>
    cases right with
    | nil => simp at keys
    | cons other others =>
      obtain ⟨key, value⟩ := entry
      obtain ⟨otherKey, otherValue⟩ := other
      obtain ⟨sameKey, sameKeys⟩ := List.cons.inj keys
      obtain rfl : key = otherKey := sameKey
      obtain ⟨absent, nodupRest⟩ := List.nodup_cons.mp nodup
      have sameValue : value = otherValue := by simpa [find?] using found key
      have sameRest : rest = others := by
        apply ih nodupRest sameKeys
        intro word
        have here := found word
        by_cases own : key = word
        · subst own
          have absentToo : key ∉ others.map Prod.fst := by
            rw [← sameKeys]
            exact absent
          rw [find?_of_not_mem absent, find?_of_not_mem absentToo]
        · simpa [find?, own] using here
      rw [sameValue, sameRest]

end Entries

structure OrderedMap (κ α : Type) where
  entries : List (κ × α)
  nodup : (entries.map Prod.fst).Nodup

namespace OrderedMap

variable {κ α : Type}

def empty : OrderedMap κ α := ⟨[], List.nodup_nil⟩

def keys (map : OrderedMap κ α) : List κ :=
  map.entries.map Prod.fst

def values (map : OrderedMap κ α) : List α :=
  map.entries.map Prod.snd

@[ext]
theorem ext_entries {left right : OrderedMap κ α} (same : left.entries = right.entries) :
    left = right := by
  cases left
  cases right
  simpa using same

variable [DecidableEq κ]

def find? (map : OrderedMap κ α) (key : κ) : Option α :=
  Entries.find? key map.entries

def contains (map : OrderedMap κ α) (key : κ) : Bool :=
  (map.find? key).isSome

def insert (map : OrderedMap κ α) (key : κ) (value : α) : OrderedMap κ α :=
  ⟨Entries.insert key value map.entries, by
    rw [Entries.keys_insert]
    split
    · exact map.nodup
    · next absent =>
      simp only [List.nodup_append, List.mem_singleton]
      refine ⟨map.nodup, by simp, ?_⟩
      rintro other present _ rfl rfl
      exact absent present⟩

@[simp]
theorem find?_insert (map : OrderedMap κ α) (key other : κ) (value : α) :
    (map.insert key value).find? other = if key = other then some value else map.find? other :=
  Entries.find?_insert key other value map.entries

theorem keys_insert (map : OrderedMap κ α) (key : κ) (value : α) :
    (map.insert key value).keys = if key ∈ map.keys then map.keys else map.keys ++ [key] :=
  Entries.keys_insert key value map.entries

theorem insert_of_find? {map : OrderedMap κ α} {key : κ} {value : α}
    (found : map.find? key = some value) : map.insert key value = map :=
  ext_entries (Entries.insert_of_find? found)

theorem find?_eq_some_iff_mem {map : OrderedMap κ α} {key : κ} {value : α} :
    map.find? key = some value ↔ (key, value) ∈ map.entries :=
  Entries.find?_eq_some_iff_mem map.nodup

theorem mem_keys_iff {map : OrderedMap κ α} {key : κ} :
    key ∈ map.keys ↔ ∃ value, map.find? key = some value :=
  (Entries.find?_isSome key map.entries).symm.trans Option.isSome_iff_exists

theorem mem_values_iff {map : OrderedMap κ α} {value : α} :
    value ∈ map.values ↔ ∃ key, map.find? key = some value := by
  simp [values, find?_eq_some_iff_mem]

theorem ext_find? {left right : OrderedMap κ α} (keys : left.keys = right.keys)
    (found : ∀ key, left.find? key = right.find? key) : left = right := by
  have entries : left.entries = right.entries :=
    Entries.eq_of_find? left.nodup keys found
  exact ext_entries entries

def insertAll (map : OrderedMap κ α) (entries : List (κ × α)) : OrderedMap κ α :=
  entries.foldl (fun current entry => current.insert entry.1 entry.2) map

theorem insertAll_append (map : OrderedMap κ α) (front back : List (κ × α)) :
    map.insertAll (front ++ back) = (map.insertAll front).insertAll back :=
  List.foldl_append

/-- The last entry of a key decides. -/
theorem find?_insertAll (map : OrderedMap κ α) (entries : List (κ × α)) (key : κ) :
    (map.insertAll entries).find? key =
      (Entries.find? key entries.reverse).or (map.find? key) := by
  induction entries generalizing map with
  | nil => rfl
  | cons entry rest ih =>
    have later : (map.insertAll (entry :: rest)).find? key =
        ((map.insert entry.1 entry.2).insertAll rest).find? key := rfl
    rw [later, ih, find?_insert, List.reverse_cons, Entries.find?_append]
    by_cases same : entry.1 = key
    · simp [Entries.find?, same]
    · simp [Entries.find?, same]

theorem mem_keys_insertAll {map : OrderedMap κ α} {entries : List (κ × α)} {key : κ} :
    key ∈ (map.insertAll entries).keys ↔ key ∈ map.keys ∨ key ∈ entries.map Prod.fst := by
  induction entries generalizing map with
  | nil => simp [insertAll]
  | cons entry rest ih =>
    have later : (map.insertAll (entry :: rest)).keys =
        ((map.insert entry.1 entry.2).insertAll rest).keys := rfl
    rw [later, ih, keys_insert]
    split <;> grind

theorem keys_insertAll_of_mem {map : OrderedMap κ α} {entries : List (κ × α)}
    (present : ∀ entry ∈ entries, entry.1 ∈ map.keys) : (map.insertAll entries).keys = map.keys := by
  induction entries generalizing map with
  | nil => rfl
  | cons entry rest ih =>
    have kept : (map.insert entry.1 entry.2).keys = map.keys := by
      rw [keys_insert, if_pos (present entry List.mem_cons_self)]
    have later : ((map.insert entry.1 entry.2).insertAll rest).keys =
        (map.insert entry.1 entry.2).keys := by
      apply ih
      intro other member
      rw [kept]
      exact present other (List.mem_cons_of_mem _ member)
    exact later.trans kept

theorem insertAll_insertAll (map : OrderedMap κ α) (entries : List (κ × α)) :
    (map.insertAll entries).insertAll entries = map.insertAll entries := by
  apply ext_find?
  · apply keys_insertAll_of_mem
    intro entry member
    exact mem_keys_insertAll.mpr (.inr (List.mem_map_of_mem member))
  · intro key
    rw [find?_insertAll, find?_insertAll]
    cases Entries.find? key entries.reverse <;> rfl

end OrderedMap
end SwiftLens
