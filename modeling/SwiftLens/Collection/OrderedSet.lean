namespace SwiftLens

structure OrderedSet (α : Type) where
  toList : List α
  nodup : toList.Nodup

namespace OrderedSet

variable {α : Type}

def empty : OrderedSet α := ⟨[], List.nodup_nil⟩

instance : Membership α (OrderedSet α) where
  mem set element := element ∈ set.toList

theorem mem_def (set : OrderedSet α) (element : α) : element ∈ set ↔ element ∈ set.toList :=
  Iff.rfl

@[ext]
theorem ext_toList {left right : OrderedSet α} (same : left.toList = right.toList) :
    left = right := by
  cases left
  cases right
  simpa using same

variable [DecidableEq α]

instance (set : OrderedSet α) (element : α) : Decidable (element ∈ set) :=
  inferInstanceAs (Decidable (element ∈ set.toList))

def insert (set : OrderedSet α) (element : α) : OrderedSet α :=
  if absent : element ∈ set.toList then set
  else ⟨set.toList ++ [element], by
    simp only [List.nodup_append, List.mem_singleton]
    refine ⟨set.nodup, by simp, ?_⟩
    rintro other present _ rfl rfl
    exact absent present⟩

theorem insert_of_mem {set : OrderedSet α} {element : α} (present : element ∈ set) :
    set.insert element = set := by
  have listed : element ∈ set.toList := present
  simp [insert, listed]

theorem toList_insert_of_not_mem {set : OrderedSet α} {element : α} (absent : element ∉ set) :
    (set.insert element).toList = set.toList ++ [element] := by
  have unlisted : element ∉ set.toList := absent
  simp [insert, unlisted]

@[simp]
theorem mem_insert {set : OrderedSet α} {element other : α} :
    other ∈ set.insert element ↔ other ∈ set ∨ other = element := by
  by_cases present : element ∈ set
  · rw [insert_of_mem present]
    constructor
    · exact Or.inl
    · rintro (found | rfl)
      · exact found
      · exact present
  · simp [mem_def, toList_insert_of_not_mem present]

def insertAll (set : OrderedSet α) (elements : List α) : OrderedSet α :=
  elements.foldl insert set

@[simp]
theorem mem_insertAll {set : OrderedSet α} {elements : List α} {element : α} :
    element ∈ set.insertAll elements ↔ element ∈ set ∨ element ∈ elements := by
  induction elements generalizing set with
  | nil => simp [insertAll]
  | cons first rest ih =>
    have later : set.insertAll (first :: rest) = (set.insert first).insertAll rest := rfl
    rw [later, ih, mem_insert, List.mem_cons, or_assoc]

theorem insertAll_of_mem {set : OrderedSet α} {elements : List α}
    (present : ∀ element ∈ elements, element ∈ set) : set.insertAll elements = set := by
  induction elements with
  | nil => rfl
  | cons first rest ih =>
    have kept : set.insertAll (first :: rest) = set.insertAll rest := by
      unfold insertAll
      rw [List.foldl_cons, insert_of_mem (present first List.mem_cons_self)]
    rw [kept]
    exact ih fun element member => present element (List.mem_cons_of_mem _ member)

theorem insertAll_append (set : OrderedSet α) (front back : List α) :
    set.insertAll (front ++ back) = (set.insertAll front).insertAll back :=
  List.foldl_append

def countNew : OrderedSet α → List α → Nat
  | _, [] => 0
  | set, element :: rest =>
    (if element ∈ set then 0 else 1) + countNew (set.insert element) rest

theorem countNew_append (set : OrderedSet α) (front back : List α) :
    set.countNew (front ++ back) = set.countNew front + (set.insertAll front).countNew back := by
  induction front generalizing set with
  | nil => simp [countNew, insertAll]
  | cons first rest ih =>
    have later : set.insertAll (first :: rest) = (set.insert first).insertAll rest := rfl
    rw [List.cons_append, countNew, countNew, ih, later, Nat.add_assoc]

theorem countNew_congr {left right : OrderedSet α} {elements : List α}
    (same : ∀ element ∈ elements, element ∈ left ↔ element ∈ right) :
    left.countNew elements = right.countNew elements := by
  induction elements generalizing left right with
  | nil => rfl
  | cons first rest ih =>
    have later : ∀ element ∈ rest, element ∈ left.insert first ↔ element ∈ right.insert first := by
      intro element member
      rw [mem_insert, mem_insert, same element (List.mem_cons_of_mem _ member)]
    simp only [countNew, same first List.mem_cons_self, ih later]

theorem countNew_of_mem {set : OrderedSet α} {elements : List α}
    (present : ∀ element ∈ elements, element ∈ set) : set.countNew elements = 0 := by
  induction elements with
  | nil => rfl
  | cons first rest ih =>
    have held := present first List.mem_cons_self
    rw [countNew, if_pos held, insert_of_mem held, Nat.zero_add]
    exact ih fun element member => present element (List.mem_cons_of_mem _ member)

/-- The elements that come as new ones stand behind the old ones. -/
theorem exists_toList_insertAll (set : OrderedSet α) (elements : List α) :
    ∃ added, (set.insertAll elements).toList = set.toList ++ added ∧
      added.length = set.countNew elements := by
  induction elements generalizing set with
  | nil => exact ⟨[], by simp [insertAll], rfl⟩
  | cons first rest ih =>
    have later : set.insertAll (first :: rest) = (set.insert first).insertAll rest := rfl
    obtain ⟨added, listed, count⟩ := ih (set.insert first)
    rw [later, countNew, listed]
    by_cases present : first ∈ set
    · rw [insert_of_mem present] at count ⊢
      exact ⟨added, rfl, by simp [present, count]⟩
    · rw [toList_insert_of_not_mem present]
      exact ⟨first :: added, by simp, by simp [present, count, Nat.add_comm]⟩

/-- As many elements come as new ones as the set then holds beyond the old ones. -/
theorem countNew_eq_length (set : OrderedSet α) (elements : List α) :
    set.countNew elements =
      ((set.insertAll elements).toList.filter fun element => element ∉ set).length := by
  obtain ⟨added, listed, count⟩ := set.exists_toList_insertAll elements
  have apart := (set.insertAll elements).nodup
  rw [listed, List.nodup_append] at apart
  have old : (set.toList.filter fun element => element ∉ set) = [] := by
    simp [List.filter_eq_nil_iff, mem_def]
  have new : (added.filter fun element => element ∉ set) = added := by
    rw [List.filter_eq_self]
    intro element member
    simp only [decide_not, Bool.not_eq_true', decide_eq_false_iff_not]
    exact fun held => apart.2.2 element held element member rfl
  rw [listed, List.filter_append, old, new, List.nil_append, count]

theorem toList_insert_eraseDups {set : OrderedSet α} {elements : List α}
    (held : set.toList = elements.eraseDups) (element : α) :
    (set.insert element).toList = (elements ++ [element]).eraseDups := by
  have listed : element ∈ set ↔ element ∈ elements := by
    rw [mem_def, held, List.mem_eraseDups]
  rw [List.eraseDups_append]
  by_cases present : element ∈ elements
  · rw [insert_of_mem (listed.mpr present), held]
    simp [List.removeAll, present]
  · rw [toList_insert_of_not_mem (mt listed.mp present), held]
    simp [List.removeAll, present, List.eraseDups_cons]

/-- Elements that are inserted one after the other stand where they first came. -/
theorem toList_foldl_insert (elements : List α) :
    (elements.foldl insert empty).toList = elements.eraseDups := by
  have general : ∀ (rest front : List α) (set : OrderedSet α), set.toList = front.eraseDups →
      (rest.foldl insert set).toList = (front ++ rest).eraseDups := by
    intro rest
    induction rest with
    | nil =>
      intro front set held
      rw [List.append_nil]
      exact held
    | cons element rest ih =>
      intro front set held
      have grown := ih (front ++ [element]) _ (toList_insert_eraseDups held element)
      rwa [List.append_assoc] at grown
  exact general elements [] empty rfl

end OrderedSet
end SwiftLens
