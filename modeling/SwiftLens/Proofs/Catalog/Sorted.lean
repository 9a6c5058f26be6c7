import Mathlib.Data.List.Basic
import SwiftLens.Catalog.Listing

namespace SwiftLens

def utf8Bytes (text : String) : List UInt8 :=
  text.toUTF8.data.toList

theorem utf8Bytes_eq (text : String) :
    utf8Bytes text = text.toList.flatMap String.utf8EncodeChar := by
  rw [utf8Bytes, String.toUTF8_eq_toByteArray, ← String.utf8Encode_toList, List.utf8Encode]
  simp

def markedBytes (mark : Nat) : Nat → Nat → List UInt8
  | 0, value => [UInt8.ofNat (mark + value)]
  | following + 1, value =>
    markedBytes mark following (value / 64) ++ [UInt8.ofNat (value % 64 + 128)]

def leadValue : Nat → Nat → Nat
  | 0, value => value
  | following + 1, value => leadValue following (value / 64)

theorem markedBytes_cons (mark following value : Nat) : ∃ rest,
    markedBytes mark following value = UInt8.ofNat (mark + leadValue following value) :: rest := by
  induction following generalizing value with
  | zero => exact ⟨[], rfl⟩
  | succ following ih =>
    obtain ⟨rest, shape⟩ := ih (value / 64)
    rw [markedBytes, shape, leadValue]
    exact ⟨_, rfl⟩

theorem ofNat_lt_ofNat {low high : Nat} (lower : low < high) (small : high < 256) :
    UInt8.ofNat low < UInt8.ofNat high := by
  rw [UInt8.lt_iff_toNat_lt, UInt8.toNat_ofNat', UInt8.toNat_ofNat']
  omega

/-- In the same number of bytes the lower value has the lower bytes, whatever follows. -/
theorem markedBytes_append_lt {mark following low high : Nat} (lower : low < high)
    (small : mark + leadValue following high < 256) (afterLow afterHigh : List UInt8) :
    markedBytes mark following low ++ afterLow < markedBytes mark following high ++ afterHigh := by
  induction following generalizing low high afterLow afterHigh with
  | zero => exact .rel (ofNat_lt_ofNat (Nat.add_lt_add_left lower mark) small)
  | succ following ih =>
    rw [leadValue] at small
    simp only [markedBytes, List.append_assoc]
    -- The first six bits that differ decide; those behind them do not count.
    rcases Nat.lt_or_ge (low / 64) (high / 64) with before | notBefore
    · exact ih before small _ _
    · have same : low / 64 = high / 64 := by omega
      rw [same]
      apply List.append_left_lt
      exact .rel (ofNat_lt_ofNat (by omega) (by omega))

def utf8Form (value : Nat) : Nat × Nat :=
  if value ≤ 127 then (0, 0)
  else if value ≤ 2047 then (192, 1)
  else if value ≤ 65535 then (224, 2)
  else (240, 3)

theorem toNat_val_lt (c : Char) : c.val.toNat < 1114112 := by
  rcases c.valid with small | ⟨-, small⟩
  · exact Nat.lt_trans small (by decide)
  · exact small

theorem utf8EncodeChar_eq (c : Char) :
    String.utf8EncodeChar c =
      markedBytes (utf8Form c.val.toNat).1 (utf8Form c.val.toNat).2 c.val.toNat := by
  have bound := toNat_val_lt c
  unfold String.utf8EncodeChar utf8Form
  generalize c.val.toNat = value at bound
  have third : value / 64 / 64 = value / 4096 := Nat.div_div_eq_div_mul value 64 64
  have fourth : value / 4096 / 64 = value / 262144 := Nat.div_div_eq_div_mul value 4096 64
  dsimp only
  split_ifs
  · simp [markedBytes]
  · have first : value / 64 % 32 + 192 = 192 + value / 64 := by omega
    simp [markedBytes, first]
  · have first : value / 4096 % 16 + 224 = 224 + value / 4096 := by omega
    simp [markedBytes, third, first]
  · have first : value / 262144 % 8 + 240 = 240 + value / 262144 := by omega
    simp [markedBytes, third, fourth, first]

/-- A longer form has a higher first byte. -/
theorem utf8Form_lead_lt {low high : Nat} (lower : low < high)
    (differ : utf8Form low ≠ utf8Form high) :
    (utf8Form low).1 + leadValue (utf8Form low).2 low <
      (utf8Form high).1 + leadValue (utf8Form high).2 high := by
  revert differ
  unfold utf8Form
  split_ifs <;> simp [leadValue] <;> omega

theorem utf8Form_lead_small {value : Nat} (bound : value < 1114112) :
    (utf8Form value).1 + leadValue (utf8Form value).2 value < 256 := by
  unfold utf8Form
  split_ifs <;> simp [leadValue] <;> omega

/-- Of two characters the lower one has the lower bytes, whatever follows. -/
theorem utf8EncodeChar_append_lt {low high : Char} (lower : low < high)
    (afterLow afterHigh : List UInt8) :
    String.utf8EncodeChar low ++ afterLow < String.utf8EncodeChar high ++ afterHigh := by
  have values : low.val.toNat < high.val.toNat := lower
  have small := utf8Form_lead_small (toNat_val_lt high)
  rw [utf8EncodeChar_eq, utf8EncodeChar_eq]
  by_cases same : utf8Form low.val.toNat = utf8Form high.val.toNat
  · rw [same]
    exact markedBytes_append_lt values small _ _
  · obtain ⟨restLow, shapeLow⟩ := markedBytes_cons (utf8Form low.val.toNat).1
      (utf8Form low.val.toNat).2 low.val.toNat
    obtain ⟨restHigh, shapeHigh⟩ := markedBytes_cons (utf8Form high.val.toNat).1
      (utf8Form high.val.toNat).2 high.val.toNat
    rw [shapeLow, shapeHigh]
    exact .rel (ofNat_lt_ofNat (utf8Form_lead_lt values same) small)

theorem flatMap_utf8EncodeChar_lt {low high : List Char} (lower : low < high) :
    low.flatMap String.utf8EncodeChar < high.flatMap String.utf8EncodeChar := by
  induction lower with
  | @nil c rest =>
    obtain ⟨bytes, shape⟩ := markedBytes_cons (utf8Form c.val.toNat).1 (utf8Form c.val.toNat).2
      c.val.toNat
    rw [List.flatMap_cons, utf8EncodeChar_eq, shape]
    exact .nil
  | rel lower =>
    rw [List.flatMap_cons, List.flatMap_cons]
    exact utf8EncodeChar_append_lt lower _ _
  | cons _ ih =>
    rw [List.flatMap_cons, List.flatMap_cons]
    exact List.append_left_lt ih

/-- The order of the code points is the order of the bytes. -/
theorem utf8Bytes_lt {low high : String} (lower : low < high) : utf8Bytes low < utf8Bytes high := by
  have characters : low.toList < high.toList := lower
  rw [utf8Bytes_eq, utf8Bytes_eq]
  exact flatMap_utf8EncodeChar_lt characters

def notAfter {α : Type} (text : α → String) (left right : α) : Bool :=
  !decide (text right < text left)

def SortedByText {α : Type} (text : α → String) (items : List α) : Prop :=
  items.Pairwise fun left right => text left < text right

section Sorting

variable {α : Type} {text : α → String}

theorem notAfter_iff {left right : α} : notAfter text left right = true ↔ text left ≤ text right := by
  rw [notAfter, Bool.not_eq_true', decide_eq_false_iff_not, String.not_lt]

theorem notAfter_trans (first second third : α) (low : notAfter text first second = true)
    (high : notAfter text second third = true) : notAfter text first third = true := by
  rw [notAfter_iff] at low high ⊢
  exact String.le_trans low high

theorem notAfter_total (left right : α) :
    (notAfter text left right || notAfter text right left) = true := by
  rw [Bool.or_eq_true, notAfter_iff, notAfter_iff]
  exact String.le_total _ _

/-- Texts that differ are in strict order if they are in order. -/
theorem sortedByText_of_distinct {items : List α}
    (ordered : items.Pairwise fun left right => notAfter text left right = true)
    (distinct : (items.map text).Nodup) : SortedByText text items := by
  refine .imp₂ ?_ ordered (List.pairwise_map.mp distinct)
  intro left right low differ
  exact Std.lt_of_le_of_ne (notAfter_iff.mp low) differ

theorem sortedByText_sortByText {items : List α} (distinct : (items.map text).Nodup) :
    SortedByText text (sortByText text items) := by
  have ordered : (sortByText text items).Pairwise fun left right => notAfter text left right = true :=
    List.pairwise_mergeSort notAfter_trans notAfter_total items
  apply sortedByText_of_distinct ordered
  exact ((sortByText_perm text items).map text).nodup_iff.mpr distinct

theorem SortedByText.nodup {items : List α} (sorted : SortedByText text items) :
    (items.map text).Nodup :=
  List.pairwise_map.mpr (sorted.imp Std.ne_of_lt)

/-- A sorted list is determined by its members. -/
theorem SortedByText.eq_of_mem_iff {left right : List α} (sortedLeft : SortedByText text left)
    (sortedRight : SortedByText text right) (same : ∀ item, item ∈ left ↔ item ∈ right) :
    left = right := by
  have distinct : ∀ {items : List α}, SortedByText text items → items.Nodup := fun sorted =>
    .imp (fun differ same => differ (by rw [same])) (List.pairwise_map.mp sorted.nodup)
  have permuted := (List.perm_ext_iff_of_nodup (distinct sortedLeft) (distinct sortedRight)).mpr same
  refine permuted.eq_of_pairwise ?_ sortedLeft sortedRight
  intro first second _ _ low high
  exact absurd high (String.lt_asymm low)

theorem SortedByText.merge {left right : List α} (sortedLeft : SortedByText text left)
    (sortedRight : SortedByText text right)
    (apart : ∀ first ∈ left, ∀ second ∈ right, text first ≠ text second) :
    SortedByText text (left.merge right (notAfter text)) := by
  have ordered : ∀ {items : List α}, SortedByText text items →
      items.Pairwise fun left right => notAfter text left right = true :=
    fun sorted => sorted.imp fun lower => notAfter_iff.mpr (Std.le_of_lt lower)
  have merged := List.pairwise_merge notAfter_trans notAfter_total left right (ordered sortedLeft)
    (ordered sortedRight)
  apply sortedByText_of_distinct merged
  rw [((List.merge_perm_append _).map text).nodup_iff, List.map_append, List.nodup_append]
  refine ⟨sortedLeft.nodup, sortedRight.nodup, ?_⟩
  intro first inLeft second inRight same
  obtain ⟨item, listed, rfl⟩ := List.mem_map.mp inLeft
  obtain ⟨other, listedToo, rfl⟩ := List.mem_map.mp inRight
  exact apart item listed other listedToo same

end Sorting
end SwiftLens
