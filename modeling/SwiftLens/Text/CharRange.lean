namespace SwiftLens

structure CharRange where
  first : Nat
  last : Nat

namespace CharRange

def contains (range : CharRange) (c : Char) : Bool :=
  decide (range.first ≤ c.toNat) && decide (c.toNat ≤ range.last)

theorem contains_iff (range : CharRange) (c : Char) :
    range.contains c = true ↔ range.first ≤ c.toNat ∧ c.toNat ≤ range.last := by
  simp [contains]

def anyContains (table : List CharRange) (c : Char) : Bool :=
  table.any (·.contains c)

theorem anyContains_iff (table : List CharRange) (c : Char) :
    anyContains table c = true ↔
      ∃ range ∈ table, range.first ≤ c.toNat ∧ c.toNat ≤ range.last := by
  simp [anyContains, contains_iff]

/-- A table of runs that begin at `bound` has no character before it. -/
theorem anyContains_eq_false {table : List CharRange} {bound : Nat}
    (beyond : ∀ range ∈ table, bound ≤ range.first) {c : Char} (below : c.toNat < bound) :
    anyContains table c = false := by
  rw [Bool.eq_false_iff, ne_eq, anyContains_iff]
  rintro ⟨range, listed, first, -⟩
  have := beyond range listed
  omega

end CharRange
end SwiftLens
