namespace SwiftLens

theorem utf8ByteSize_ofList_cons (c : Char) (rest : List Char) :
    (String.ofList (c :: rest)).utf8ByteSize = c.utf8Size + (String.ofList rest).utf8ByteSize := by
  have split : String.ofList (c :: rest) = String.singleton c ++ String.ofList rest := by
    rw [String.singleton_eq_ofList, ← String.ofList_append]
    rfl
  rw [split, String.utf8ByteSize_append, String.utf8ByteSize_singleton]

structure Position where
  line : Nat
  column : Nat
deriving DecidableEq, Repr

namespace Position

def start : Position := ⟨1, 1⟩

def advance (place : Position) (c : Char) : Position :=
  if c = '\n' then ⟨place.line + 1, 1⟩ else ⟨place.line, place.column + 1⟩

def after (before : List Char) : Position :=
  before.foldl advance start

@[simp]
theorem after_concat (before : List Char) (c : Char) :
    after (before ++ [c]) = (after before).advance c := by
  simp [after]

def charsWithin : Nat → List Char → List Char
  | _, [] => []
  | size, c :: rest =>
    if c.utf8Size ≤ size then c :: charsWithin (size - c.utf8Size) rest else []

/-- The place of a byte offset; an offset past the end stands for the end. -/
def ofOffset (source : String) (offset : Nat) : Position :=
  after (charsWithin offset source.toList)

theorem charsWithin_append (before after : List Char) :
    charsWithin (String.ofList before).utf8ByteSize (before ++ after) = before := by
  induction before with
  | nil =>
    cases after with
    | nil => rfl
    | cons c rest =>
      have counted := c.utf8Size_pos
      rw [List.nil_append, charsWithin, if_neg (by simpa using Nat.not_le.mpr counted)]
  | cons c rest ih =>
    rw [utf8ByteSize_ofList_cons, List.cons_append, charsWithin, if_pos (Nat.le_add_right _ _),
      Nat.add_sub_cancel_left, ih]

theorem ofOffset_append (before after : String) :
    ofOffset (before ++ after) before.utf8ByteSize = Position.after before.toList := by
  have within := charsWithin_append before.toList after.toList
  rw [String.ofList_toList] at within
  rw [ofOffset, String.toList_append, within]

def text (place : Position) : String :=
  s!"{place.line}:{place.column}"

end Position
end SwiftLens
