namespace SwiftLens

def splitChars (separator : Char) : List Char → List (List Char)
  | [] => [[]]
  | c :: rest =>
    if c = separator then [] :: splitChars separator rest
    else
      match splitChars separator rest with
      | [] => [[c]]
      | part :: parts => (c :: part) :: parts

theorem length_splitChars (separator : Char) (text : List Char) :
    (splitChars separator text).length = text.count separator + 1 := by
  induction text with
  | nil => simp [splitChars]
  | cons c rest ih =>
    simp only [splitChars]
    split
    · next same => simp [same, ih]
    · next differs =>
      rw [List.count_cons_of_ne differs, ← ih]
      split
      · next empty => simp [empty] at ih
      · next parts => simp [parts]

theorem splitChars_of_not_mem {separator : Char} {text : List Char} (absent : separator ∉ text) :
    splitChars separator text = [text] := by
  induction text with
  | nil => rfl
  | cons c rest ih =>
    rw [List.mem_cons, not_or] at absent
    rw [splitChars, if_neg (Ne.symm absent.1), ih absent.2]

/-- A separator parts a text wherever it stands. -/
theorem splitChars_append_cons (separator : Char) (front back : List Char) :
    splitChars separator (front ++ separator :: back) =
      splitChars separator front ++ splitChars separator back := by
  induction front with
  | nil => simp [splitChars]
  | cons c rest ih =>
    rw [List.cons_append, splitChars, splitChars, ih]
    split
    · rfl
    · have filled := length_splitChars separator rest
      cases parts : splitChars separator rest with
      | nil => simp [parts] at filled
      | cons part others => rfl

/-- The parts with the separators between them make up the text. -/
theorem exists_splitChars (separator : Char) (text : List Char) :
    ∃ first others, splitChars separator text = first :: others ∧
      first ++ others.flatMap (separator :: ·) = text := by
  induction text with
  | nil => exact ⟨[], [], rfl, rfl⟩
  | cons c rest ih =>
    obtain ⟨first, others, parts, joined⟩ := ih
    rw [splitChars, parts]
    by_cases same : c = separator
    · exact ⟨[], first :: others, if_pos same, by simp [same, joined]⟩
    · exact ⟨c :: first, others, if_neg same, by simp [joined]⟩

def splitText (separator : Char) (text : String) : List String :=
  (splitChars separator text.toList).map String.ofList

end SwiftLens
