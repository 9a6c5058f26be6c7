import SwiftLens.Parser.Laws

namespace SwiftLens
namespace Parser

variable {α β γ δ : Type}

def NeedsInput (parser : Parser α) : Prop :=
  ∀ value rest, parser [] ≠ .ok (value, rest)

theorem needsInput_of_error {parser : Parser α} {mismatch : Mismatch}
    (failed : parser [] = .error mismatch) : NeedsInput parser := by
  intro value rest parsed
  rw [failed] at parsed
  cases parsed

theorem needsInput_bind {first : Parser α} (needs : NeedsInput first) (next : α → Parser β) :
    NeedsInput (first >>= next) := by
  intro value rest parsed
  obtain ⟨middle, between, found, -⟩ := bind_ok parsed
  exact needs middle between found

theorem needsInput_of_bind_nil {first : Parser α} {middle : α} (idle : first [] = .ok (middle, []))
    {next : α → Parser β} (needs : NeedsInput (next middle)) : NeedsInput (first >>= next) := by
  intro value rest parsed
  rw [bind_of_ok idle] at parsed
  exact needs value rest parsed

theorem needsInput_fixWithin {step : Parser α → Parser α}
    (needs : ∀ {inner : Parser α}, NeedsInput inner → NeedsInput (step inner)) (depth : Nat) :
    NeedsInput (fixWithin step depth) := by
  induction depth with
  | zero => exact needsInput_of_error rfl
  | succ depth ih => exact needs ih

theorem needsInput_fix {step : Parser α → Parser α}
    (needs : ∀ {inner : Parser α}, NeedsInput inner → NeedsInput (step inner)) :
    NeedsInput (fix step) :=
  needsInput_fixWithin needs 1

/-- Whatever the left parser reads, the right one reads on inputs near by. -/
structure Simulates (Near : List Token → List Token → Prop) (Same : α → β → Prop)
    (left : Parser α) (right : Parser β) : Prop where
  reads : ∀ {tokens others : List Token} {value : α} {rest : List Token}, Near tokens others →
    left tokens = .ok (value, rest) →
      ∃ image remains, right others = .ok (image, remains) ∧ Same value image ∧ Near rest remains

section Combinators

variable {Near : List Token → List Token → Prop} {Same : α → β → Prop} {Alike : γ → δ → Prop}

theorem simulates_pure {value : α} {image : β} (same : Same value image) :
    Simulates Near Same (pure value) (pure image) where
  reads {tokens others found rest} near parsed := by
    cases parsed
    exact ⟨image, others, rfl, same, near⟩

theorem simulates_fail {expected : String} {right : Parser β} :
    Simulates Near Same (fail expected) right where
  reads near parsed := by cases parsed

theorem simulates_bind {left : Parser α} {right : Parser β} {next : α → Parser γ}
    {other : β → Parser δ} (first : Simulates Near Same left right)
    (later : ∀ value image, Same value image → Simulates Near Alike (next value) (other image)) :
    Simulates Near Alike (left >>= next) (right >>= other) where
  reads {tokens others value rest} near parsed := by
    obtain ⟨middle, between, found, continued⟩ := bind_ok parsed
    obtain ⟨image, remains, read, same, near⟩ := first.reads near found
    rw [bind_of_ok read]
    exact (later middle image same).reads near continued

theorem simulates_bind_eq {left right : Parser α} {next : α → Parser γ} {other : α → Parser δ}
    (first : Simulates Near Eq left right)
    (later : ∀ value, Simulates Near Alike (next value) (other value)) :
    Simulates Near Alike (left >>= next) (right >>= other) := by
  refine simulates_bind first ?_
  rintro value _ rfl
  exact later value

theorem simulates_ite {condition : Prop} [Decidable condition] {left leftElse : Parser α}
    {right rightElse : Parser β} (yes : Simulates Near Same left right)
    (no : Simulates Near Same leftElse rightElse) :
    Simulates Near Same (if condition then left else leftElse)
      (if condition then right else rightElse) := by
  split
  · exact yes
  · exact no

theorem simulates_refl (parser : Parser α) : Simulates Eq Eq parser parser where
  reads {tokens others value rest} near parsed := by
    subst near
    exact ⟨value, rest, parsed, rfl, rfl⟩

theorem simulates_ahead {view : List Token → α} {other : List Token → β}
    (same : ∀ {tokens others}, Near tokens others → Same (view tokens) (other others)) :
    Simulates Near Same (ahead view) (ahead other) where
  reads near parsed := by
    cases parsed
    exact ⟨_, _, rfl, same near, near⟩

/-- Loops that are cut, the right one no earlier. What every cut of the left loop keeps may be used
of the inner parser. -/
theorem simulates_fixWithin {step : Parser α → Parser α} {other : Parser β → Parser β}
    (Kept : Parser α → Prop) (kept : ∀ depth, Kept (fixWithin step depth))
    (same : ∀ {inner : Parser α} {outer : Parser β}, Kept inner →
      Simulates Near Same inner outer → Simulates Near Same (step inner) (other outer))
    {depth deeper : Nat} (within : depth ≤ deeper) :
    Simulates Near Same (fixWithin step depth) (fixWithin other deeper) := by
  induction depth generalizing deeper with
  | zero => exact simulates_fail
  | succ depth ih =>
    obtain _ | deeper := deeper
    · omega
    · exact same (kept depth) (ih (by omega))

section Loops

variable {step : Parser α → Parser α} {other : Parser β → Parser β}
  (longer : ∀ {tokens others}, Near tokens others → tokens.length ≤ others.length)

include longer

/-- A loop simulates a loop if its steps do. -/
theorem simulates_fix (same : ∀ {inner : Parser α} {outer : Parser β},
      Simulates Near Same inner outer → Simulates Near Same (step inner) (other outer)) :
    Simulates Near Same (fix step) (fix other) where
  reads near parsed := by
    have deeper := longer near
    have cut := simulates_fixWithin (fun _ => True) (fun _ => trivial) (fun _ => same)
      (Nat.add_le_add_right deeper 1)
    exact cut.reads near parsed

/-- A loop whose step fails at the end of the input, and so does its inner parser. -/
theorem simulates_fix_of_needsInput
    (needs : ∀ {inner : Parser α}, NeedsInput inner → NeedsInput (step inner))
    (same : ∀ {inner : Parser α} {outer : Parser β}, NeedsInput inner →
      Simulates Near Same inner outer → Simulates Near Same (step inner) (other outer)) :
    Simulates Near Same (fix step) (fix other) where
  reads near parsed := by
    have deeper := longer near
    have cut := simulates_fixWithin NeedsInput (needsInput_fixWithin needs) same
      (Nat.add_le_add_right deeper 1)
    exact cut.reads near parsed

end Loops
end Combinators

end Parser
end SwiftLens
