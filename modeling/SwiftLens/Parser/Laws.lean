import SwiftLens.Parser

namespace SwiftLens
namespace Parser

variable {α β : Type}

theorem pure_apply (value : α) (tokens : List Token) :
    (pure value : Parser α) tokens = .ok (value, tokens) :=
  rfl

theorem bind_apply (first : Parser α) (next : α → Parser β) (tokens : List Token) :
    (first >>= next) tokens =
      match first tokens with
      | .error mismatch => .error mismatch
      | .ok (value, rest) => next value rest :=
  rfl

theorem takeIf_cons (passes : Token → List Token → Bool) (token : Token) (rest : List Token) :
    takeIf passes (token :: rest) =
      if passes token rest then .ok (some token, rest) else .ok (none, token :: rest) :=
  rfl

theorem fixWithin_succ (step : Parser α → Parser α) (depth : Nat) (tokens : List Token) :
    fixWithin step (depth + 1) tokens = step (fixWithin step depth) tokens :=
  rfl

theorem fix_apply (step : Parser α → Parser α) (tokens : List Token) :
    fix step tokens = step (fixWithin step tokens.length) tokens :=
  rfl

/-- What a successful chain has read. -/
theorem bind_ok {first : Parser α} {next : α → Parser β} {tokens rest : List Token} {value : β}
    (parsed : (first >>= next) tokens = .ok (value, rest)) :
    ∃ middle between,
      first tokens = .ok (middle, between) ∧ next middle between = .ok (value, rest) := by
  rw [bind_apply] at parsed
  split at parsed
  · cases parsed
  · next middle between found => exact ⟨middle, between, found, parsed⟩

theorem bind_of_ok {first : Parser α} {next : α → Parser β} {tokens between : List Token}
    {middle : α} (found : first tokens = .ok (middle, between)) :
    (first >>= next) tokens = next middle between := by
  rw [bind_apply, found]

theorem bind_of_error {first : Parser α} {next : α → Parser β} {tokens : List Token}
    {mismatch : Mismatch} (failed : first tokens = .error mismatch) :
    (first >>= next) tokens = .error mismatch := by
  rw [bind_apply, failed]

theorem bind_pure_apply (first : Parser α) (image : α → β) (tokens : List Token) :
    (first >>= fun value => pure (image value)) tokens =
      (first tokens).map fun (value, rest) => (image value, rest) := by
  rw [bind_apply]
  cases first tokens <;> rfl

theorem takeIf_ok {passes : Token → List Token → Bool} {tokens rest : List Token}
    {found : Option Token} (parsed : takeIf passes tokens = .ok (found, rest)) :
    (∃ token, found = some token ∧ tokens = token :: rest ∧ passes token rest = true) ∨
      (found = none ∧ rest = tokens) := by
  cases tokens with
  | nil =>
    cases parsed
    exact .inr ⟨rfl, rfl⟩
  | cons token tail =>
    rw [takeIf_cons] at parsed
    split at parsed
    · next taken =>
      cases parsed
      exact .inl ⟨token, rfl, rfl, taken⟩
    · cases parsed
      exact .inr ⟨rfl, rfl⟩

theorem acceptIf_ok {passes : Token → List Token → Bool} {tokens rest : List Token}
    {accepted : Bool} (parsed : acceptIf passes tokens = .ok (accepted, rest)) :
    (∃ token, accepted = true ∧ tokens = token :: rest ∧ passes token rest = true) ∨
      (accepted = false ∧ rest = tokens) := by
  obtain ⟨found, between, taken, finished⟩ := bind_ok parsed
  cases finished
  rcases takeIf_ok taken with ⟨token, rfl, rfl, passed⟩ | ⟨rfl, rfl⟩
  · exact .inl ⟨token, rfl, rfl, passed⟩
  · exact .inr ⟨rfl, rfl⟩

theorem expect_ok {kind : Token.Kind} {expected : String} {tokens rest : List Token} {token : Token}
    (parsed : expect kind expected tokens = .ok (token, rest)) :
    tokens = token :: rest ∧ token.kind = kind := by
  obtain ⟨found, between, taken, finished⟩ := bind_ok parsed
  rcases takeIf_ok taken with ⟨other, rfl, rfl, passed⟩ | ⟨rfl, rfl⟩
  · cases finished
    exact ⟨rfl, by simpa using passed⟩
  · cases finished

theorem acceptIf_of_pos {passes : Token → List Token → Bool} {token : Token} {rest : List Token}
    (passed : passes token rest = true) : acceptIf passes (token :: rest) = .ok (true, rest) := by
  rw [acceptIf, bind_apply, takeIf_cons, if_pos passed]
  rfl

theorem acceptIf_of_neg {passes : Token → List Token → Bool} {token : Token} {rest : List Token}
    (other : passes token rest = false) :
    acceptIf passes (token :: rest) = .ok (false, token :: rest) := by
  rw [acceptIf, bind_apply, takeIf_cons, if_neg (by simp [other])]
  rfl

theorem accept_of_eq {kind : Token.Kind} {token : Token} (same : token.kind = kind)
    (rest : List Token) : accept kind (token :: rest) = .ok (true, rest) :=
  acceptIf_of_pos (by simp [same])

theorem accept_of_ne {kind : Token.Kind} {token : Token} (differs : token.kind ≠ kind)
    (rest : List Token) : accept kind (token :: rest) = .ok (false, token :: rest) :=
  acceptIf_of_neg (by simp [differs])

theorem accept_mark (kind : Token.Kind) (gap text : String) (rest : List Token) :
    accept kind (⟨kind, gap, text⟩ :: rest) = .ok (true, rest) :=
  accept_of_eq rfl rest

theorem expect_mark (kind : Token.Kind) (expected gap text : String) (rest : List Token) :
    expect kind expected (⟨kind, gap, text⟩ :: rest) = .ok (⟨kind, gap, text⟩, rest) := by
  rw [expect, bind_apply, takeIf_cons, if_pos (by simp)]
  rfl

theorem newlines_of_ne {token : Token} (inLine : token.kind ≠ .newline) (rest : List Token) :
    newlines (token :: rest) = .ok ((), token :: rest) := by
  simp [newlines, dropWhile, Token.isNewline, inLine]

end Parser
end SwiftLens
