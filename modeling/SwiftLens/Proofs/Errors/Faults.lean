import SwiftLens.Proofs.Safety.Scanning
import SwiftLens.Proofs.Tokens.Respaced

namespace SwiftLens

def ScanFailure.Shown (failure : ScanFailure) : Prop :=
  match failure.fault with
  | .openString => ['"'] <+: failure.rest ∨ ['#'] <+: failure.rest
  | .openComment => ['/', '*'] <+: failure.rest
  | .openBacktick found => found.toList <+: failure.rest
  | .badCharacter c => [c] <+: failure.rest

namespace Trivia

theorem visible_of_skipFrom {state : State} {source rest : List Char} {c : Char}
    (skipped : skipFrom state source = .ok (c :: rest)) :
    isGapBlank c = false ∧ (c = '/' → rest.head? ≠ some '/' ∧ rest.head? ≠ some '*') := by
  fun_induction skipFrom state source with
  | case5 first tail noLine noBlock visible =>
    cases skipped
    refine ⟨by simpa using visible, ?_⟩
    intro isSlash
    constructor
    · intro next
      obtain ⟨more, rfl⟩ := List.head?_eq_some_iff.mp next
      exact noLine more isSlash rfl
    · intro next
      obtain ⟨more, rfl⟩ := List.head?_eq_some_iff.mp next
      exact noBlock more isSlash rfl
  | case1 | case6 | case8 => cases skipped
  | case2 _ ih | case3 _ ih | case4 _ _ _ _ _ ih | case7 _ _ ih | case9 _ _ _ ih | case10 _ _ ih
  | case11 _ _ _ ih | case12 _ _ _ _ _ _ _ ih => exact ih skipped

/-- A gap ends where it ended when the source is cut behind it. -/
theorem skip_cut {source rest : List Char} {c : Char} (skipped : skip source = .ok (c :: rest)) :
    ∃ gap, source = gap ++ c :: rest ∧
      ∀ front, front <+: c :: rest → skip (gap ++ front) = .ok front := by
  obtain ⟨gap, split, isGap⟩ := gap_of_skip skipped
  refine ⟨gap, split, ?_⟩
  intro front cut
  rw [isGap.skip_append cut]
  cases front with
  | nil => rfl
  | cons first tail =>
    obtain ⟨rfl, more, rfl⟩ := List.cons_prefix_cons.mp cut
    obtain ⟨visible, noComment⟩ := visible_of_skipFrom skipped
    apply skip_visible visible
    intro isSlash
    obtain ⟨noLine, noBlock⟩ := noComment isSlash
    exact ⟨fun next => noLine (by simp [next]), fun next => noBlock (by simp [next])⟩

end Trivia

namespace StringLiteral

/-- A plain literal that stays open is reported at a quote. -/
theorem skipPlain_error {frames : List Frame} {source : List Char} {failure : ScanFailure}
    (quoted : ∀ frame ∈ frames, frame.opening.head? = some '"')
    (failed : skipPlain frames source = .error failure) :
    failure.fault = .openString ∧ failure.rest.head? = some '"' := by
  fun_induction skipPlain frames source with
  | case2 frame outer =>
    cases failed
    exact ⟨rfl, quoted frame List.mem_cons_self⟩
  | case14 opening outer =>
    cases failed
    exact ⟨rfl, quoted _ List.mem_cons_self⟩
  | _ => simp_all

theorem skip_error {afterQuote : List Char} {failure : ScanFailure}
    (failed : skip afterQuote = .error failure) :
    failure.fault = .openString ∧ failure.rest.head? = some '"' := by
  unfold skip at failed
  split at failed
  · exact skipPlain_error (by simp) failed
  · exact skipPlain_error (by simp) failed

end StringLiteral

namespace Lexeme

/-- A fault other than an open literal is that of the token that begins here. -/
theorem skip_error {c : Char} {rest : List Char} {failure : ScanFailure}
    (failed : skip c rest = .error failure) :
    failure.Shown ∧ (failure.fault ≠ .openString → failure.rest = c :: rest) := by
  rcases skip_error_cases failed with ⟨rfl, marked⟩ | ⟨rfl, literal⟩ | ⟨rfl, name⟩ | rfl
  · obtain rfl := skipMarked_error marked
    exact ⟨.inr ⟨rest, rfl⟩, fun _ => rfl⟩
  · obtain ⟨isString, first⟩ := StringLiteral.skip_error literal
    obtain ⟨more, opens⟩ := List.head?_eq_some_iff.mp first
    refine ⟨?_, fun noString => absurd isString noString⟩
    rw [ScanFailure.Shown, isString]
    exact .inl ⟨more, opens.symm⟩
  · obtain ⟨text, shown, rfl⟩ := skipBackticked_error name
    exact ⟨shown, fun _ => rfl⟩
  · exact ⟨⟨rest, rfl⟩, fun _ => rfl⟩

end Lexeme

namespace Token

/-- A fault shows what it is about, and the source before it is read. -/
theorem scan_error {afterToken : Bool} {source : List Char} {failure : ScanFailure}
    (failed : scan afterToken source = .error failure) :
    failure.Shown ∧ (failure.fault ≠ .openString →
      ∃ front tokens, source = front ++ failure.rest ∧ scan afterToken front = .ok tokens) := by
  fun_induction scan afterToken source with
  | case1 afterToken source found skipped =>
    cases failed
    obtain ⟨isComment, ⟨rest, opens⟩, gap, split, isGap⟩ := Trivia.gap_of_skip_error skipped
    constructor
    · rw [ScanFailure.Shown, isComment]
      exact ⟨rest, opens.symm⟩
    · intro _
      have ended := isGap.skip_append List.nil_prefix
      rw [List.append_nil] at ended
      exact ⟨gap, _, split, scan_of_end ended afterToken⟩
  | case2 => cases failed
  | case3 afterToken source c rest skipped found lexed =>
    cases failed
    obtain ⟨shown, here⟩ := Lexeme.skip_error lexed
    refine ⟨shown, ?_⟩
    intro noString
    obtain ⟨gap, split, cut⟩ := Trivia.skip_cut skipped
    have ended := cut [] List.nil_prefix
    rw [List.append_nil] at ended
    exact ⟨gap, _, by rw [here noString, split], scan_of_end ended afterToken⟩
  | case4 afterToken source c rest skipped kind after lexed shorter failure failedLater ih =>
    cases failed
    obtain ⟨shown, later⟩ := ih failedLater
    refine ⟨shown, ?_⟩
    intro noString
    obtain ⟨front, tokens, rfl, scanned⟩ := later noString
    obtain ⟨tail, rfl, reads⟩ := Lexeme.skip_anywhere lexed
    obtain ⟨gap, split, cut⟩ := Trivia.skip_cut skipped
    have begins : c :: (tail ++ front) <+: c :: (tail ++ (front ++ failure.rest)) :=
      ⟨failure.rest, by simp⟩
    have starts : front <+: front ++ failure.rest := List.prefix_append _ _
    have lexes := reads front (.inr starts)
    exact ⟨gap ++ c :: (tail ++ front), _, by rw [split]; simp,
      scan_of_token (cut _ begins) lexes scanned afterToken⟩
  | case5 => cases failed

end Token
end SwiftLens
