import SwiftLens.Token.Lexer

namespace SwiftLens

structure ScanFailure.Within (source : List Char) (failure : ScanFailure) : Prop where
  place : failure.rest <:+ source
  found : ∀ text, failure.fault = .openBacktick text → text.toList <+: failure.rest

theorem ScanFailure.Within.longer {source longer : List Char} {failure : ScanFailure}
    (within : failure.Within source) (tail : source <:+ longer) : failure.Within longer :=
  ⟨within.place.trans tail, within.found⟩

def Trivia.State.BeganIn (source : List Char) : Trivia.State → Prop
  | .blockComment _ opening => opening <:+ source
  | _ => True

theorem Trivia.skipFrom_within {state : State} {source whole : List Char} {failure : ScanFailure}
    (tail : source <:+ whole) (began : state.BeganIn whole)
    (failed : skipFrom state source = .error failure) : failure.Within whole := by
  fun_induction skipFrom state source with
  | case1 => cases failed
  | case2 rest ih => exact ih (List.IsSuffix.trans ⟨['/', '/'], rfl⟩ tail) trivial failed
  | case3 rest ih => exact ih (List.IsSuffix.trans ⟨['/', '*'], rfl⟩ tail) tail failed
  | case4 c rest _ _ _ ih => exact ih ((List.suffix_cons _ _).trans tail) trivial failed
  | case5 => cases failed
  | case6 => cases failed
  | case7 c rest ih =>
    refine ih ((List.suffix_cons _ _).trans tail) ?_ failed
    split <;> trivial
  | case8 =>
    cases failed
    exact ⟨began, by simp⟩
  | case9 _ _ rest ih => exact ih (List.IsSuffix.trans ⟨['/', '*'], rfl⟩ tail) began failed
  | case10 _ rest ih => exact ih (List.IsSuffix.trans ⟨['*', '/'], rfl⟩ tail) trivial failed
  | case11 _ _ rest ih => exact ih (List.IsSuffix.trans ⟨['*', '/'], rfl⟩ tail) began failed
  | case12 _ _ c rest _ _ _ ih => exact ih ((List.suffix_cons _ _).trans tail) began failed

theorem Trivia.skip_within {source : List Char} {failure : ScanFailure}
    (failed : skip source = .error failure) : failure.Within source :=
  skipFrom_within (List.suffix_refl _) (show State.blank.BeganIn source from trivial) failed

def StringLiteral.BeganIn (source : List Char) (frames : List Frame) : Prop :=
  ∀ frame ∈ frames, frame.opening <:+ source

theorem StringLiteral.BeganIn.push {source opening : List Char} {frames : List Frame}
    (began : BeganIn source frames) (context : Context) (here : opening <:+ source) :
    BeganIn source (⟨context, opening⟩ :: frames) :=
  List.forall_mem_cons.mpr ⟨here, began⟩

theorem StringLiteral.BeganIn.top {source : List Char} {frame : Frame} {frames : List Frame}
    (began : BeganIn source (frame :: frames)) : frame.opening <:+ source :=
  began frame List.mem_cons_self

theorem StringLiteral.BeganIn.pop {source : List Char} {frame : Frame} {frames : List Frame}
    (began : BeganIn source (frame :: frames)) : BeganIn source frames :=
  (List.forall_mem_cons.mp began).2

theorem StringLiteral.skipPlain_within {frames : List Frame} {source whole : List Char}
    {failure : ScanFailure} (tail : source <:+ whole) (began : BeganIn whole frames)
    (failed : skipPlain frames source = .error failure) : failure.Within whole := by
  fun_induction skipPlain frames source with
  | case1 => cases failed
  | case2 =>
    cases failed
    exact ⟨began.top, by simp⟩
  | case3 parens opening outer rest ih =>
    exact ih ((List.suffix_cons _ _).trans tail) (began.pop.push _ began.top) failed
  | case4 opening outer rest ih => exact ih ((List.suffix_cons _ _).trans tail) began.pop failed
  | case5 opening outer parens rest ih =>
    exact ih ((List.suffix_cons _ _).trans tail) (began.pop.push _ began.top) failed
  | case6 parens opening outer rest ih =>
    exact ih (List.IsSuffix.trans ⟨['"', '"', '"'], rfl⟩ tail) (began.push _ tail) failed
  | case7 parens opening outer rest _ ih =>
    exact ih ((List.suffix_cons _ _).trans tail) (began.push _ tail) failed
  | case8 parens opening outer c rest _ _ _ _ _ ih =>
    exact ih ((List.suffix_cons _ _).trans tail) began failed
  | case9 frame outer rest _ ih =>
    exact ih (List.IsSuffix.trans ⟨['\\', '('], rfl⟩ tail) (began.push _ began.top) failed
  | case10 frame outer c rest _ _ ih =>
    exact ih (List.IsSuffix.trans ⟨['\\', c], rfl⟩ tail) began failed
  | case11 opening outer rest ih =>
    exact ih (List.IsSuffix.trans ⟨['"', '"', '"'], rfl⟩ tail) began.pop failed
  | case12 opening outer c rest _ _ _ ih => exact ih ((List.suffix_cons _ _).trans tail) began failed
  | case13 opening outer rest ih => exact ih ((List.suffix_cons _ _).trans tail) began.pop failed
  | case14 =>
    cases failed
    exact ⟨began.top, by simp⟩
  | case15 opening outer c rest _ _ _ _ ih =>
    exact ih ((List.suffix_cons _ _).trans tail) began failed

theorem StringLiteral.skip_within {afterQuote : List Char} {failure : ScanFailure}
    (failed : skip afterQuote = .error failure) : failure.Within ('"' :: afterQuote) := by
  have began : ∀ context, BeganIn ('"' :: afterQuote) [⟨context, '"' :: afterQuote⟩] := by
    simp [BeganIn]
  unfold skip at failed
  split at failed
  · exact skipPlain_within ⟨['"', '"', '"'], rfl⟩ (began _) failed
  · exact skipPlain_within (List.suffix_cons _ _) (began _) failed

theorem Lexeme.skipBackticked_error {rest : List Char} {failure : ScanFailure}
    (failed : skipBackticked rest = .error failure) :
    ∃ found, found.toList <+: '\x60' :: rest ∧ failure = ⟨.openBacktick found, '\x60' :: rest⟩ := by
  unfold skipBackticked at failed
  split at failed
  · cases failed
  · cases failed
    refine ⟨_, ?_, rfl⟩
    rw [String.toList_ofList]
    apply (List.cons_prefix_cons).mpr
    exact ⟨rfl, List.takeWhile_prefix _⟩

theorem Lexeme.skipBackticked_within {rest : List Char} {failure : ScanFailure}
    (failed : skipBackticked rest = .error failure) : failure.Within ('\x60' :: rest) := by
  obtain ⟨found, shown, rfl⟩ := skipBackticked_error failed
  refine ⟨List.suffix_refl _, ?_⟩
  rintro _ ⟨⟩
  exact shown

theorem Lexeme.skipMarked_error {rest : List Char} {failure : ScanFailure}
    (failed : skipMarked rest = .error failure) : failure = ⟨.openString, '#' :: rest⟩ := by
  unfold skipMarked at failed
  simp only at failed
  split at failed
  · split at failed
    · cases failed
    · exact (Except.error.inj failed).symm
  · cases failed

theorem Lexeme.skipMarked_within {rest : List Char} {failure : ScanFailure}
    (failed : skipMarked rest = .error failure) : failure.Within ('#' :: rest) := by
  obtain rfl := skipMarked_error failed
  exact ⟨List.suffix_refl _, by simp⟩

/-- How the token that begins with a character fails, by that character. -/
theorem Lexeme.skip_error_cases {c : Char} {rest : List Char} {failure : ScanFailure}
    (failed : skip c rest = .error failure) :
    (c = '#' ∧ skipMarked rest = .error failure) ∨
      (c = '"' ∧ StringLiteral.skip rest = .error failure) ∨
      (c = '\x60' ∧ skipBackticked rest = .error failure) ∨
      failure = ⟨.badCharacter c, c :: rest⟩ := by
  unfold skip at failed
  split at failed
  · cases failed
  split at failed
  · next isHash => exact .inl ⟨isHash, failed⟩
  split at failed
  · next isQuote =>
    cases literal : StringLiteral.skip rest with
    | ok after =>
      rw [literal] at failed
      cases failed
    | error found =>
      rw [literal] at failed
      cases failed
      exact .inr (.inl ⟨isQuote, rfl⟩)
  split at failed
  · next isTick =>
    cases name : skipBackticked rest with
    | ok after =>
      rw [name] at failed
      cases failed
    | error found =>
      rw [name] at failed
      cases failed
      exact .inr (.inr (.inl ⟨isTick, rfl⟩))
  split at failed
  · cases failed
  split at failed
  · cases failed
  split at failed
  · cases failed
  split at failed
  · cases failed
  · exact .inr (.inr (.inr (Except.error.inj failed).symm))

theorem Lexeme.skip_within {c : Char} {rest : List Char} {failure : ScanFailure}
    (failed : skip c rest = .error failure) : failure.Within (c :: rest) := by
  rcases skip_error_cases failed with ⟨rfl, marked⟩ | ⟨rfl, literal⟩ | ⟨rfl, name⟩ | rfl
  · exact skipMarked_within marked
  · exact StringLiteral.skip_within literal
  · exact skipBackticked_within name
  · exact ⟨List.suffix_refl _, by simp⟩

namespace Token

/-- A line break takes a line feed of the gap. -/
theorem length_withGap_le (afterToken : Bool) (gap : List Char) (kind : Kind) (text : List Char) :
    (withGap afterToken gap kind text).length ≤ gap.length + 1 := by
  unfold withGap
  split
  · next breaks =>
    have fed : '\n' ∈ gap := by simpa using (Bool.and_eq_true_iff.mp breaks).2
    have counted := List.length_pos_of_mem fed
    simp only [List.length_cons, List.length_nil]
    omega
  · simp

/-- Scanning fails at a place of the source. -/
theorem scan_within {afterToken : Bool} {source : List Char} {failure : ScanFailure}
    (failed : scan afterToken source = .error failure) : failure.Within source := by
  fun_induction scan afterToken source with
  | case1 afterToken source found skipped =>
    cases failed
    exact Trivia.skip_within skipped
  | case2 => cases failed
  | case3 afterToken source c rest skipped found lexed =>
    cases failed
    exact (Lexeme.skip_within lexed).longer (Trivia.skip_suffix skipped)
  | case4 afterToken source c rest skipped kind after lexed shorter found failedLater ih =>
    cases failed
    have tail := (Lexeme.skip_suffix lexed).trans (List.suffix_cons c rest)
    exact (ih failedLater).longer (tail.trans (Trivia.skip_suffix skipped))
  | case5 => cases failed

/-- Every token but the last takes at least one character. -/
theorem length_scan_le {afterToken : Bool} {source : List Char} {tokens : List Token}
    (scanned : scan afterToken source = .ok tokens) : tokens.length ≤ source.length + 1 := by
  fun_induction scan afterToken source generalizing tokens with
  | case1 => cases scanned
  | case2 afterToken source skipped =>
    cases scanned
    have few := length_withGap_le afterToken source .endOfFile []
    simpa using few
  | case3 => cases scanned
  | case4 => cases scanned
  | case5 afterToken source c rest skipped kind after lexed shorter more scannedMore ih =>
    cases scanned
    obtain ⟨gap, rfl⟩ := Trivia.skip_suffix skipped
    obtain ⟨tail, rfl⟩ := Lexeme.skip_suffix lexed
    have few := length_withGap_le afterToken gap kind (c :: tail)
    have fewLater := ih scannedMore
    rw [charsBefore_of_append, ← List.cons_append, charsBefore_of_append]
    simp only [List.length_append, List.length_cons] at few fewLater ⊢
    omega

end Token
end SwiftLens
