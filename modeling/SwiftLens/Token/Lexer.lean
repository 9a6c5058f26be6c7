import SwiftLens.ParseError
import SwiftLens.Token.Lexeme

namespace SwiftLens

def charsBefore (source rest : List Char) : List Char :=
  source.take (source.length - rest.length)

theorem charsBefore_of_append (front rest : List Char) : charsBefore (front ++ rest) rest = front := by
  simp [charsBefore]

theorem charsBefore_append {source rest : List Char} (tail : rest <:+ source) :
    charsBefore source rest ++ rest = source := by
  obtain ⟨front, rfl⟩ := tail
  rw [charsBefore_of_append]

namespace Token

/-- A token with the gap before it. After a first token a gap with a line feed goes to a line break
token. -/
def withGap (afterToken : Bool) (gap : List Char) (kind : Kind) (text : List Char) : List Token :=
  if afterToken && gap.contains '\n' then
    [⟨.newline, String.ofList gap, ""⟩, ⟨kind, "", String.ofList text⟩]
  else
    [⟨kind, String.ofList gap, String.ofList text⟩]

theorem sourceOf_withGap (afterToken : Bool) (gap : List Char) (kind : Kind) (text : List Char) :
    sourceOf (withGap afterToken gap kind text) = String.ofList (gap ++ text) := by
  unfold withGap
  split <;> simp [sourceOf, source, String.ofList_append]

/-- What follows a token is shorter than what its gap began. -/
theorem rest_shorter {source rest after : List Char} {c : Char} {kind : Kind}
    (skipped : Trivia.skip source = .ok (c :: rest))
    (lexed : Lexeme.skip c rest = .ok (kind, after)) : after.length < source.length := by
  have shorter := (Lexeme.skip_suffix lexed).length_le
  have within := (Trivia.skip_suffix skipped).length_le
  simp only [List.length_cons] at within
  omega

def scan (afterToken : Bool) (source : List Char) : Except ScanFailure (List Token) :=
  match skipped : Trivia.skip source with
  | .error failure => .error failure
  | .ok [] => .ok (withGap afterToken source .endOfFile [])
  | .ok (c :: rest) =>
    match lexed : Lexeme.skip c rest with
    | .error failure => .error failure
    | .ok (kind, after) =>
      have : after.length < source.length := rest_shorter skipped lexed
      match scan true after with
      | .error failure => .error failure
      | .ok tokens =>
        .ok (withGap afterToken (charsBefore source (c :: rest)) kind (charsBefore (c :: rest) after)
          ++ tokens)
termination_by source.length

theorem scan_of_end {source : List Char} (skipped : Trivia.skip source = .ok [])
    (afterToken : Bool) :
    scan afterToken source = .ok (withGap afterToken source .endOfFile []) := by
  rw [scan]
  split <;> simp_all

theorem scan_of_token {source rest after : List Char} {c : Char} {kind : Kind} {tokens : List Token}
    (skipped : Trivia.skip source = .ok (c :: rest)) (lexed : Lexeme.skip c rest = .ok (kind, after))
    (scanned : scan true after = .ok tokens) (afterToken : Bool) :
    scan afterToken source =
      .ok (withGap afterToken (charsBefore source (c :: rest)) kind (charsBefore (c :: rest) after)
        ++ tokens) := by
  rw [scan]
  split
  · simp_all
  · simp_all
  · next found =>
    rw [skipped] at found
    cases found
    split
    · simp_all
    · next found =>
      rw [lexed] at found
      cases found
      simp only [scanned]

theorem withGap_ne_nil (afterToken : Bool) (gap : List Char) (kind : Kind) (text : List Char) :
    withGap afterToken gap kind text ≠ [] := by
  unfold withGap
  split <;> simp

/-- What a successful scan has found first. -/
theorem scan_cases {afterToken : Bool} {source : List Char} {tokens : List Token}
    (scanned : scan afterToken source = .ok tokens) :
    (Trivia.skip source = .ok [] ∧ tokens = withGap afterToken source .endOfFile []) ∨
      ∃ c rest kind after more, Trivia.skip source = .ok (c :: rest) ∧
        Lexeme.skip c rest = .ok (kind, after) ∧ scan true after = .ok more ∧
        tokens = withGap afterToken (charsBefore source (c :: rest)) kind
          (charsBefore (c :: rest) after) ++ more := by
  rw [scan] at scanned
  split at scanned
  · cases scanned
  · next skipped => exact .inl ⟨skipped, (Except.ok.inj scanned).symm⟩
  · next c rest skipped =>
    split at scanned
    · cases scanned
    · next kind after lexed =>
      dsimp only at scanned
      split at scanned
      · cases scanned
      · next more scannedMore =>
        exact .inr ⟨c, rest, kind, after, more, skipped, lexed, scannedMore,
          (Except.ok.inj scanned).symm⟩

theorem scan_ne_nil {afterToken : Bool} {source : List Char} {tokens : List Token}
    (scanned : scan afterToken source = .ok tokens) : tokens ≠ [] := by
  rcases scan_cases scanned with ⟨-, rfl⟩ | ⟨c, rest, kind, after, more, -, -, -, rfl⟩
  · exact withGap_ne_nil _ _ _ _
  · simp [withGap_ne_nil]

/-- Tokens spell out the source they were read from. -/
theorem sourceOf_scan {afterToken : Bool} {source : List Char} {tokens : List Token}
    (scanned : scan afterToken source = .ok tokens) :
    sourceOf tokens = String.ofList source := by
  fun_induction scan afterToken source generalizing tokens with
  | case1 => simp at scanned
  | case2 => simp_all [← Except.ok.inj scanned, sourceOf_withGap]
  | case3 => simp at scanned
  | case4 => simp at scanned
  | case5 afterToken source c rest skipped kind after lexed shorter more scannedMore ih =>
    rw [← Except.ok.inj scanned, sourceOf_append, sourceOf_withGap, ih scannedMore,
      ← String.ofList_append, List.append_assoc,
      charsBefore_append ((Lexeme.skip_suffix lexed).trans (List.suffix_cons _ _)),
      charsBefore_append (Trivia.skip_suffix skipped)]

end Token

def ScanFailure.toParseError (source : List Char) (failure : ScanFailure) : ParseError :=
  let place := Position.after (charsBefore source failure.rest)
  match failure.fault with
  | .openString => .unterminatedString place
  | .openComment => .unterminatedComment place
  | .openBacktick found => .unexpected "closing backtick" found place
  | .badCharacter character => .invalidCharacter character place

def tokenize (source : String) : Except ParseError (List Token) :=
  (Token.scan false source.toList).mapError (·.toParseError source.toList)

theorem tokenize_ok {source : String} {tokens : List Token} (read : tokenize source = .ok tokens) :
    Token.scan false source.toList = .ok tokens := by
  unfold tokenize at read
  cases scanned : Token.scan false source.toList with
  | error failure =>
    rw [scanned] at read
    cases read
  | ok found =>
    rw [scanned] at read
    cases read
    rfl

theorem tokenize_of_scan {source : String} {tokens : List Token}
    (scanned : Token.scan false source.toList = .ok tokens) : tokenize source = .ok tokens := by
  rw [tokenize, scanned]
  rfl

end SwiftLens
