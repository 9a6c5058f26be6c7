import SwiftLens.Proofs.Errors.Faults
import SwiftLens.Proofs.Trees.Declarations

namespace SwiftLens

open SwiftLens.Parser

namespace Position

def Precedes (left right : Position) : Prop :=
  left.line < right.line ∨ left.line = right.line ∧ left.column < right.column

theorem precedes_advance (place : Position) (c : Char) : place.Precedes (place.advance c) := by
  unfold Precedes advance
  split
  · exact .inl (Nat.lt_succ_self _)
  · exact .inr ⟨rfl, Nat.lt_succ_self _⟩

theorem Precedes.trans {first second third : Position} (left : first.Precedes second)
    (right : second.Precedes third) : first.Precedes third := by
  unfold Precedes at left right ⊢
  omega

theorem precedes_after (before more : List Char) (c : Char) :
    (after before).Precedes (after (before ++ c :: more)) := by
  induction more generalizing before c with
  | nil =>
    rw [after_concat]
    exact precedes_advance _ c
  | cons next more ih =>
    have one := precedes_advance (after before) c
    rw [← after_concat] at one
    rw [List.append_cons]
    exact one.trans (ih (before ++ [c]) next)

theorem after_inj {source left right : List Char} (leftIn : left <+: source)
    (rightIn : right <+: source) (same : after left = after right) : left = right := by
  have longer : ∀ {short more : List Char}, after short = after (short ++ more) → more = [] := by
    intro short more same
    cases more with
    | nil => rfl
    | cons c more =>
      have later := precedes_after short more c
      rw [← same] at later
      simp [Precedes] at later
  rcases List.prefix_or_prefix_of_prefix leftIn rightIn with ⟨more, rfl⟩ | ⟨more, rfl⟩
  · rw [longer same, List.append_nil]
  · rw [longer same.symm, List.append_nil]

/-- The place where the source is cut in two, and no other offset between its characters has it. -/
structure Cuts (source before after : String) (place : Position) : Prop where
  whole : source = before ++ after
  between : String.Pos.Raw.IsValid source ⟨before.utf8ByteSize⟩
  here : ofOffset source before.utf8ByteSize = place
  only : ∀ offset, String.Pos.Raw.IsValid source ⟨offset⟩ → ofOffset source offset = place →
    offset = before.utf8ByteSize

theorem cuts_after (before after : String) :
    (Position.after before.toList).Cuts (before ++ after) before after where
  whole := rfl
  between := String.Pos.Raw.isValid_iff_exists_append.mpr ⟨before, after, rfl, rfl⟩
  here := ofOffset_append before after
  only offset valid same := by
    obtain ⟨front, back, split, size⟩ := String.Pos.Raw.isValid_iff_exists_append.mp valid
    obtain rfl : offset = front.utf8ByteSize := congrArg String.Pos.Raw.byteIdx size
    rw [split, ofOffset_append] at same
    have frontIn : front.toList <+: (before ++ after).toList := ⟨back.toList, by rw [split]; simp⟩
    have beforeIn : before.toList <+: (before ++ after).toList := ⟨after.toList, by simp⟩
    rw [String.toList_inj.mp (after_inj frontIn beforeIn same)]

end Position

/-- A token begins at the offset, with `after` from there on. Its text was found, or it is a line
break and the token after it begins there too. -/
def Token.FoundAt (tokens : List Token) (offset : Nat) (after found : String) : Prop :=
  ∃ front token past later, spans tokens = front ++ (token, offset, past) :: later ∧
    ((token.kind ≠ .newline ∧ found = token.text ∧ found ≠ "" ∧ ∃ rest, after = found ++ rest) ∨
      (token.kind = .newline ∧ found = "newline" ∧
        ∃ next more, later = next :: more ∧ next.1.kind ≠ .newline ∧ next.2.1 = offset))

/-- What an error says of the source is so: its place is that of one offset, and what it is about
stands there. -/
def ParseError.Located (source : String) : ParseError → Prop
  | unexpected expected found place =>
    ∃ before after, place.Cuts source before after ∧
      if expected = "closing backtick" then
        (∃ rest, after = found ++ rest) ∧ ∃ tokens, tokenize before = .ok tokens
      else
        ∃ tokens, tokenize source = .ok tokens ∧
          Token.FoundAt tokens before.utf8ByteSize after found
  | unexpectedEnd _ => ∃ tokens, tokenize source = .ok tokens
  | unterminatedString place =>
    ∃ before after, place.Cuts source before after ∧
      ∃ rest, after = "\"" ++ rest ∨ after = "#" ++ rest
  | unterminatedComment place =>
    ∃ before after, place.Cuts source before after ∧
      (∃ rest, after = "/*" ++ rest) ∧ ∃ tokens, tokenize before = .ok tokens
  | invalidCharacter character place =>
    ∃ before after, place.Cuts source before after ∧
      (∃ rest, after = String.singleton character ++ rest) ∧ ∃ tokens, tokenize before = .ok tokens

theorem exists_append_of_begins (text : String) {rest : List Char} (begins : text.toList <+: rest) :
    ∃ more, String.ofList rest = text ++ more := by
  obtain ⟨more, rfl⟩ := begins
  exact ⟨String.ofList more, by rw [String.ofList_append, String.ofList_toList]⟩

theorem ScanFailure.located {source : String} {failure : ScanFailure}
    (failed : Token.scan false source.toList = .error failure) :
    (failure.toParseError source.toList).Located source := by
  obtain ⟨shown, reads⟩ := Token.scan_error failed
  obtain ⟨front, split⟩ := (Token.scan_within failed).place
  have whole : source = String.ofList front ++ String.ofList failure.rest := by
    rw [← String.ofList_append, split, String.ofList_toList]
  have cuts := Position.cuts_after (String.ofList front) (String.ofList failure.rest)
  rw [← whole, String.toList_ofList] at cuts
  have readsFront : failure.fault ≠ .openString →
      ∃ tokens, tokenize (String.ofList front) = .ok tokens := by
    intro noString
    obtain ⟨same, tokens, splitAgain, scanned⟩ := reads noString
    rw [← split, List.append_cancel_right_eq] at splitAgain
    subst splitAgain
    exact ⟨tokens, tokenize_of_scan (by rwa [String.toList_ofList])⟩
  obtain ⟨fault, rest⟩ := failure
  rw [ScanFailure.toParseError, ← split, charsBefore_of_append]
  cases fault with
  | openString =>
    refine ⟨_, _, cuts, ?_⟩
    rcases shown with quoted | marked
    · obtain ⟨more, begins⟩ := exists_append_of_begins "\"" quoted
      exact ⟨more, .inl begins⟩
    · obtain ⟨more, begins⟩ := exists_append_of_begins "#" marked
      exact ⟨more, .inr begins⟩
  | openComment =>
    exact ⟨_, _, cuts, exists_append_of_begins "/*" shown, readsFront (by simp)⟩
  | openBacktick found =>
    refine ⟨_, _, cuts, ?_⟩
    rw [if_pos rfl]
    exact ⟨exists_append_of_begins found shown, readsFront (by simp)⟩
  | badCharacter c =>
    have begins : (String.singleton c).toList <+: rest := by
      rw [String.toList_singleton]
      exact shown
    exact ⟨_, _, cuts, exists_append_of_begins _ begins, readsFront (by simp)⟩

theorem Token.Laid.foundAt {front later : List Token} {token last : Token}
    (laid : Laid false (front ++ token :: (later ++ [last]))) (goesOn : token.kind ≠ .endOfFile) :
    FoundAt (front ++ token :: (later ++ [last])) (sourceOf front ++ token.gap).utf8ByteSize
      (token.text ++ sourceOf (later ++ [last]))
      (if token.kind = .newline then "newline" else token.text) := by
  have spanned : spans (front ++ token :: (later ++ [last])) =
      spans front ++ (token, (sourceOf front ++ token.gap).utf8ByteSize,
        (sourceOf front ++ token.gap).utf8ByteSize + token.text.utf8ByteSize) ::
          spansFrom ((sourceOf front ++ token.gap).utf8ByteSize + token.text.utf8ByteSize)
            (later ++ [last]) := by
    simp [spans, spansFrom_append, spansFrom]
  refine ⟨_, token, _, _, spanned, ?_⟩
  split
  · next isBreak =>
    obtain ⟨empty, next, more, follows, noBreak, touches⟩ := laid.after_break rfl isBreak
    rw [follows]
    exact .inr ⟨isBreak, rfl, _, _, rfl, noBreak, by simp [empty, touches]⟩
  · next noBreak =>
    exact .inl ⟨noBreak, rfl, laid.spelled (by simp) noBreak goesOn, _, rfl⟩

theorem Mismatch.located {source : String} {tokens : List Token} {mismatch : Mismatch}
    (scanned : Token.scan false source.toList = .ok tokens)
    (inFile : mismatch.rest <:+ tokens.dropLast) (told : Tells mismatch.expected) :
    (mismatch.toParseError tokens.dropLast).Located source := by
  have read := tokenize_of_scan scanned
  have laid := Token.laid_of_scan scanned
  have whole := Token.sourceOf_scan scanned
  rw [String.ofList_toList] at whole
  obtain ⟨file, gap, rfl, goOn⟩ := laid.ends
  rw [List.dropLast_concat] at inFile ⊢
  obtain ⟨expected, rest⟩ := mismatch
  obtain ⟨front, rfl⟩ := inFile
  cases rest with
  | nil => exact ⟨_, read⟩
  | cons token later =>
    have consumed : (front ++ token :: later).take
        ((front ++ token :: later).length - (token :: later).length) = front := by simp
    have cuts := Position.cuts_after (Token.sourceOf front ++ token.gap)
      (token.text ++ Token.sourceOf (later ++ [⟨.endOfFile, gap, ""⟩]))
    have joined : Token.sourceOf front ++ token.gap ++
        (token.text ++ Token.sourceOf (later ++ [⟨.endOfFile, gap, ""⟩])) = source := by
      rw [← whole]
      simp [Token.sourceOf, Token.source, String.append_assoc]
    rw [joined] at cuts
    simp only [toParseError, consumed]
    refine ⟨_, _, cuts, ?_⟩
    rw [if_neg told.2]
    rw [List.append_assoc, List.cons_append] at laid read
    exact ⟨_, read, laid.foundAt (goOn token (by simp))⟩

/-- Every error of a source points at the text it is about. -/
theorem SourceFile.parse_located {source : String} {error : ParseError}
    (failed : parse source = .error error) : error.Located source := by
  unfold parse tokenize at failed
  cases scanned : Token.scan false source.toList with
  | error failure =>
    rw [scanned] at failed
    cases failed
    exact ScanFailure.located scanned
  | ok tokens =>
    rw [scanned] at failed
    simp only [Except.mapError, significant, ofTokens] at failed
    have contract : Contract tokens.dropLast (tokens.dropLast.length + 1) _ _ _ :=
      Declaration.contract_parseAll (Token.readFrom_of_scan scanned)
    split at failed
    · cases failed
    · next mismatch failedParse =>
      cases failed
      obtain ⟨inFile, told⟩ :=
        contract.error (List.suffix_refl _) (Nat.lt_succ_self _) failedParse
      exact Mismatch.located scanned inFile told

/-- A character that begins no token, after a number and a dot that belong together no longer, and a
line break where a name has to stand. -/
theorem SourceFile.parse_located_lines :
    parse "let é = 1./*\n*/§" = .error (.invalidCharacter '§' ⟨2, 3⟩) ∧
      ParseError.Located "let é = 1./*\n*/§" (.invalidCharacter '§' ⟨2, 3⟩) ∧
      parse "var\n\n é" = .error (.unexpected "identifier" "newline" ⟨3, 2⟩) ∧
      ParseError.Located "var\n\n é" (.unexpected "identifier" "newline" ⟨3, 2⟩) := by
  have unread : tokenize "let é = 1./*\n*/§" = .error (.invalidCharacter '§' ⟨2, 3⟩) := by
    decide +kernel
  have character : parse "let é = 1./*\n*/§" = .error (.invalidCharacter '§' ⟨2, 3⟩) := by
    rw [parse, unread]
  have scanned : Token.scan false "var\n\n é".toList =
      .ok [⟨.identifier, "", "var"⟩, ⟨.newline, "\n\n ", ""⟩, ⟨.identifier, "", "é"⟩,
        ⟨.endOfFile, "", ""⟩] := by decide +kernel
  have stopped : Declaration.parseAll
      [⟨.identifier, "", "var"⟩, ⟨.newline, "\n\n ", ""⟩, ⟨.identifier, "", "é"⟩] =
        .error ⟨"identifier", [⟨.newline, "\n\n ", ""⟩, ⟨.identifier, "", "é"⟩]⟩ := rfl
  have lineBreak : parse "var\n\n é" = .error (.unexpected "identifier" "newline" ⟨3, 2⟩) := by
    rw [parse_of_error scanned stopped]
    rfl
  exact ⟨character, parse_located character, lineBreak, parse_located lineBreak⟩

end SwiftLens
