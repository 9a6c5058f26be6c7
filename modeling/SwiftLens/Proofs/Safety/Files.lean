import SwiftLens.Proofs.Safety.Counters
import SwiftLens.Proofs.Safety.Scanning
import SwiftLens.Proofs.Safety.Slices

namespace SwiftLens

open SwiftLens.Parser

theorem length_le_utf8ByteSize (chars : List Char) :
    chars.length ≤ (String.ofList chars).utf8ByteSize := by
  induction chars with
  | nil => exact Nat.zero_le _
  | cons c rest ih =>
    have counted := c.utf8Size_pos
    rw [utf8ByteSize_ofList_cons, List.length_cons]
    omega

/-- The parser takes at least one token and never goes past the end of the file. A failure is found at
a token or at the end, and it tells what was expected, so no loop is ever cut. -/
structure Parser.Progresses {α : Type} (file : List Token) (parser : Parser α) : Prop where
  ok : ∀ {here value rest}, here <:+ file → parser here = .ok (value, rest) →
    rest <:+ here ∧ rest.length < here.length
  error : ∀ {here mismatch}, here <:+ file → parser here = .error mismatch →
    mismatch.rest <:+ here ∧ mismatch.expected ≠ ""

theorem Parser.progresses_of_contract {α : Type} {file : List Token} {Good : α → Prop}
    {parser : Parser α} (contract : ∀ {bound}, Contract file bound (fun _ => 1) Good parser) :
    Progresses file parser where
  ok inFile parsed := by
    obtain ⟨tail, shorter, -⟩ := contract.ok inFile (Nat.lt_succ_self _) parsed
    exact ⟨tail, shorter⟩
  error inFile failed := by
    obtain ⟨tail, told, -⟩ := contract.error inFile (Nat.lt_succ_self _) failed
    exact ⟨tail, told⟩

def ParseError.TellsExpected : ParseError → Prop
  | unexpected expected _ _ => expected ≠ ""
  | unexpectedEnd expected => expected ≠ ""
  | _ => True

/-- Reading the tokens of a file moves on in every loop, cuts texts inside the source and counts in
range. -/
structure ParsesSafely (source : String) (file : List Token) : Prop where
  declaration : Progresses file Declaration.parse
  type : Progresses file TypeExpr.parse
  pattern : Progresses file Pattern.parse
  enumMember : Progresses file (Declaration.enumMember Declaration.afterSpecifiers)
  enumCase : Progresses file Declaration.enumCase
  slices : SlicesWithin source file
  groups : ∀ {opening token here}, token :: here <:+ file →
    Token.countedGroup opening opening.closing 1 here =
      some (Token.splitGroup opening opening.closing 0 here)
  generics : ∀ {token here}, token :: here <:+ file →
    Declaration.countedNames 1 true here = some (Declaration.genericNames 0 true here)

/-- Reading a source comes to an answer, with places, texts and counts in range. -/
structure ReadsSafely (source : String) : Prop where
  comments : ∀ {here}, here <:+ source.toList →
    Trivia.countedSkip .blank here = some (Trivia.skip here)
  interpolations : ∀ {here}, here <:+ source.toList →
    StringLiteral.countedLiteral here = some (StringLiteral.skip here)
  scanned : (∃ failure, Token.scan false source.toList = .error failure ∧
      tokenize source = .error (failure.toParseError source.toList) ∧
      failure.Within source.toList) ∨
    ∃ tokens, tokenize source = .ok tokens ∧ Token.Tiles source tokens ∧
      tokens.length ≤ source.length + 1 ∧ (∀ span ∈ Token.spans tokens, span.2.2 < UInt32.size) ∧
      ParsesSafely source (SourceFile.significant tokens)
  parsed : (∃ error, SourceFile.parse source = .error error ∧ error.TellsExpected) ∨
    ∃ file, SourceFile.parse source = .ok file

theorem Mismatch.tellsExpected {tokens : List Token} {mismatch : Mismatch}
    (told : mismatch.expected ≠ "") : (mismatch.toParseError tokens).TellsExpected := by
  unfold toParseError
  split
  · exact told
  · exact told

theorem ScanFailure.tellsExpected (source : List Char) (failure : ScanFailure) :
    (failure.toParseError source).TellsExpected := by
  unfold toParseError
  split
  · trivial
  · trivial
  · simp [ParseError.TellsExpected]
  · trivial

theorem SourceFile.ofTokens_tellsExpected {source : String} {file : List Token} {error : ParseError}
    (read : Token.ReadFrom source file) (failed : ofTokens file = .error error) :
    error.TellsExpected := by
  have contract : Contract file (file.length + 1) _ _ _ := Declaration.contract_parseAll read
  unfold ofTokens at failed
  split at failed
  · cases failed
  · next mismatch failedParse =>
    cases failed
    obtain ⟨-, told, -⟩ := contract.error (List.suffix_refl _) (Nat.lt_succ_self _) failedParse
    exact mismatch.tellsExpected told

theorem parsesSafely_of_readFrom {source : String} {file : List Token}
    (read : Token.ReadFrom source file) (few : file.length < UInt32.size) :
    ParsesSafely source file where
  declaration := progresses_of_contract (Declaration.contract_parse read)
  type := progresses_of_contract (TypeExpr.contract_parse read)
  pattern := progresses_of_contract (Pattern.contract_parse read)
  enumMember := progresses_of_contract
    (Declaration.contract_enumMember read (Declaration.contract_afterSpecifiers read))
  enumCase := progresses_of_contract (Declaration.contract_enumCase read)
  slices := read.slicesWithin
  groups inFile := by
    have fewer := inFile.length_le
    rw [List.length_cons] at fewer
    exact Token.countedGroup_eq _ _ (by omega)
  generics inFile := by
    have fewer := inFile.length_le
    rw [List.length_cons] at fewer
    exact Declaration.countedNames_eq (by omega)

/-- Spans that stand in a short source have short offsets. -/
theorem StandsAt.past_lt {source text : String} {first past limit : Nat}
    (stands : StandsAt source text first past) (short : source.utf8ByteSize < limit) :
    past < limit := by
  obtain ⟨before, after, rfl, starts, ends⟩ := stands
  simp only [String.utf8ByteSize_append] at short
  omega

/-- A source of fewer than `UInt32.size` bytes is read safely, whatever it holds. -/
theorem readsSafely_of_short {source : String} (short : source.utf8ByteSize < UInt32.size) :
    ReadsSafely source := by
  have fewChars : source.toList.length < UInt32.size := by
    have counted := length_le_utf8ByteSize source.toList
    rw [String.ofList_toList] at counted
    omega
  constructor
  · intro here tail
    have shorter := tail.length_le
    exact Trivia.countedSkip_blank (by omega)
  · intro here tail
    have shorter := tail.length_le
    exact StringLiteral.countedLiteral_eq (by omega)
  · cases scanned : Token.scan false source.toList with
    | error failure =>
      refine .inl ⟨failure, rfl, ?_, Token.scan_within scanned⟩
      rw [tokenize, scanned]
      rfl
    | ok tokens =>
      have tokenized : tokenize source = .ok tokens := by
        rw [tokenize, scanned]
        rfl
      have tiles := tokenize_tiles tokenized
      have few := Token.length_scan_le scanned
      refine .inr ⟨tokens, tokenized, tiles, by rwa [← String.length_toList], ?_, ?_⟩
      · exact fun span member => (tiles.standing span member).past_lt short
      · apply parsesSafely_of_readFrom (Token.readFrom_of_scan scanned)
        rw [List.length_dropLast]
        omega
  · cases parsed : SourceFile.parse source with
    | ok file => exact .inr ⟨file, rfl⟩
    | error error =>
      refine .inl ⟨error, rfl, ?_⟩
      unfold SourceFile.parse tokenize at parsed
      cases scanned : Token.scan false source.toList with
      | error failure =>
        rw [scanned] at parsed
        cases parsed
        exact failure.tellsExpected _
      | ok tokens =>
        rw [scanned] at parsed
        exact SourceFile.ofTokens_tellsExpected (Token.readFrom_of_scan scanned) parsed

/-- Nested comments, interpolations and generic arguments, and a name in backticks. -/
theorem readsSafely_of_short_nested :
    "/*/**/*/@a( b )let \x60x\x60:A<B<C>> = \"\\(f(1))\"".utf8ByteSize < UInt32.size ∧
      (SourceFile.parse "/*/**/*/@a( b )let \x60x\x60:A<B<C>> = \"\\(f(1))\"").isOk = true ∧
      ReadsSafely "/*/**/*/@a( b )let \x60x\x60:A<B<C>> = \"\\(f(1))\"" := by
  have short : "/*/**/*/@a( b )let \x60x\x60:A<B<C>> = \"\\(f(1))\"".utf8ByteSize < UInt32.size := by
    decide +kernel
  exact ⟨short, by decide +kernel, readsSafely_of_short short⟩

end SwiftLens
