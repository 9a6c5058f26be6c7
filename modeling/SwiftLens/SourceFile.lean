import SwiftLens.Declaration.Parser
import SwiftLens.Token.Lexer

namespace SwiftLens

structure SourceFile where
  declarations : List Declaration

def Mismatch.toParseError (tokens : List Token) (mismatch : Mismatch) : ParseError :=
  match mismatch.rest with
  | [] => .unexpectedEnd mismatch.expected
  | token :: _ =>
    let consumed := tokens.take (tokens.length - mismatch.rest.length)
    let place := Position.after (Token.sourceOf consumed ++ token.gap).toList
    let found := if token.kind = .newline then "newline" else token.text
    .unexpected mismatch.expected found place

namespace SourceFile

def significant (tokens : List Token) : List Token :=
  tokens.dropLast

def ofTokens (tokens : List Token) : Except ParseError SourceFile :=
  match Declaration.parseAll tokens with
  | .ok (declarations, _) => .ok ⟨declarations⟩
  | .error mismatch => .error (mismatch.toParseError tokens)

def parse (source : String) : Except ParseError SourceFile :=
  match tokenize source with
  | .ok tokens => ofTokens (significant tokens)
  | .error error => .error error

/-- What a source text declares, in terms of its tokens. -/
theorem parse_ok {source : String} {file : SourceFile} (parsed : parse source = .ok file) :
    ∃ tokens rest, Token.scan false source.toList = .ok tokens ∧
      Declaration.parseAll tokens.dropLast = .ok (file.declarations, rest) := by
  unfold parse at parsed
  cases tokenized : tokenize source with
  | error failure =>
    rw [tokenized] at parsed
    cases parsed
  | ok tokens =>
    rw [tokenized] at parsed
    simp only [ofTokens, significant] at parsed
    cases read : Declaration.parseAll tokens.dropLast with
    | error mismatch => simp [read] at parsed
    | ok answer =>
      rw [read] at parsed
      cases parsed
      exact ⟨tokens, answer.2, tokenize_ok tokenized, read⟩

theorem parse_of_ok {source : String} {tokens rest : List Token} {declarations : List Declaration}
    (scanned : Token.scan false source.toList = .ok tokens)
    (read : Declaration.parseAll tokens.dropLast = .ok (declarations, rest)) :
    parse source = .ok ⟨declarations⟩ := by
  simp only [parse, tokenize_of_scan scanned, ofTokens, significant, read]

theorem parse_of_error {source : String} {tokens : List Token} {mismatch : Mismatch}
    (scanned : Token.scan false source.toList = .ok tokens)
    (failed : Declaration.parseAll tokens.dropLast = .error mismatch) :
    parse source = .error (mismatch.toParseError tokens.dropLast) := by
  simp only [parse, tokenize_of_scan scanned, ofTokens, significant, failed]

def composites (file : SourceFile) : List (Composite Declaration) :=
  file.declarations.filterMap Declaration.composite?

end SourceFile
end SwiftLens
