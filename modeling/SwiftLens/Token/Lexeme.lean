import SwiftLens.Text.Numeral
import SwiftLens.Token
import SwiftLens.Token.StringLiteral

namespace SwiftLens
namespace Lexeme

def punctuation? : Char → Option Token.Kind
  | '(' => some .leftParen
  | ')' => some .rightParen
  | '\x7b' => some .leftBrace
  | '\x7d' => some .rightBrace
  | '[' => some .leftBracket
  | ']' => some .rightBracket
  | ',' => some .comma
  | ':' => some .colon
  | ';' => some .semicolon
  | '.' => some .dot
  | '?' => some .question
  | '!' => some .bang
  | '=' => some .equal
  | '@' => some .at
  | '&' => some .ampersand
  | '<' => some .less
  | '>' => some .greater
  | _ => none

def isOperator (c : Char) : Bool :=
  c == '-' || c == '+' || c == '*' || c == '/' || c == '%' || c == '|' || c == '^' || c == '~' ||
    c == '\\'

def startsIdentifier (c : Char) : Bool :=
  isLetter c || c == '_' || c == '$'

def continuesIdentifier (c : Char) : Bool :=
  isLetterOrNumeral c || c == '_' || c == '$'

def continuesNumber (c : Char) : Bool :=
  c.isAlphanum || c == '_'

def continuesBackticked (c : Char) : Bool :=
  c != '\x60' && c != '\n'

def skipNumber (rest : List Char) : Token.Kind × List Char :=
  match rest.dropWhile continuesNumber with
  | '.' :: digit :: fraction =>
    if digit.isDigit then (.float, fraction.dropWhile continuesNumber)
    else (.integer, '.' :: digit :: fraction)
  | other => (.integer, other)

def skipBackticked (rest : List Char) : Except ScanFailure (List Char) :=
  match rest.dropWhile continuesBackticked with
  | '\x60' :: after => .ok after
  | _ =>
    let found := '\x60' :: rest.takeWhile continuesBackticked
    .error ⟨.openBacktick (String.ofList found), '\x60' :: rest⟩

def skipMarked (rest : List Char) : Except ScanFailure (Token.Kind × List Char) :=
  let marks := 1 + (rest.takeWhile (· == '#')).length
  match rest.dropWhile (· == '#') with
  | '"' :: afterQuote =>
    match StringLiteral.skipRaw marks afterQuote with
    | some after => .ok (.string, after)
    | none => .error ⟨.openString, '#' :: rest⟩
  | other => .ok (.hash, other)

def skip (c : Char) (rest : List Char) : Except ScanFailure (Token.Kind × List Char) :=
  match punctuation? c with
  | some kind => .ok (kind, rest)
  | none =>
    if c = '#' then skipMarked rest
    else if c = '"' then (StringLiteral.skip rest).map fun after => (.string, after)
    else if c = '\x60' then (skipBackticked rest).map fun after => (.backticked, after)
    else if c.isDigit then .ok (skipNumber rest)
    else if startsIdentifier c then .ok (.identifier, rest.dropWhile continuesIdentifier)
    else if c = '-' && rest.head? == some '>' then .ok (.arrow, rest.drop 1)
    else if isOperator c then .ok (.operator, rest)
    else .error ⟨.badCharacter c, c :: rest⟩

theorem startsIdentifier_ascii {c : Char} (ascii : c.toNat < 128) :
    startsIdentifier c = (c.isAlpha || c == '_' || c == '$') := by
  rw [startsIdentifier, isLetter_ascii ascii]

theorem continuesIdentifier_ascii {c : Char} (ascii : c.toNat < 128) :
    continuesIdentifier c = (c.isAlphanum || c == '_' || c == '$') := by
  rw [continuesIdentifier, isLetterOrNumeral_ascii ascii]

theorem continuesIdentifier_feed : continuesIdentifier '\n' = false := by
  rw [continuesIdentifier_ascii (by decide)]
  decide

theorem skipNumber_suffix (rest : List Char) : (skipNumber rest).2 <:+ rest := by
  unfold skipNumber
  split
  · next digit fraction dropped =>
    have tail : '.' :: digit :: fraction <:+ rest := dropped ▸ List.dropWhile_suffix _
    split
    · exact (List.dropWhile_suffix _).trans (List.IsSuffix.trans ⟨['.', digit], rfl⟩ tail)
    · exact tail
  · exact List.dropWhile_suffix _

theorem skipBackticked_suffix {rest after : List Char} (skipped : skipBackticked rest = .ok after) :
    after <:+ rest := by
  unfold skipBackticked at skipped
  split at skipped
  · next tail dropped =>
    obtain rfl := Except.ok.inj skipped
    exact (List.suffix_cons _ _).trans (dropped ▸ List.dropWhile_suffix _)
  · simp at skipped

theorem skipMarked_suffix {rest after : List Char} {kind : Token.Kind}
    (skipped : skipMarked rest = .ok (kind, after)) : after <:+ rest := by
  unfold skipMarked at skipped
  simp only at skipped
  split at skipped
  · next afterQuote dropped =>
    have tail : '"' :: afterQuote <:+ rest := dropped ▸ List.dropWhile_suffix _
    split at skipped
    · next found =>
      simp only [Except.ok.injEq, Prod.mk.injEq] at skipped
      obtain ⟨-, rfl⟩ := skipped
      exact (StringLiteral.skipRaw_suffix found).trans ((List.suffix_cons _ _).trans tail)
    · simp at skipped
  · simp only [Except.ok.injEq, Prod.mk.injEq] at skipped
    obtain ⟨-, rfl⟩ := skipped
    exact List.dropWhile_suffix _

theorem skip_suffix {c : Char} {rest after : List Char} {kind : Token.Kind}
    (skipped : skip c rest = .ok (kind, after)) : after <:+ rest := by
  unfold skip at skipped
  split at skipped
  · simp_all
  · split at skipped
    · exact skipMarked_suffix skipped
    split at skipped
    · cases literal : StringLiteral.skip rest with
      | error failure => simp [literal, Except.map] at skipped
      | ok found =>
        simp only [literal, Except.map, Except.ok.injEq, Prod.mk.injEq] at skipped
        exact skipped.2 ▸ StringLiteral.skip_suffix literal
    split at skipped
    · cases name : skipBackticked rest with
      | error failure => simp [name, Except.map] at skipped
      | ok found =>
        simp only [name, Except.map, Except.ok.injEq, Prod.mk.injEq] at skipped
        exact skipped.2 ▸ skipBackticked_suffix name
    split at skipped
    · have number := Except.ok.inj skipped
      have tail := skipNumber_suffix rest
      rw [number] at tail
      exact tail
    split at skipped
    · simp only [Except.ok.injEq, Prod.mk.injEq] at skipped
      exact skipped.2 ▸ List.dropWhile_suffix _
    split at skipped
    · simp only [Except.ok.injEq, Prod.mk.injEq] at skipped
      exact skipped.2 ▸ List.drop_suffix _ _
    split at skipped
    · simp only [Except.ok.injEq, Prod.mk.injEq] at skipped
      exact skipped.2 ▸ List.suffix_refl _
    · simp at skipped

end Lexeme
end SwiftLens
