import SwiftLens.Token.Trivia

namespace SwiftLens
namespace StringLiteral

/-- What encloses a character of a plain literal. An interpolation counts the parentheses that are
open inside it. -/
inductive Context
  | singleLine
  | multiline
  | interpolation (parens : Nat)

structure Frame where
  context : Context
  opening : List Char

/-- Drops the rest of a plain literal, given what is open at this point, innermost first. A literal
left open is reported at its own opening quote. -/
def skipPlain : List Frame → List Char → Except ScanFailure (List Char)
  | [], rest => .ok rest
  | frame :: _, [] => .error ⟨.openString, frame.opening⟩
  | ⟨.interpolation parens, opening⟩ :: outer, '(' :: rest =>
    skipPlain (⟨.interpolation (parens + 1), opening⟩ :: outer) rest
  | ⟨.interpolation 0, _⟩ :: outer, ')' :: rest => skipPlain outer rest
  | ⟨.interpolation (parens + 1), opening⟩ :: outer, ')' :: rest =>
    skipPlain (⟨.interpolation parens, opening⟩ :: outer) rest
  | ⟨.interpolation parens, opening⟩ :: outer, '"' :: '"' :: '"' :: rest =>
    skipPlain (⟨.multiline, '"' :: '"' :: '"' :: rest⟩ :: ⟨.interpolation parens, opening⟩ :: outer)
      rest
  | ⟨.interpolation parens, opening⟩ :: outer, '"' :: rest =>
    skipPlain (⟨.singleLine, '"' :: rest⟩ :: ⟨.interpolation parens, opening⟩ :: outer) rest
  | ⟨.interpolation parens, opening⟩ :: outer, _ :: rest =>
    skipPlain (⟨.interpolation parens, opening⟩ :: outer) rest
  | frame :: outer, '\\' :: '(' :: rest =>
    skipPlain (⟨.interpolation 0, frame.opening⟩ :: frame :: outer) rest
  | frame :: outer, '\\' :: _ :: rest => skipPlain (frame :: outer) rest
  | ⟨.multiline, _⟩ :: outer, '"' :: '"' :: '"' :: rest => skipPlain outer rest
  | ⟨.multiline, opening⟩ :: outer, _ :: rest => skipPlain (⟨.multiline, opening⟩ :: outer) rest
  | ⟨.singleLine, _⟩ :: outer, '"' :: rest => skipPlain outer rest
  | ⟨.singleLine, opening⟩ :: outer, c :: rest =>
    if c = '\n' then .error ⟨.openString, opening⟩
    else skipPlain (⟨.singleLine, opening⟩ :: outer) rest

def closesWith (marks : Nat) (rest : List Char) : Bool :=
  (List.replicate marks '#').isPrefixOf rest

def skipRawLine (marks : Nat) : List Char → Option (List Char)
  | [] => none
  | c :: rest =>
    if c = '\n' then none
    else if c = '"' && closesWith marks rest then some (rest.drop marks)
    else skipRawLine marks rest

def skipRawBlock (marks : Nat) : List Char → Option (List Char)
  | [] => none
  | '"' :: '"' :: '"' :: rest =>
    if closesWith marks rest then some (rest.drop marks) else skipRawBlock marks rest
  | _ :: rest => skipRawBlock marks rest

def skip (afterQuote : List Char) : Except ScanFailure (List Char) :=
  match afterQuote with
  | '"' :: '"' :: rest => skipPlain [⟨.multiline, '"' :: afterQuote⟩] rest
  | rest => skipPlain [⟨.singleLine, '"' :: afterQuote⟩] rest

def skipRaw (marks : Nat) (afterQuote : List Char) : Option (List Char) :=
  match afterQuote with
  | '"' :: '"' :: rest => skipRawBlock marks rest
  | rest => skipRawLine marks rest

theorem skipPlain_suffix {frames : List Frame} {source rest : List Char}
    (skipped : skipPlain frames source = .ok rest) : rest <:+ source := by
  fun_induction skipPlain frames source <;> simp_all [List.suffix_cons_iff]

theorem skipRawLine_suffix {marks : Nat} {source rest : List Char}
    (skipped : skipRawLine marks source = some rest) : rest <:+ source := by
  fun_induction skipRawLine marks source with
  | case1 => simp at skipped
  | case2 => simp at skipped
  | case3 c tail =>
    obtain rfl := Option.some.inj skipped
    exact (List.drop_suffix _ _).trans (List.suffix_cons _ _)
  | case4 c tail _ _ ih => exact (ih skipped).trans (List.suffix_cons _ _)

theorem skipRawBlock_suffix {marks : Nat} {source rest : List Char}
    (skipped : skipRawBlock marks source = some rest) : rest <:+ source := by
  fun_induction skipRawBlock marks source with
  | case1 => simp at skipped
  | case2 tail =>
    obtain rfl := Option.some.inj skipped
    exact (List.drop_suffix _ _).trans ⟨['"', '"', '"'], rfl⟩
  | case3 tail _ ih => exact (ih skipped).trans ⟨['"', '"', '"'], rfl⟩
  | case4 c tail _ ih => exact (ih skipped).trans (List.suffix_cons _ _)

theorem skip_suffix {afterQuote rest : List Char} (skipped : skip afterQuote = .ok rest) :
    rest <:+ afterQuote := by
  unfold skip at skipped
  split at skipped
  · exact (skipPlain_suffix skipped).trans ⟨['"', '"'], rfl⟩
  · exact skipPlain_suffix skipped

theorem skipRaw_suffix {marks : Nat} {afterQuote rest : List Char}
    (skipped : skipRaw marks afterQuote = some rest) : rest <:+ afterQuote := by
  unfold skipRaw at skipped
  split at skipped
  · exact (skipRawBlock_suffix skipped).trans ⟨['"', '"'], rfl⟩
  · exact skipRawLine_suffix skipped

end StringLiteral
end SwiftLens
