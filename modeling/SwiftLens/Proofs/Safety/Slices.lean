import SwiftLens.Proofs.Layout.Declarations
import SwiftLens.Proofs.Trees.Declarations

namespace SwiftLens

open SwiftLens.Parser

namespace Token

def pastOf (file rest : List Token) : Nat :=
  (sourceOf (file.take (file.length - rest.length))).utf8ByteSize

def firstOf (file here : List Token) : Nat :=
  pastOf file here + ((here.head?.map (·.gap)).getD "").utf8ByteSize

theorem pastOf_append (front rest : List Token) :
    pastOf (front ++ rest) rest = (sourceOf front).utf8ByteSize := by
  simp [pastOf]

theorem firstOf_append (front : List Token) (token : Token) (rest : List Token) :
    firstOf (front ++ token :: rest) (token :: rest) =
      (sourceOf front ++ token.gap).utf8ByteSize := by
  rw [firstOf, pastOf_append, String.utf8ByteSize_append]
  rfl

/-- These are the bytes that the spans tell. -/
theorem mem_spans {file rest : List Token} {token : Token} (inFile : token :: rest <:+ file) :
    (token, firstOf file (token :: rest), pastOf file rest) ∈ spans file := by
  obtain ⟨front, rfl⟩ := inFile
  have past : pastOf (front ++ token :: rest) rest =
      (sourceOf front ++ token.gap).utf8ByteSize + token.text.utf8ByteSize := by
    rw [List.append_cons, pastOf_append]
    simp [sourceOf, source, Nat.add_assoc]
  rw [firstOf_append, past, spans, spansFrom_append]
  simp [spansFrom]

namespace ReadFrom

variable {source : String} {file : List Token} (read : ReadFrom source file)

include read

theorem source_eq : ∃ trailing, source = sourceOf file ++ trailing := by
  obtain ⟨trailing, whole⟩ := read.whole
  refine ⟨String.ofList trailing, ?_⟩
  rw [← String.toList_inj, ← whole]
  simp

/-- A run of tokens stands from the beginning of its first to the end of its last. -/
theorem standsAt_slice {run rest : List Token} (inFile : run ++ rest <:+ file) (filled : run ≠ []) :
    StandsAt source (slice run) (firstOf file (run ++ rest)) (pastOf file rest) := by
  obtain ⟨trailing, rfl⟩ := read.source_eq
  obtain ⟨front, rfl⟩ := inFile
  obtain ⟨token, later, rfl⟩ := List.exists_cons_of_ne_nil filled
  refine ⟨sourceOf front ++ token.gap, sourceOf rest ++ trailing, ?_, ?_, ?_⟩
  · simp [slice, sourceOf, Token.source, String.append_assoc]
  · exact (firstOf_append front token (later ++ rest)).symm
  · rw [List.cons_append, firstOf_append, ← List.cons_append, ← List.append_assoc, pastOf_append]
    simp [slice, sourceOf, Token.source]
    omega

/-- What stands between two tokens, with the tokens between them. -/
theorem standsAt_between {between rest : List Token} {closing : Token}
    (inFile : between ++ closing :: rest <:+ file) :
    StandsAt source (sourceOf between ++ closing.gap) (pastOf file (between ++ closing :: rest))
      (firstOf file (closing :: rest)) := by
  obtain ⟨trailing, rfl⟩ := read.source_eq
  obtain ⟨front, rfl⟩ := inFile
  refine ⟨sourceOf front, closing.text ++ sourceOf rest ++ trailing, ?_, ?_, ?_⟩
  · simp [sourceOf, Token.source, String.append_assoc]
  · exact (pastOf_append front _).symm
  · rw [pastOf_append, ← List.append_assoc, firstOf_append]
    simp [Nat.add_assoc]

end ReadFrom
end Token

/-- An expression is the text of the tokens that it consumes. -/
theorem Parser.expression_ok {here rest : List Token} {text : String}
    (wellRead : Token.WellRead here) (parsed : expression here = .ok (text, rest)) :
    ∃ run, here = run ++ rest ∧ run ≠ [] ∧ text = Token.slice run := by
  obtain ⟨run, between, consumed, finished⟩ := bind_ok parsed
  split at finished
  · cases finished
  · next filled =>
    cases finished
    exact ⟨run, (expressionTokens_run wellRead consumed).splits, by simpa using filled, rfl⟩

namespace Declaration

/-- The condition follows the hash and the directive. -/
theorem compilerControlLine_ok {tokens rest : List Token} {word text : String}
    (parsed : compilerControlLine tokens = .ok (.compilerControl word (some text), rest)) :
    ∃ run, tokens.drop 2 = run ++ rest ∧ run ≠ [] ∧ text = Token.slice run := by
  obtain ⟨hash, between, readHash, afterHash⟩ := bind_ok parsed
  obtain ⟨rfl, -⟩ := expect_ok readHash
  obtain ⟨directive, here, readDirective, afterDirective⟩ := bind_ok afterHash
  obtain ⟨rfl, -⟩ := expect_ok readDirective
  obtain ⟨run, left, taken, finished⟩ := bind_ok afterDirective
  cases taken
  split at finished
  · cases finished
  · next filled =>
    cases finished
    exact ⟨_, List.takeWhile_append_dropWhile.symm, by simpa using filled, rfl⟩

theorem operator_ok {inner : Parser Declaration} {here rest : List Token} {text : String}
    (parsed : afterKeyword inner .operator here = .ok (.operator text, rest)) :
    ∃ run, here = run ++ rest ∧ text = Token.slice run := by
  obtain ⟨run, between, taken, finished⟩ := bind_ok parsed
  cases taken
  cases finished
  exact ⟨_, List.takeWhile_append_dropWhile.symm, rfl⟩

theorem functionName_ok {token : Token} {here rest : List Token} {name : String}
    (unnamed : Name.ofToken? token = none)
    (parsed : functionName (token :: here) = .ok (name, rest)) :
    ∃ run, token :: here = run ++ rest ∧ run ≠ [] ∧ name = Token.slice run := by
  rw [functionName_operator unnamed] at parsed
  split at parsed
  · cases parsed
  · cases parsed
    exact ⟨_, by rw [List.cons_append, List.takeWhile_append_dropWhile], by simp, rfl⟩

end Declaration

/-- The arguments follow the mark, the name and the parenthesis. -/
theorem Attribute.arguments_ok {tokens rest : List Token} {written : Attribute} {text : String}
    (parsed : parse tokens = .ok (written, rest)) (hasArguments : written.arguments = some text) :
    ∃ between closing, tokens.drop 3 = between ++ closing :: rest ∧
      text = String.ofList (trimBlanks (Token.sourceOf between ++ closing.gap).toList) := by
  obtain ⟨mark, unmarked, readMark, afterMark⟩ := bind_ok parsed
  obtain ⟨rfl, -⟩ := expect_ok readMark
  obtain ⟨name, unnamed, readName, afterName⟩ := bind_ok afterMark
  obtain ⟨rfl, -⟩ := expect_ok readName
  obtain ⟨touching, here, accepted, decided⟩ := bind_ok afterName
  rcases acceptIf_ok accepted with ⟨opening, rfl, rfl, -⟩ | ⟨rfl, rfl⟩
  · rw [if_pos rfl] at decided
    obtain ⟨group, left, closed, finished⟩ := bind_ok decided
    obtain ⟨rfl, between, closing, rfl, -⟩ := closeGroup_splits closed
    cases finished
    cases hasArguments
    exact ⟨between, closing, by simp, by simp [argumentText]⟩
  · cases decided
    cases hasArguments

/-- Every text that is cut out of a source stands between two of its bytes, neither of them inside a
character: from the beginning of the first token that is cut to the end of the last one. -/
structure SlicesWithin (source : String) (file : List Token) : Prop where
  token : ∀ {token rest}, token :: rest <:+ file →
    (token, Token.firstOf file (token :: rest), Token.pastOf file rest) ∈ Token.spans file ∧
      StandsAt source token.text (Token.firstOf file (token :: rest)) (Token.pastOf file rest)
  backticked : ∀ {token rest}, token :: rest <:+ file → token.kind = .backticked →
    ∃ name, Name.ofBackticked token.text = .quoted name ∧
      StandsAt source name (Token.firstOf file (token :: rest) + 1) (Token.pastOf file rest - 1)
  expression : ∀ {here rest text}, here <:+ file → Parser.expression here = .ok (text, rest) →
    StandsAt source text (Token.firstOf file here) (Token.pastOf file rest)
  condition : ∀ {here rest word text}, here <:+ file →
    Declaration.compilerControlLine here = .ok (.compilerControl word (some text), rest) →
    StandsAt source text (Token.firstOf file (here.drop 2)) (Token.pastOf file rest)
  operator : ∀ {inner here rest text}, here <:+ file →
    Declaration.afterKeyword inner .operator here = .ok (.operator text, rest) →
    (rest = here ∧ text = "") ∨
      StandsAt source text (Token.firstOf file here) (Token.pastOf file rest)
  functionName : ∀ {token later rest name}, token :: later <:+ file → Name.ofToken? token = none →
    Declaration.functionName (token :: later) = .ok (name, rest) →
    StandsAt source name (Token.firstOf file (token :: later)) (Token.pastOf file rest)
  arguments : ∀ {here rest written text}, here <:+ file →
    Attribute.parse here = .ok (written, rest) → written.arguments = some text →
      ∃ closing inside, closing :: rest <:+ here ∧
        StandsAt source inside (Token.pastOf file (here.drop 3))
          (Token.firstOf file (closing :: rest)) ∧
        text = String.ofList (trimBlanks inside.toList)

/-- Backticks are one byte each and stand around the name. -/
theorem StandsAt.backticked {source name : String} {first past : Nat}
    (stands : StandsAt source ("\x60" ++ name ++ "\x60") first past) :
    StandsAt source name (first + 1) (past - 1) := by
  obtain ⟨before, after, rfl, starts, ends⟩ := stands
  refine ⟨before ++ "\x60", "\x60" ++ after, by simp [String.append_assoc], ?_, ?_⟩
  · rw [String.utf8ByteSize_append, starts]
    rfl
  · have tick : "\x60".utf8ByteSize = 1 := rfl
    simp only [String.utf8ByteSize_append, tick] at ends
    omega

theorem Token.ReadFrom.slicesWithin {source : String} {file : List Token}
    (read : ReadFrom source file) : SlicesWithin source file := by
  have standing : ∀ {token rest}, token :: rest <:+ file →
      StandsAt source token.text (firstOf file (token :: rest)) (pastOf file rest) := by
    intro token rest inFile
    have stands : StandsAt source (slice [token]) (firstOf file ([token] ++ rest)) (pastOf file rest) :=
      read.standsAt_slice inFile (by simp)
    simpa [slice, sourceOf] using stands
  constructor
  · exact fun inFile => ⟨mem_spans inFile, standing inFile⟩
  · intro token rest inFile isBackticked
    have spelled := read.wellRead.spelled token (inFile.subset List.mem_cons_self)
      (by rw [isBackticked]; decide)
    obtain ⟨name, written, -⟩ := spelled.quoted isBackticked
    refine ⟨String.ofList name, by simp [Name.ofBackticked, written], ?_⟩
    have text : token.text = "\x60" ++ String.ofList name ++ "\x60" := by
      rw [← String.toList_inj, written]
      simp
    have stands := standing inFile
    rw [text] at stands
    exact stands.backticked
  · intro here rest text inFile parsed
    obtain ⟨run, rfl, filled, rfl⟩ :=
      expression_ok (read.wellRead.run inFile.isInfix) parsed
    exact read.standsAt_slice inFile filled
  · intro here rest word text inFile parsed
    obtain ⟨run, split, filled, rfl⟩ := Declaration.compilerControlLine_ok parsed
    have inRest := (List.drop_suffix 2 here).trans inFile
    rw [split] at inRest ⊢
    exact read.standsAt_slice inRest filled
  · intro inner here rest text inFile parsed
    obtain ⟨run, rfl, rfl⟩ := Declaration.operator_ok parsed
    by_cases filled : run = []
    · subst filled
      exact .inl ⟨rfl, rfl⟩
    · exact .inr (read.standsAt_slice inFile filled)
  · intro token later rest name inFile unnamed parsed
    obtain ⟨run, split, filled, rfl⟩ := Declaration.functionName_ok unnamed parsed
    rw [split] at inFile ⊢
    exact read.standsAt_slice inFile filled
  · intro here rest written text inFile parsed hasArguments
    obtain ⟨between, closing, split, rfl⟩ := Attribute.arguments_ok parsed hasArguments
    have inHere := List.drop_suffix 3 here
    rw [split] at inHere ⊢
    exact ⟨closing, _, (List.suffix_append _ _).trans inHere,
      read.standsAt_between (inHere.trans inFile), rfl⟩

end SwiftLens
