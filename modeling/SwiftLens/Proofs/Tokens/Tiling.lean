import Mathlib.Data.List.Chain
import SwiftLens.Proofs.Tokens.Gaps
import SwiftLens.Token.Lexer

namespace SwiftLens

namespace Lexeme

theorem punctuation?_kind {c : Char} {kind : Token.Kind} (isMark : punctuation? c = some kind) :
    kind ≠ .newline ∧ kind ≠ .endOfFile := by
  unfold punctuation? at isMark
  split at isMark <;> cases isMark <;> decide

theorem skipNumber_kind (rest : List Char) :
    (skipNumber rest).1 = .float ∨ (skipNumber rest).1 = .integer := by
  unfold skipNumber
  split
  · split
    · exact .inl rfl
    · exact .inr rfl
  · exact .inr rfl

theorem skipMarked_kind {rest after : List Char} {kind : Token.Kind}
    (lexed : skipMarked rest = .ok (kind, after)) : kind = .string ∨ kind = .hash := by
  unfold skipMarked at lexed
  simp only at lexed
  split at lexed
  · split at lexed
    · cases lexed
      exact .inl rfl
    · cases lexed
  · cases lexed
    exact .inr rfl

/-- Line breaks and the end of the file are no lexemes. -/
theorem skip_kind {c : Char} {rest after : List Char} {kind : Token.Kind}
    (lexed : skip c rest = .ok (kind, after)) : kind ≠ .newline ∧ kind ≠ .endOfFile := by
  unfold skip at lexed
  split at lexed
  · next isMark =>
    cases lexed
    exact punctuation?_kind isMark
  split at lexed
  · rcases skipMarked_kind lexed with rfl | rfl <;> decide
  split at lexed
  · cases literal : StringLiteral.skip rest with
    | error failure =>
      rw [literal] at lexed
      cases lexed
    | ok found =>
      rw [literal] at lexed
      cases lexed
      decide
  split at lexed
  · cases name : skipBackticked rest with
    | error failure =>
      rw [name] at lexed
      cases lexed
    | ok found =>
      rw [name] at lexed
      cases lexed
      decide
  split at lexed
  · have number := skipNumber_kind rest
    rw [Except.ok.inj lexed] at number
    rcases number with rfl | rfl <;> decide
  split at lexed
  · cases lexed
    decide
  split at lexed
  · cases lexed
    decide
  split at lexed
  · cases lexed
    decide
  · cases lexed

end Lexeme

namespace Token

/-- Tokens as they are laid down, each after its gap and up to the end of the file. -/
inductive Laid : Bool → List Token → Prop
  | ended {afterToken : Bool} {gap : List Char} (isGap : Trivia.IsGap [] gap) :
      Laid afterToken (withGap afterToken gap .endOfFile [])
  | token {afterToken : Bool} {gap : List Char} {kind : Kind} {text : List Char}
      {more : List Token} (isGap : Trivia.IsGap (text ++ (sourceOf more).toList) gap)
      (spelled : text ≠ []) (noBreak : kind ≠ .newline) (goesOn : kind ≠ .endOfFile)
      (later : Laid true more) : Laid afterToken (withGap afterToken gap kind text ++ more)

theorem laid_of_scan {afterToken : Bool} {source : List Char} {tokens : List Token}
    (scanned : scan afterToken source = .ok tokens) : Laid afterToken tokens := by
  fun_induction scan afterToken source generalizing tokens with
  | case1 => cases scanned
  | case2 afterToken source skipped =>
    cases scanned
    obtain ⟨gap, whole, isGap⟩ := Trivia.gap_of_skip skipped
    rw [List.append_nil] at whole
    subst whole
    exact .ended isGap
  | case3 => cases scanned
  | case4 => cases scanned
  | case5 afterToken source c rest skipped kind after lexed shorter more scannedMore ih =>
    cases scanned
    obtain ⟨gap, rfl, isGap⟩ := Trivia.gap_of_skip skipped
    rw [charsBefore_of_append]
    obtain ⟨tail, rfl⟩ := Lexeme.skip_suffix lexed
    have text : charsBefore (c :: (tail ++ after)) after = c :: tail :=
      charsBefore_of_append (c :: tail) after
    obtain ⟨noBreak, goesOn⟩ := Lexeme.skip_kind lexed
    rw [text]
    apply Laid.token _ (by simp) noBreak goesOn (ih scannedMore)
    rw [sourceOf_scan scannedMore, String.toList_ofList]
    exact isGap

/-- The first token with its gap, whether it is the last one or not. -/
theorem Laid.first {afterToken : Bool} {tokens : List Token} (laid : Laid afterToken tokens) :
    ∃ gap kind text more, tokens = withGap afterToken gap kind text ++ more ∧ kind ≠ .newline ∧
      Trivia.IsGap (text ++ (sourceOf more).toList) gap ∧ (more = [] ∨ Laid true more) := by
  cases laid with
  | @ended afterToken gap isGap =>
    exact ⟨gap, .endOfFile, [], [], by simp, by decide, isGap, .inl rfl⟩
  | @token afterToken gap kind text more isGap spelled noBreak goesOn later =>
    exact ⟨gap, kind, text, more, rfl, noBreak, isGap, .inr later⟩

theorem mem_withGap {afterToken : Bool} {gap : List Char} {kind : Kind} {text : List Char}
    {token : Token} (member : token ∈ withGap afterToken gap kind text) :
    token.kind = .newline ∨ (token.kind = kind ∧ token.text = String.ofList text) := by
  unfold withGap at member
  split at member
  · rcases List.mem_cons.mp member with rfl | member
    · exact .inl rfl
    · rw [List.mem_singleton.mp member]
      exact .inr ⟨rfl, rfl⟩
  · rw [List.mem_singleton.mp member]
    exact .inr ⟨rfl, rfl⟩

theorem Laid.spelled {afterToken : Bool} {tokens : List Token} (laid : Laid afterToken tokens)
    {token : Token} (member : token ∈ tokens) (noBreak : token.kind ≠ .newline)
    (goesOn : token.kind ≠ .endOfFile) : token.text ≠ "" := by
  induction laid with
  | ended isGap =>
    rcases mem_withGap member with isBreak | ⟨isEnd, -⟩
    · exact absurd isBreak noBreak
    · exact absurd isEnd goesOn
  | token isGap spelled _ _ later ih =>
    rcases List.mem_append.mp member with here | member
    · rcases mem_withGap here with isBreak | ⟨-, text⟩
      · exact absurd isBreak noBreak
      · rw [text]
        simpa using spelled
    · exact ih member

theorem Laid.ends {afterToken : Bool} {tokens : List Token} (laid : Laid afterToken tokens) :
    ∃ front gap, tokens = front ++ [⟨.endOfFile, gap, ""⟩] ∧
      ∀ token ∈ front, token.kind ≠ .endOfFile := by
  induction laid with
  | @ended afterToken gap isGap =>
    unfold withGap
    split
    · exact ⟨[⟨.newline, String.ofList gap, ""⟩], "", rfl, by simp⟩
    · exact ⟨[], String.ofList gap, rfl, by simp⟩
  | @token afterToken gap kind text more isGap spelled noBreak goesOn later ih =>
    obtain ⟨front, last, rfl, others⟩ := ih
    refine ⟨withGap afterToken gap kind text ++ front, last, by simp, ?_⟩
    intro token member
    rcases List.mem_append.mp member with here | member
    · rcases mem_withGap here with isBreak | ⟨same, -⟩
      · simp [isBreak]
      · rw [same]
        exact goesOn
    · exact others token member

theorem Laid.breaksApart {afterToken : Bool} {tokens : List Token}
    (laid : Laid afterToken tokens) :
    tokens.IsChain fun left right => left.kind = .newline → right.kind ≠ .newline := by
  induction laid with
  | ended isGap =>
    unfold withGap
    split <;> simp
  | token isGap spelled noBreak goesOn later ih =>
    unfold withGap
    split
    · simp [List.isChain_cons, ih, noBreak]
    · simp [List.isChain_cons, ih, noBreak]

/-- A token is the line break of the first gap, or it closes this gap, or it comes later. -/
theorem withGap_append_cases {afterToken : Bool} {gap text : List Char} {kind : Kind}
    {more front later : List Token} {token : Token}
    (split : withGap afterToken gap kind text ++ more = front ++ token :: later) :
    (token.kind = .newline ∧ token.text = "" ∧ later = ⟨kind, "", String.ofList text⟩ :: more) ∨
      (token.kind = kind ∧ later = more) ∨ ∃ rest, more = rest ++ token :: later := by
  unfold withGap at split
  split at split
  · rcases front with _ | ⟨first, _ | ⟨second, rest⟩⟩
    · obtain ⟨rfl, rfl⟩ := List.cons.inj split
      exact .inl ⟨rfl, rfl, rfl⟩
    · obtain ⟨rfl, rfl⟩ := List.cons.inj (List.cons.inj split).2
      exact .inr (.inl ⟨rfl, rfl⟩)
    · exact .inr (.inr ⟨rest, (List.cons.inj (List.cons.inj split).2).2⟩)
  · rcases front with _ | ⟨first, rest⟩
    · obtain ⟨rfl, rfl⟩ := List.cons.inj split
      exact .inr (.inl ⟨rfl, rfl⟩)
    · exact .inr (.inr ⟨rest, (List.cons.inj split).2⟩)

/-- What follows a token in its line is laid down after it. -/
theorem Laid.after {afterToken : Bool} {tokens front later : List Token} {token : Token}
    (laid : Laid afterToken tokens) (split : tokens = front ++ token :: later)
    (noBreak : token.kind ≠ .newline) (goesOn : later ≠ []) : Laid true later := by
  induction laid generalizing front with
  | ended isGap =>
    rw [← List.append_nil (withGap _ _ _ _)] at split
    rcases withGap_append_cases split with ⟨isBreak, -⟩ | ⟨-, none⟩ | ⟨rest, some⟩
    · exact absurd isBreak noBreak
    · exact absurd none goesOn
    · simp at some
  | token isGap spelled _ _ laid ih =>
    rcases withGap_append_cases split with ⟨isBreak, -⟩ | ⟨-, rfl⟩ | ⟨rest, some⟩
    · exact absurd isBreak noBreak
    · exact laid
    · exact ih some

/-- A line break has no text, and the token after it touches it. -/
theorem Laid.after_break {afterToken : Bool} {tokens front later : List Token} {token : Token}
    (laid : Laid afterToken tokens) (split : tokens = front ++ token :: later)
    (isBreak : token.kind = .newline) :
    token.text = "" ∧ ∃ next more, later = next :: more ∧ next.kind ≠ .newline ∧ next.gap = "" := by
  induction laid generalizing front with
  | ended isGap =>
    rw [← List.append_nil (withGap _ _ _ _)] at split
    rcases withGap_append_cases split with ⟨-, empty, rfl⟩ | ⟨isEnd, -⟩ | ⟨rest, some⟩
    · exact ⟨empty, _, _, rfl, by simp, rfl⟩
    · rw [isBreak] at isEnd
      cases isEnd
    · simp at some
  | token isGap spelled noBreak _ laid ih =>
    rcases withGap_append_cases split with ⟨-, empty, rfl⟩ | ⟨same, -⟩ | ⟨rest, some⟩
    · exact ⟨empty, _, _, rfl, noBreak, rfl⟩
    · exact absurd (same.symm.trans isBreak) noBreak
    · exact ih some

/-- The line breaks between two tokens, of which there is one if their gap has a line feed. -/
theorem Laid.breaks {breaks later : List Token} {right : Token}
    (laid : Laid true (breaks ++ right :: later)) (noBreak : right.kind ≠ .newline)
    (allBreaks : ∀ token ∈ breaks, token.kind = .newline) :
    ∃ gap, String.ofList gap = sourceOf breaks ++ right.gap ∧
      Trivia.IsGap (right.text ++ sourceOf later).toList gap ∧
        (('\n' ∈ gap ∧ right.gap = "" ∧ ∃ token, token.text = "" ∧ breaks = [token]) ∨
          ('\n' ∉ gap ∧ breaks = [])) := by
  obtain ⟨gap, kind, text, more, split, inLine, isGap, -⟩ := laid.first
  unfold withGap at split
  rw [Bool.true_and] at split
  by_cases fed : gap.contains '\n' = true
  · rw [if_pos fed] at split
    rcases breaks with _ | ⟨first, _ | ⟨second, rest⟩⟩
    · obtain ⟨rfl, -⟩ := List.cons.inj split
      exact absurd rfl noBreak
    · obtain ⟨rfl, tail⟩ := List.cons.inj split
      obtain ⟨rfl, rfl⟩ := List.cons.inj tail
      have fedGap : '\n' ∈ gap := by simpa using fed
      exact ⟨gap, by simp [sourceOf, source], by simpa using isGap,
        .inl ⟨fedGap, rfl, _, rfl, rfl⟩⟩
    · obtain ⟨-, tail⟩ := List.cons.inj split
      obtain ⟨rfl, -⟩ := List.cons.inj tail
      have isBreak := allBreaks _ (List.mem_cons_of_mem _ List.mem_cons_self)
      exact absurd isBreak inLine
  · rw [if_neg fed] at split
    rcases breaks with _ | ⟨first, rest⟩
    · obtain ⟨rfl, rfl⟩ := List.cons.inj split
      exact ⟨gap, by simp [sourceOf], by simpa using isGap, .inr ⟨by simpa using fed, rfl⟩⟩
    · obtain ⟨rfl, -⟩ := List.cons.inj split
      exact absurd (allBreaks _ List.mem_cons_self) inLine

theorem spansFrom_append (offset : Nat) (front back : List Token) :
    spansFrom offset (front ++ back) =
      spansFrom offset front ++ spansFrom (offset + (sourceOf front).utf8ByteSize) back := by
  induction front generalizing offset with
  | nil => simp [spansFrom, sourceOf]
  | cons token rest ih =>
    simp only [List.cons_append, spansFrom, sourceOf, source, ih, String.utf8ByteSize_append]
    simp only [Nat.add_assoc]

/-- A span in a list of spans is that of a token in the list of tokens. -/
theorem spansFrom_split {offset : Nat} {tokens : List Token} {front back : List (Token × Nat × Nat)}
    {span : Token × Nat × Nat} (split : spansFrom offset tokens = front ++ span :: back) :
    ∃ before after, tokens = before ++ span.1 :: after ∧ front = spansFrom offset before ∧
      span.2.1 = offset + (sourceOf before).utf8ByteSize + span.1.gap.utf8ByteSize ∧
        span.2.2 = span.2.1 + span.1.text.utf8ByteSize ∧ back = spansFrom span.2.2 after := by
  induction front generalizing offset tokens with
  | nil =>
    cases tokens with
    | nil => cases split
    | cons token rest =>
      obtain ⟨rfl, rfl⟩ := List.cons.inj split
      exact ⟨[], rest, by simp [spansFrom, sourceOf]⟩
  | cons first front ih =>
    cases tokens with
    | nil => cases split
    | cons token rest =>
      obtain ⟨rfl, tail⟩ := List.cons.inj split
      obtain ⟨before, after, rfl, rfl, starts, ends, rfl⟩ := ih tail
      refine ⟨token :: before, after, rfl, rfl, ?_, ends, rfl⟩
      rw [starts, sourceOf, source, String.utf8ByteSize_append, String.utf8ByteSize_append]
      omega

theorem le_of_mem_spansFrom {offset : Nat} {tokens : List Token} {span : Token × Nat × Nat}
    (member : span ∈ spansFrom offset tokens) : offset ≤ span.2.1 := by
  obtain ⟨front, back, split⟩ := List.append_of_mem member
  obtain ⟨before, after, -, -, starts, -⟩ := spansFrom_split split
  omega

theorem spansFrom_ordered (offset : Nat) (tokens : List Token) :
    (spansFrom offset tokens).Pairwise fun left right => left.2.2 ≤ right.2.1 := by
  induction tokens generalizing offset with
  | nil => exact List.Pairwise.nil
  | cons token rest ih => exact List.Pairwise.cons (fun _ member => le_of_mem_spansFrom member) (ih _)

end Token

def StandsAt (source text : String) (first past : Nat) : Prop :=
  ∃ before after, source = before ++ text ++ after ∧ before.utf8ByteSize = first ∧
    first + text.utf8ByteSize = past

def Trivia.GapAt (source gap : String) (first past : Nat) : Prop :=
  ∃ before after, source = before ++ gap ++ after ∧ before.utf8ByteSize = first ∧
    first + gap.utf8ByteSize = past ∧ Trivia.IsGap after.toList gap.toList

namespace Token

/-- How the spans of tokens, each with its first byte and the one past its last, cover a source. -/
structure Tiles (source : String) (tokens : List Token) : Prop where
  standing : ∀ span ∈ spans tokens, StandsAt source span.1.text span.2.1 span.2.2
  ordered : (spans tokens).Pairwise fun left right => left.2.2 ≤ right.2.1
  ending : ∃ front last, spans tokens = front ++ [(last, source.utf8ByteSize, source.utf8ByteSize)] ∧
    last.kind = .endOfFile ∧ ∀ span ∈ front, span.1.kind ≠ .endOfFile
  spelled : ∀ span ∈ spans tokens, span.1.kind ≠ .newline → span.1.kind ≠ .endOfFile →
    span.1.text ≠ ""
  leading : ∀ span later, spans tokens = span :: later →
    span.1.kind ≠ .newline ∧ ∃ gap, Trivia.GapAt source gap 0 span.2.1
  between : ∀ front left breaks right later,
    spans tokens = front ++ left :: (breaks ++ right :: later) →
    left.1.kind ≠ .newline → right.1.kind ≠ .newline →
    (∀ span ∈ breaks, span.1.kind = .newline) →
      ∃ gap, Trivia.GapAt source gap left.2.2 right.2.1 ∧
        (('\n' ∈ gap.toList ∧ ∃ token, breaks = [(token, right.2.1, right.2.1)]) ∨
          ('\n' ∉ gap.toList ∧ breaks = []))
  breaksApart : (spans tokens).IsChain fun left right =>
    left.1.kind = .newline → right.1.kind ≠ .newline

theorem map_fst_spansFrom (offset : Nat) (tokens : List Token) :
    (spansFrom offset tokens).map Prod.fst = tokens := by
  induction tokens generalizing offset with
  | nil => rfl
  | cons token rest ih => rw [spansFrom, List.map_cons, ih]

theorem forall_mem_spansFrom {holds : Token → Prop} (offset : Nat) {tokens : List Token} :
    (∀ span ∈ spansFrom offset tokens, holds span.1) ↔ ∀ token ∈ tokens, holds token := by
  conv_rhs => rw [← map_fst_spansFrom offset tokens]
  rw [List.forall_mem_map]

theorem standsAt_of_mem_spans {tokens : List Token} {span : Token × Nat × Nat}
    (member : span ∈ spans tokens) : StandsAt (sourceOf tokens) span.1.text span.2.1 span.2.2 := by
  obtain ⟨front, back, split⟩ := List.append_of_mem member
  obtain ⟨before, after, rfl, -, starts, ends, -⟩ := spansFrom_split split
  refine ⟨sourceOf before ++ span.1.gap, sourceOf after, ?_, ?_, ends.symm⟩
  · rw [sourceOf_append, sourceOf, source]
    simp only [String.append_assoc]
  · rw [starts, String.utf8ByteSize_append]
    omega

section Laid

variable {tokens : List Token} (laid : Laid false tokens)

include laid

theorem Laid.span_ends : ∃ front last,
    spans tokens =
      front ++ [(last, (sourceOf tokens).utf8ByteSize, (sourceOf tokens).utf8ByteSize)] ∧
      last.kind = .endOfFile ∧ ∀ span ∈ front, span.1.kind ≠ .endOfFile := by
  obtain ⟨front, gap, rfl, others⟩ := laid.ends
  refine ⟨spans front, ⟨.endOfFile, gap, ""⟩, ?_, rfl, ?_⟩
  · have size : (sourceOf (front ++ [⟨.endOfFile, gap, ""⟩])).utf8ByteSize =
        (sourceOf front).utf8ByteSize + gap.utf8ByteSize := by
      simp [sourceOf, source]
    rw [size, spans, spansFrom_append]
    simp [spansFrom, spans]
  · intro span member
    exact (forall_mem_spansFrom 0).mpr others span member

theorem Laid.span_leads {span : Token × Nat × Nat} {later : List (Token × Nat × Nat)}
    (split : spans tokens = span :: later) :
    span.1.kind ≠ .newline ∧ ∃ gap, Trivia.GapAt (sourceOf tokens) gap 0 span.2.1 := by
  obtain ⟨gap, kind, text, more, rfl, noBreak, isGap, -⟩ := laid.first
  obtain ⟨rfl, -⟩ := List.cons.inj split
  refine ⟨noBreak, String.ofList gap, "", String.ofList text ++ sourceOf more, ?_, rfl, ?_, ?_⟩
  · simp [withGap, sourceOf, source, String.append_assoc]
  · simp
  · simpa using isGap

theorem Laid.spans_between {front breaks later : List (Token × Nat × Nat)}
    {left right : Token × Nat × Nat}
    (split : spans tokens = front ++ left :: (breaks ++ right :: later))
    (leftInLine : left.1.kind ≠ .newline) (rightInLine : right.1.kind ≠ .newline)
    (allBreaks : ∀ span ∈ breaks, span.1.kind = .newline) :
    ∃ gap, Trivia.GapAt (sourceOf tokens) gap left.2.2 right.2.1 ∧
      (('\n' ∈ gap.toList ∧ ∃ token, breaks = [(token, right.2.1, right.2.1)]) ∨
        ('\n' ∉ gap.toList ∧ breaks = [])) := by
  obtain ⟨before, after, rfl, -, leftStarts, leftEnds, rest⟩ := spansFrom_split split
  obtain ⟨middle, back, rfl, rfl, starts, -, -⟩ := spansFrom_split rest.symm
  have allBreaksHere : ∀ token ∈ middle, token.kind = .newline :=
    (forall_mem_spansFrom left.2.2).mp allBreaks
  obtain ⟨gap, whole, isGap, fed⟩ :=
    (laid.after rfl leftInLine (by simp)).breaks rightInLine allBreaksHere
  refine ⟨String.ofList gap, ⟨sourceOf before ++ left.1.source, right.1.text ++ sourceOf back,
    ?_, ?_, ?_, by simpa using isGap⟩, ?_⟩
  · rw [whole]
    simp [sourceOf, source, String.append_assoc]
  · rw [leftEnds, leftStarts, source]
    simp only [String.utf8ByteSize_append]
    omega
  · rw [whole, starts, String.utf8ByteSize_append]
    omega
  · rw [String.toList_ofList]
    rcases fed with ⟨fed, touching, token, empty, rfl⟩ | ⟨unfed, rfl⟩
    · refine .inl ⟨fed, token, ?_⟩
      have place : right.2.1 = left.2.2 + token.gap.utf8ByteSize := by
        rw [starts, touching]
        simp [sourceOf, source, empty]
      rw [place]
      simp [spansFrom, empty]
    · exact .inr ⟨unfed, rfl⟩

end Laid
end Token

/-- The tokens of a source tile it, with gaps between them. -/
theorem tokenize_tiles {source : String} {tokens : List Token}
    (read : tokenize source = .ok tokens) : Token.Tiles source tokens := by
  have scanned := tokenize_ok read
  have laid := Token.laid_of_scan scanned
  have whole : source = Token.sourceOf tokens := by
    rw [Token.sourceOf_scan scanned, String.ofList_toList]
  subst whole
  constructor
  · exact fun span member => Token.standsAt_of_mem_spans member
  · exact Token.spansFrom_ordered 0 tokens
  · exact laid.span_ends
  · exact (Token.forall_mem_spansFrom 0).mpr fun token => laid.spelled
  · exact fun span later => laid.span_leads
  · exact fun front left breaks right later => laid.spans_between
  · have apart := laid.breaksApart
    rw [← Token.map_fst_spansFrom 0 tokens] at apart
    exact (List.isChain_map Prod.fst).mp apart

/-- Two words with a comment that breaks the line between them, and a comment after them. -/
theorem tokenize_tiles_words :
    tokenize "a/*\n*/é//x" =
        .ok [⟨.identifier, "", "a"⟩, ⟨.newline, "/*\n*/", ""⟩, ⟨.identifier, "", "é"⟩,
          ⟨.endOfFile, "//x", ""⟩] ∧
      Token.Tiles "a/*\n*/é//x" [⟨.identifier, "", "a"⟩, ⟨.newline, "/*\n*/", ""⟩,
        ⟨.identifier, "", "é"⟩, ⟨.endOfFile, "//x", ""⟩] := by
  have read : tokenize "a/*\n*/é//x" =
      .ok [⟨.identifier, "", "a"⟩, ⟨.newline, "/*\n*/", ""⟩, ⟨.identifier, "", "é"⟩,
        ⟨.endOfFile, "//x", ""⟩] := by decide +kernel
  exact ⟨read, tokenize_tiles read⟩

end SwiftLens
