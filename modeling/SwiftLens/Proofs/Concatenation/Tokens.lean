import SwiftLens.Proofs.Concatenation.Joined
import SwiftLens.Proofs.Tokens.Literals
import SwiftLens.Token.Lexer

namespace SwiftLens

theorem dropWhile_append_stop {α : Type} {passes : α → Bool} {stop : α} (stops : passes stop = false)
    (front after : List α) :
    (front ++ stop :: after).dropWhile passes = front.dropWhile passes ++ stop :: after := by
  rw [List.dropWhile_append]
  split
  · next ended => simp [stops, List.isEmpty_iff.mp ended]
  · rfl

theorem takeWhile_append_stop {α : Type} {passes : α → Bool} {stop : α} (stops : passes stop = false)
    (front after : List α) :
    (front ++ stop :: after).takeWhile passes = front.takeWhile passes := by
  induction front with
  | nil => simp [stops]
  | cons first rest ih => simp [List.takeWhile_cons, ih]

/-- The line feed is not taken for another character that a source does not go on with. -/
theorem no_cons_join {source later : List Char} {c : Char} (notFeed : c ≠ '\n')
    (absent : ∀ rest, source = c :: rest → False) (rest : List Char) :
    source ++ '\n' :: later = c :: rest → False := by
  intro same
  cases source with
  | nil =>
    cases same
    exact notFeed rfl
  | cons first tail =>
    cases same
    exact absent tail rfl

theorem no_cons_cons_join {source later : List Char} {c : Char} (notFeed : c ≠ '\n')
    (absent : ∀ rest, source = c :: c :: rest → False) (rest : List Char) :
    source ++ '\n' :: later = c :: c :: rest → False := by
  intro same
  cases source with
  | nil =>
    cases same
    exact notFeed rfl
  | cons first tail =>
    rw [List.cons_append, List.cons.injEq] at same
    refine no_cons_join notFeed ?_ rest same.2
    intro more isSecond
    exact absent more (by rw [same.1, isSecond])

namespace Trivia

def State.followedBy (tail : List Char) : State → State
  | .blank => .blank
  | .lineComment => .lineComment
  | .blockComment enclosing opening => .blockComment enclosing (opening ++ tail)

/-- Trivia that end before the first source does end there in the joined source, and else they go
on in the second source. -/
theorem skipFrom_join {state : State} {source rest : List Char} (later : List Char)
    (skipped : skipFrom state source = .ok rest) :
    skipFrom (state.followedBy ('\n' :: later)) (source ++ '\n' :: later) =
      if rest = [] then skip later else .ok (rest ++ '\n' :: later) := by
  fun_induction skipFrom state source with
  | case1 =>
    cases skipped
    rfl
  | case2 tail ih => exact ih skipped
  | case3 tail ih => exact ih skipped
  | case4 c tail noLine noBlock blank ih =>
    rw [List.cons_append, State.followedBy, skipFrom.eq_4 c _
      (fun rest isSlash => no_cons_join (by decide) (fun rest => noLine rest isSlash) rest)
      (fun rest isSlash => no_cons_join (by decide) (fun rest => noBlock rest isSlash) rest),
      if_pos blank]
    exact ih skipped
  | case5 c tail noLine noBlock visible =>
    cases skipped
    rw [List.cons_append, State.followedBy, skipFrom.eq_4 c _
      (fun rest isSlash => no_cons_join (by decide) (fun rest => noLine rest isSlash) rest)
      (fun rest isSlash => no_cons_join (by decide) (fun rest => noBlock rest isSlash) rest),
      if_neg visible]
    rfl
  | case6 =>
    cases skipped
    rfl
  | case7 c tail ih =>
    have same := ih skipped
    rw [List.cons_append, State.followedBy, skipFrom]
    by_cases feeds : c = '\n'
    · rw [if_pos feeds] at same ⊢
      exact same
    · rw [if_neg feeds] at same ⊢
      exact same
  | case8 => cases skipped
  | case9 _ _ tail ih => exact ih skipped
  | case10 _ tail ih => exact ih skipped
  | case11 _ _ tail ih => exact ih skipped
  | case12 enclosing opening c tail noOpening noEnd noInnerEnd ih =>
    rw [List.cons_append, State.followedBy, skipFrom.eq_11 enclosing _ c _
      (fun rest isSlash => no_cons_join (by decide) (fun rest => noOpening rest isSlash) rest)
      (fun rest outermost isStar =>
        no_cons_join (by decide) (fun rest => noEnd rest outermost isStar) rest)
      (fun inner rest nested isStar =>
        no_cons_join (by decide) (fun rest => noInnerEnd inner rest nested isStar) rest)]
    exact ih skipped

theorem skip_join {source rest : List Char} (later : List Char)
    (skipped : skip source = .ok rest) :
    skip (source ++ '\n' :: later) =
      if rest = [] then skip later else .ok (rest ++ '\n' :: later) :=
  skipFrom_join later skipped

end Trivia

namespace StringLiteral

def Frame.followedBy (tail : List Char) (frame : Frame) : Frame :=
  ⟨frame.context, frame.opening ++ tail⟩

theorem skipPlain_join {frames : List Frame} {source rest : List Char} (later : List Char)
    (skipped : skipPlain frames source = .ok rest) :
    skipPlain (frames.map (Frame.followedBy ('\n' :: later))) (source ++ '\n' :: later) =
      .ok (rest ++ '\n' :: later) := by
  obtain ⟨text, rfl, closes⟩ := skipPlain_anywhere skipped
  have same : (frames.map (Frame.followedBy ('\n' :: later))).map Frame.context =
      frames.map Frame.context := by
    simp [Frame.followedBy]
  rw [List.append_assoc]
  exact closes.drops _ same _

theorem skipRawLine_join {marks : Nat} {source rest : List Char} (later : List Char)
    (skipped : skipRawLine marks source = some rest) :
    skipRawLine marks (source ++ '\n' :: later) = some (rest ++ '\n' :: later) := by
  obtain ⟨text, rfl, closes⟩ := skipRawLine_anywhere skipped
  rw [List.append_assoc]
  exact closes.drops _

theorem skipRawBlock_join {marks : Nat} {source rest : List Char} (later : List Char)
    (skipped : skipRawBlock marks source = some rest) :
    skipRawBlock marks (source ++ '\n' :: later) = some (rest ++ '\n' :: later) := by
  obtain ⟨text, rfl, -, closes⟩ := skipRawBlock_anywhere skipped
  rw [List.append_assoc]
  exact closes.drops _

theorem skip_join {afterQuote rest : List Char} (later : List Char)
    (skipped : skip afterQuote = .ok rest) :
    skip (afterQuote ++ '\n' :: later) = .ok (rest ++ '\n' :: later) := by
  unfold skip at skipped
  split at skipped
  · exact skipPlain_join later skipped
  · next noBlock =>
    rw [skip.eq_2 _ (no_cons_cons_join (by decide) noBlock)]
    exact skipPlain_join later skipped

theorem skipRaw_join {marks : Nat} {afterQuote rest : List Char} (later : List Char)
    (skipped : skipRaw marks afterQuote = some rest) :
    skipRaw marks (afterQuote ++ '\n' :: later) = some (rest ++ '\n' :: later) := by
  unfold skipRaw at skipped
  split at skipped
  · exact skipRawBlock_join later skipped
  · next noBlock =>
    rw [skipRaw.eq_2 _ _ (no_cons_cons_join (by decide) noBlock)]
    exact skipRawLine_join later skipped

end StringLiteral

namespace Lexeme

theorem skipNumber_join (rest later : List Char) :
    skipNumber (rest ++ '\n' :: later) =
      ((skipNumber rest).1, (skipNumber rest).2 ++ '\n' :: later) := by
  unfold skipNumber
  rw [dropWhile_append_stop (by decide)]
  generalize rest.dropWhile continuesNumber = dropped
  match dropped with
  | [] => rfl
  | [c] =>
    by_cases isDot : c = '.'
    · subst isDot
      rfl
    · simp [isDot]
  | c :: d :: fraction =>
    by_cases isDot : c = '.'
    · subst isDot
      simp only [List.cons_append]
      split
      · rw [dropWhile_append_stop (by decide)]
      · rfl
    · simp [isDot]

theorem skipBackticked_join {rest after : List Char} (later : List Char)
    (skipped : skipBackticked rest = .ok after) :
    skipBackticked (rest ++ '\n' :: later) = .ok (after ++ '\n' :: later) := by
  unfold skipBackticked at skipped ⊢
  rw [dropWhile_append_stop (by decide)]
  split at skipped
  · next tail closed =>
    cases skipped
    rw [closed]
    rfl
  · cases skipped

theorem skipMarked_join {rest after : List Char} {kind : Token.Kind} (later : List Char)
    (skipped : skipMarked rest = .ok (kind, after)) :
    skipMarked (rest ++ '\n' :: later) = .ok (kind, after ++ '\n' :: later) := by
  unfold skipMarked at skipped ⊢
  rw [dropWhile_append_stop (by decide), takeWhile_append_stop (by decide)]
  dsimp only at skipped ⊢
  split at skipped
  · next afterQuote quoted =>
    rw [quoted]
    split at skipped
    · next found =>
      cases skipped
      simp only [List.cons_append, StringLiteral.skipRaw_join later found]
    · cases skipped
  · next other noQuote =>
    cases skipped
    split
    · next afterQuote quoted =>
      exact (no_cons_join (by decide) (fun tail => noQuote tail) afterQuote quoted).elim
    · rfl

/-- A token of the first source is the same token in the joined source. -/
theorem skip_join {c : Char} {rest after : List Char} {kind : Token.Kind} (later : List Char)
    (skipped : skip c rest = .ok (kind, after)) :
    skip c (rest ++ '\n' :: later) = .ok (kind, after ++ '\n' :: later) := by
  -- One case for each branch of `skip`, in its order.
  unfold skip at skipped ⊢
  split at skipped
  · cases skipped
    rfl
  · by_cases isMark : c = '#'
    · rw [if_pos isMark] at skipped ⊢
      exact skipMarked_join later skipped
    rw [if_neg isMark] at skipped ⊢
    by_cases isQuote : c = '"'
    · rw [if_pos isQuote] at skipped ⊢
      cases literal : StringLiteral.skip rest with
      | error failure => simp [literal, Except.map] at skipped
      | ok found =>
        simp only [literal, Except.map, Except.ok.injEq, Prod.mk.injEq] at skipped
        simp [StringLiteral.skip_join later literal, Except.map, skipped]
    rw [if_neg isQuote] at skipped ⊢
    by_cases isTick : c = '\x60'
    · rw [if_pos isTick] at skipped ⊢
      cases name : skipBackticked rest with
      | error failure => simp [name, Except.map] at skipped
      | ok found =>
        simp only [name, Except.map, Except.ok.injEq, Prod.mk.injEq] at skipped
        simp [skipBackticked_join later name, Except.map, skipped]
    rw [if_neg isTick] at skipped ⊢
    by_cases isDigit : c.isDigit = true
    · rw [if_pos isDigit] at skipped ⊢
      rw [skipNumber_join, Except.ok.inj skipped]
    rw [if_neg isDigit] at skipped ⊢
    by_cases starts : startsIdentifier c = true
    · rw [if_pos starts] at skipped ⊢
      cases skipped
      rw [dropWhile_append_stop continuesIdentifier_feed]
    rw [if_neg starts] at skipped ⊢
    have sameArrow : ((rest ++ '\n' :: later).head? == some '>') = (rest.head? == some '>') := by
      cases rest with
      | nil => rfl
      | cons first tail => rfl
    rw [sameArrow]
    by_cases isArrow : (decide (c = '-') && rest.head? == some '>') = true
    · rw [if_pos isArrow] at skipped ⊢
      cases skipped
      cases rest with
      | nil => simp at isArrow
      | cons first tail => rfl
    rw [if_neg isArrow] at skipped ⊢
    by_cases operates : isOperator c = true
    · rw [if_pos operates] at skipped ⊢
      cases skipped
      rfl
    · rw [if_neg operates] at skipped
      cases skipped

end Lexeme

theorem charsBefore_join {source rest : List Char} (tail : rest <:+ source) (later : List Char) :
    charsBefore (source ++ later) (rest ++ later) = charsBefore source rest := by
  obtain ⟨front, rfl⟩ := tail
  simp [charsBefore]

theorem Joined.append {later tokens others : List Token} (front : List Token)
    (joined : Joined later tokens others) : Joined later (front ++ tokens) (front ++ others) := by
  induction front with
  | nil => exact joined
  | cons token rest ih => exact .cons token ih

namespace Token

def regapped (gap : String) (token : Token) : Token :=
  ⟨token.kind, gap, token.text⟩

/-- Behind the last token of a first source, the second one is read after a line break. -/
theorem scan_join_end {source later : List Char} {first : Token} {more : List Token}
    (skipped : Trivia.skip source = .ok []) (scanned : scan false later = .ok (first :: more))
    (afterToken : Bool) :
    ∃ gap : List Char, '\n' ∈ gap ∧ scan afterToken (source ++ '\n' :: later) =
      .ok (withGap afterToken gap first.kind first.text.toList ++ more) := by
  have skips := Trivia.skip_join later skipped
  rw [if_pos rfl] at skips
  rcases scan_cases scanned with ⟨ended, same⟩ | ⟨c, rest, kind, after, tokens, found, lexed, read, same⟩
  · cases same
    rw [ended] at skips
    refine ⟨source ++ '\n' :: later, by simp, ?_⟩
    rw [scan_of_end skips]
    simp
  · cases same
    rw [found] at skips
    obtain ⟨front, rfl⟩ := Trivia.skip_suffix found
    refine ⟨source ++ '\n' :: front, by simp, ?_⟩
    have gap : charsBefore (source ++ '\n' :: (front ++ c :: rest)) (c :: rest) =
        source ++ '\n' :: front := by
      rw [← List.cons_append, ← List.append_assoc, charsBefore_of_append]
    rw [scan_of_token skips lexed read, gap, String.toList_ofList]
    rfl

/-- The tokens of joined sources. If the first source has none, the second one keeps its own but
for the gap before the first of them. -/
theorem scan_join {afterToken : Bool} {source later : List Char} {tokens more : List Token}
    {first : Token} (scanned : scan afterToken source = .ok tokens)
    (scannedLater : scan false later = .ok (first :: more)) :
    (afterToken = false ∧ tokens.dropLast = [] ∧
      ∃ gap, scan false (source ++ '\n' :: later) = .ok (first.regapped gap :: more)) ∨
      ∃ others, scan afterToken (source ++ '\n' :: later) = .ok others ∧
        Joined (first.regapped "" :: more).dropLast tokens.dropLast others.dropLast := by
  induction length : source.length using Nat.strongRecOn generalizing afterToken source tokens with
  | ind size ih =>
    rcases scan_cases scanned with
      ⟨ended, rfl⟩ | ⟨c, rest, kind, after, tail, found, lexed, read, rfl⟩
    · obtain ⟨gap, fed, joined⟩ := scan_join_end ended scannedLater afterToken
      cases afterToken with
      | false =>
        left
        refine ⟨rfl, rfl, String.ofList gap, ?_⟩
        rw [joined]
        simp [withGap, regapped]
      | true =>
        right
        refine ⟨_, joined, ?_⟩
        have broken : withGap true gap first.kind first.text.toList =
            [⟨.newline, String.ofList gap, ""⟩, first.regapped ""] := by
          simp [withGap, regapped, fed]
        rw [broken]
        unfold withGap
        split
        · exact .endedLine rfl rfl
        · exact .ended rfl
    · have shorter := rest_shorter found lexed
      rcases ih after.length (by omega) read rfl with ⟨isFirst, -⟩ | ⟨others, readJoined, joined⟩
      · cases isFirst
      · right
        have skips := Trivia.skip_join later found
        rw [if_neg (by simp), List.cons_append] at skips
        have lexes := Lexeme.skip_join later lexed
        refine ⟨_, scan_of_token skips lexes readJoined afterToken, ?_⟩
        rw [← List.cons_append, charsBefore_join (Trivia.skip_suffix found),
          charsBefore_join ((Lexeme.skip_suffix lexed).trans (List.suffix_cons _ _)),
          List.dropLast_append_of_ne_nil (scan_ne_nil read),
          List.dropLast_append_of_ne_nil (scan_ne_nil readJoined)]
        exact joined.append _

end Token
end SwiftLens
