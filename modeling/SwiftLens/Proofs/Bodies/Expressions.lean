import SwiftLens.Proofs.Bodies.Groups

namespace SwiftLens

open SwiftLens.Parser

namespace Token

def operatorKinds : List Kind :=
  [.dot, .operator, .equal, .question, .ampersand, .less, .greater, .arrow]

def delimiterKinds : List Kind :=
  [.leftParen, .rightParen, .leftBracket, .rightBracket, .leftBrace, .rightBrace, .comma,
    .semicolon, .newline, .endOfFile]

def groupKinds : List Kind :=
  [.leftParen, .leftBracket, .leftBrace]

end Token

/-- The tokens of an expression before `following`: tokens that stand for themselves, groups that
are no blocks of observers, and line breaks before an operator. -/
inductive ExpressionTokens (following : List Token) : List Token → Prop
  | nil : ExpressionTokens following []
  | plain {token : Token} {rest : List Token} (stands : token.kind ∉ Token.delimiterKinds)
      (more : ExpressionTokens following rest) : ExpressionTokens following (token :: rest)
  | group {opening closing : Token} {inside rest : List Token}
      (opens : opening.kind ∈ Token.groupKinds) (balanced : Token.Balanced opening.kind inside)
      (closes : closing.kind = opening.kind.closing)
      (noObservers : Token.opensObservers
        (opening :: (inside ++ closing :: (rest ++ following))) = false)
      (more : ExpressionTokens following rest) :
      ExpressionTokens following (opening :: (inside ++ closing :: rest))
  | continued {line next : Token} {rest : List Token} (isBreak : line.kind = .newline)
      (goesOn : next.kind ∈ Token.operatorKinds)
      (more : ExpressionTokens following (next :: rest)) :
      ExpressionTokens following (line :: next :: rest)

namespace Parser

theorem opensGroup_eq (token : Token) (rest : List Token) :
    opensGroup token rest =
      (decide (token.kind ∈ Token.groupKinds) && !Token.opensObservers (token :: rest)) := by
  unfold opensGroup Token.groupKinds
  split
  · next kind => simp [kind, Token.opensObservers, Token.afterNewlines, Token.isNewline]
  · next kind => simp [kind, Token.opensObservers, Token.afterNewlines, Token.isNewline]
  · next kind => simp [kind]
  · next noParen noBracket noBrace =>
    have other : ¬(token.kind ∈ [Token.Kind.leftParen, .leftBracket, .leftBrace]) := by
      simpa using ⟨noParen, noBracket, noBrace⟩
    rw [decide_eq_false other, Bool.false_and]

/-- A token that opens no group is taken alone or ends the expression. -/
theorem expressionPiece_of_alone {token : Token} {rest : List Token}
    (opensNone : opensGroup token rest = false) :
    expressionPiece (token :: rest) =
      if inExpression token rest then .ok ([token], rest) else .ok ([], token :: rest) := by
  have ungrouped : takeIf opensGroup (token :: rest) = .ok (none, token :: rest) := by
    rw [takeIf_cons, if_neg (by simp [opensNone])]
  rw [expressionPiece, bind_of_ok ungrouped]
  by_cases taken : inExpression token rest = true
  · have single : takeIf inExpression (token :: rest) = .ok (some token, rest) := by
      rw [takeIf_cons, if_pos taken]
    rw [if_pos taken]
    exact bind_of_ok single
  · have left : takeIf inExpression (token :: rest) = .ok (none, token :: rest) := by
      rw [takeIf_cons, if_neg taken]
    rw [if_neg taken]
    exact bind_of_ok left

theorem expressionPiece_plain {token : Token} (stands : token.kind ∉ Token.delimiterKinds)
    (rest : List Token) : expressionPiece (token :: rest) = .ok ([token], rest) := by
  have opensNone : opensGroup token rest = false := by
    have other : token.kind ∉ Token.groupKinds := by
      intro member
      refine stands ((?_ : Token.groupKinds ⊆ Token.delimiterKinds) member)
      decide
    simp [opensGroup_eq, other]
  have taken : inExpression token rest = true := by
    simp only [Token.delimiterKinds, List.mem_cons, List.not_mem_nil, or_false, not_or] at stands
    unfold inExpression
    split <;> simp_all
  rw [expressionPiece_of_alone opensNone, if_pos taken]

theorem expressionPiece_break {line : Token} (isBreak : line.kind = .newline) (rest : List Token) :
    expressionPiece (line :: rest) =
      if continuesExpression rest then .ok ([line], rest) else .ok ([], line :: rest) := by
  have opensNone : opensGroup line rest = false := by
    simp [opensGroup_eq, isBreak, Token.groupKinds]
  have goesOn : inExpression line rest = continuesExpression rest := by
    simp [inExpression, isBreak]
  rw [expressionPiece_of_alone opensNone, goesOn]

theorem expressionPiece_ended {token : Token}
    (ends : token.kind ∈ [Token.Kind.comma, .semicolon, .rightParen, .rightBracket, .rightBrace])
    (rest : List Token) : expressionPiece (token :: rest) = .ok ([], token :: rest) := by
  have opensNone : opensGroup token rest = false := by
    have other : token.kind ∉ Token.groupKinds := by
      intro member
      revert ends
      generalize token.kind = kind at member ⊢
      revert kind
      decide
    simp [opensGroup_eq, other]
  have left : inExpression token rest = false := by
    simp only [List.mem_cons, List.not_mem_nil, or_false] at ends
    rcases ends with kind | kind | kind | kind | kind <;> simp [inExpression, kind]
  rw [expressionPiece_of_alone opensNone, if_neg (by simp [left])]

theorem expressionPiece_group {opening closing : Token} {inside rest : List Token}
    (opens : opening.kind ∈ Token.groupKinds) (balanced : Token.Balanced opening.kind inside)
    (closes : closing.kind = opening.kind.closing)
    (noObservers : Token.opensObservers (opening :: (inside ++ closing :: rest)) = false) :
    expressionPiece (opening :: (inside ++ closing :: rest)) =
      .ok (opening :: (inside ++ [closing]), rest) := by
  have isGroup : opensGroup opening (inside ++ closing :: rest) = true := by
    rw [opensGroup_eq, noObservers, decide_eq_true opens]
    rfl
  have paired : opening.kind ≠ opening.kind.closing := by
    revert opens
    generalize opening.kind = kind
    revert kind
    decide
  have taken : takeIf opensGroup (opening :: (inside ++ closing :: rest)) =
      .ok (some opening, inside ++ closing :: rest) := by
    rw [takeIf_cons, if_pos isGroup]
  rw [expressionPiece, bind_of_ok taken]
  exact bind_of_ok (closeGroup_balanced paired balanced closes rest)

theorem continuesExpression_of_operator {next : Token} (goesOn : next.kind ∈ Token.operatorKinds)
    (rest : List Token) : continuesExpression (next :: rest) = true := by
  simp only [Token.operatorKinds, List.mem_cons, List.not_mem_nil, or_false] at goesOn
  rcases goesOn with kind | kind | kind | kind | kind | kind | kind | kind <;>
    simp [continuesExpression, Token.afterNewlines, Token.isNewline, Token.kindAt, kind]

/-- What an expression does with its first piece. -/
theorem expressionTokens_steps : ∃ step, expressionTokens = fix step ∧ ∀ more tokens rest,
    (expressionPiece tokens = .ok ([], rest) → step more tokens = .ok ([], rest)) ∧
      ∀ first piece, expressionPiece tokens = .ok (first :: piece, rest) →
        ∀ later remains, more rest = .ok (later, remains) →
          step more tokens = .ok (first :: piece ++ later, remains) := by
  refine ⟨_, rfl, fun more tokens rest => ⟨fun ended => bind_of_ok ended, ?_⟩⟩
  intro first piece taken later remains goesOn
  rw [bind_of_ok taken, if_neg (by simp), bind_of_ok goesOn]
  rfl

/-- The tokens of an expression are taken up to what ends it. -/
theorem expressionTokens_append {body rest : List Token} (isExpression : ExpressionTokens rest body)
    (ends : expressionPiece rest = .ok ([], rest)) :
    expressionTokens (body ++ rest) = .ok (body, rest) := by
  obtain ⟨step, isFix, steps⟩ := expressionTokens_steps
  -- Each step takes a token at least, so the length of the body bounds the depth.
  have within : ∀ depth, body.length < depth →
      fixWithin step depth (body ++ rest) = .ok (body, rest) := by
    induction isExpression with
    | nil =>
      intro depth enough
      obtain _ | depth := depth
      · simp at enough
      exact (steps _ _ _).1 ends
    | @plain token others stands more ih =>
      intro depth enough
      obtain _ | depth := depth
      · simp at enough
      have later := ih depth (by simpa using enough)
      exact (steps _ _ _).2 _ _ (expressionPiece_plain stands (others ++ rest)) _ _ later
    | @group opening closing inside others opens balanced closes noObservers more ih =>
      intro depth enough
      obtain _ | depth := depth
      · simp at enough
      have shorter : others.length < depth := by
        simp only [List.length_cons, List.length_append] at enough
        omega
      have first := expressionPiece_group opens balanced closes noObservers
      have read := (steps (fixWithin step depth) _ _).2 _ _ first _ _ (ih depth shorter)
      rw [fixWithin_succ]
      simpa using read
    | @continued line next others isBreak goesOn more ih =>
      intro depth enough
      obtain _ | depth := depth
      · simp at enough
      have later := ih depth (by simpa using enough)
      have first : expressionPiece (line :: (next :: others ++ rest)) =
          .ok ([line], next :: others ++ rest) := by
        rw [expressionPiece_break isBreak, List.cons_append,
          if_pos (continuesExpression_of_operator goesOn _)]
      exact (steps _ _ _).2 _ _ first _ _ later
  rw [isFix]
  apply within
  rw [List.length_append]
  omega

theorem initializer?_append {gap : String} {body rest : List Token} (filled : body ≠ [])
    (isExpression : ExpressionTokens rest body)
    (ends : expressionPiece rest = .ok ([], rest)) :
    initializer? (⟨.equal, gap, "="⟩ :: (body ++ rest)) = .ok (some (Token.slice body), rest) := by
  have read : expression (body ++ rest) = .ok (Token.slice body, rest) := by
    rw [expression, bind_of_ok (expressionTokens_append isExpression ends),
      if_neg (by simpa using filled)]
    rfl
  rw [initializer?, bind_of_ok (accept_mark _ _ _ _), if_pos rfl, bind_of_ok read]
  rfl

end Parser

namespace Token

/-- What is seen of a block before tokens that begin no observers is seen of it alone. -/
theorem beginsWithObserver_append {following : List Token}
    (quiet : beginsWithObserver following = false)
    (quietBehind : beginsWithObserver following.tail = false) (front : List Token) :
    beginsWithObserver (front ++ following) = beginsWithObserver front := by
  fun_induction beginsWithObserver front with
  | case1 => exact quiet
  | case2 token rest isBreak ih =>
    rw [List.cons_append, beginsWithObserver_newline isBreak, ih]
  | case3 token noBreak isAt =>
    cases following with
    | nil => simp [beginsWithObserver, isAt]
    | cons first others =>
      rw [List.singleton_append, beginsWithObserver_at isAt]
      exact quietBehind
  | case4 token noBreak isAt skipped rest ih =>
    rw [List.cons_append, List.cons_append, beginsWithObserver_at isAt, ih]
  | case5 token rest noBreak notAt =>
    rw [List.cons_append, beginsWithObserver_other noBreak notAt]

theorem opensObservers_append {following : List Token}
    (quiet : beginsWithObserver following = false)
    (quietBehind : beginsWithObserver following.tail = false) {opening : Token}
    (inLine : opening.kind ≠ .newline) (rest : List Token) :
    opensObservers (opening :: (rest ++ following)) = opensObservers (opening :: rest) := by
  simp [opensObservers, afterNewlines, isNewline, inLine,
    beginsWithObserver_append quiet quietBehind]

end Token

namespace ExpressionTokens

variable {following body : List Token}

/-- An expression stays one before tokens that begin no observers. -/
theorem before (isExpression : ExpressionTokens [] body)
    (quiet : Token.beginsWithObserver following = false)
    (quietBehind : Token.beginsWithObserver following.tail = false) :
    ExpressionTokens following body := by
  induction isExpression with
  | nil => exact .nil
  | plain stands more ih => exact .plain stands ih
  | @group opening closing inside rest opens balanced closes noObservers more ih =>
    refine .group opens balanced closes ?_ ih
    have inLine : opening.kind ≠ .newline := by
      intro isBreak
      rw [isBreak] at opens
      exact absurd opens (by decide)
    have regrouped : inside ++ closing :: (rest ++ following) =
        (inside ++ closing :: (rest ++ [])) ++ following := by
      simp
    rw [regrouped, Token.opensObservers_append quiet quietBehind inLine, noObservers]
  | continued isBreak goesOn more ih => exact .continued isBreak goesOn ih

/-- An expression does not end with a line break. -/
theorem ends_inLine (isExpression : ExpressionTokens following body) {last : Token}
    (isLast : body.getLast? = some last) : last.kind ≠ .newline := by
  induction isExpression with
  | nil => cases isLast
  | @plain token rest stands more ih =>
    cases rest with
    | nil =>
      obtain rfl : token = last := by simpa using isLast
      intro isBreak
      rw [isBreak] at stands
      exact absurd stands (by decide)
    | cons next others => exact ih (by rwa [List.getLast?_cons_cons] at isLast)
  | @group opening closing inside rest opens balanced closes noObservers more ih =>
    cases rest with
    | nil =>
      rw [← List.cons_append, List.getLast?_concat] at isLast
      obtain rfl : closing = last := by simpa using isLast
      rw [closes]
      revert opens
      generalize opening.kind = kind
      revert kind
      decide
    | cons next others =>
      rw [← List.cons_append, List.getLast?_append, List.getLast?_cons_cons,
        List.getLast?_eq_some_getLast (List.cons_ne_nil next others), Option.some_or] at isLast
      exact ih (by rw [List.getLast?_eq_some_getLast (List.cons_ne_nil next others), isLast])
  | continued isBreak goesOn more ih => exact ih (by rwa [List.getLast?_cons_cons] at isLast)

end ExpressionTokens
end SwiftLens
