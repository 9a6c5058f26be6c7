import SwiftLens.Proofs.Concatenation.Joined

namespace SwiftLens

open SwiftLens.Parser

variable {later : List Token}

theorem Token.splitGroup_joined {opening closing : Kind} (openingInLine : opening ≠ .newline)
    (closingInLine : closing ≠ .newline) {depth : Nat} {tokens others group rest : List Token}
    (joined : Joined later tokens others)
    (closed : splitGroup opening closing depth tokens = some (group, rest)) :
    ∃ remains, splitGroup opening closing depth others = some (group, remains) ∧
      Joined later rest remains := by
  induction joined generalizing depth group rest with
  | ended isBreak => cases closed
  | endedLine lastBreak isBreak =>
    simp [splitGroup, lastBreak, openingInLine.symm, closingInLine.symm] at closed
  | @cons token tokens others joined ih =>
    -- Every step but the last one passes the group on from a shorter list.
    have passed : ∀ {deeper : Nat} {inside after : List Token},
        (splitGroup opening closing deeper tokens).map (fun found => (token :: found.1, found.2)) =
          some (inside, after) →
        ∃ remains, (splitGroup opening closing deeper others).map
            (fun found => (token :: found.1, found.2)) = some (inside, remains) ∧
          Joined later after remains := by
      intro deeper inside after found
      obtain ⟨⟨shorter, left⟩, split, same⟩ := Option.map_eq_some_iff.mp found
      cases same
      obtain ⟨remains, image, joined⟩ := ih split
      exact ⟨remains, by rw [image]; rfl, joined⟩
    simp only [splitGroup] at closed ⊢
    by_cases opens : token.kind = opening
    · rw [if_pos opens] at closed ⊢
      exact passed closed
    · rw [if_neg opens] at closed ⊢
      by_cases closes : token.kind = closing
      · rw [if_pos closes] at closed ⊢
        cases depth with
        | zero =>
          cases closed
          exact ⟨others, rfl, joined⟩
        | succ depth => exact passed closed
      · rw [if_neg closes] at closed ⊢
        exact passed closed

theorem continues_closeGroup {opening : Token.Kind} (inLine : opening ≠ .newline)
    (closingInLine : opening.closing ≠ .newline) :
    Continues later (closeGroup opening) (closeGroup opening) := by
  constructor
  intro tokens others group rest joined parsed
  unfold closeGroup at parsed ⊢
  split at parsed
  · next found after closed =>
    cases parsed
    obtain ⟨remains, image, joined⟩ := Token.splitGroup_joined inLine closingInLine joined closed
    rw [image]
    exact ⟨_, _, rfl, rfl, joined⟩
  · cases parsed

theorem continues_block : Continues later block block := by
  refine simulates_bind_eq (continues_expect (by decide) _) fun _ => ?_
  refine simulates_bind_eq (continues_closeGroup (by decide) (by decide)) fun _ => ?_
  exact simulates_pure rfl

theorem needsInput_block : NeedsInput block :=
  needsInput_of_error rfl

theorem continues_restOfLine : Continues later restOfLine restOfLine :=
  continues_takeWhile (by simp +contextual [endsLine])

section Fresh

variable (fresh : Fresh later)

include fresh

theorem settled_inSignature : Settled later inSignature where
  alike token rest remains joined := by
    unfold inSignature
    rw [joined.continuesSignature fresh]
  stops {line} isBreak := by
    have same := (Joined.ended isBreak).continuesSignature fresh
    simp only [inSignature, isBreak]
    refine ⟨rfl, ?_⟩
    rw [continuesSignature, ← Token.afterNewlines_newline isBreak]
    exact same.symm

theorem continues_signatureStep : Continues later signatureStep signatureStep := by
  refine simulates_bind_eq (continues_accept (by decide)) fun _ => simulates_ite ?_ ?_
  · refine simulates_bind_eq (continues_closeGroup (by decide) (by decide)) fun _ => ?_
    exact simulates_pure rfl
  refine simulates_bind_eq (continues_accept (by decide)) fun _ => simulates_ite ?_ ?_
  · refine simulates_bind_eq (continues_closeGroup (by decide) (by decide)) fun _ => ?_
    exact simulates_pure rfl
  refine simulates_bind_eq (continues_accept (by decide)) fun _ => simulates_ite ?_ ?_
  · refine simulates_bind_eq (continues_closeGroup (by decide) (by decide)) fun _ => ?_
    exact simulates_pure rfl
  refine simulates_bind_eq (continues_acceptIf (settled_inSignature fresh)) fun _ => ?_
  exact simulates_ite (simulates_pure rfl) (simulates_pure rfl)

theorem continues_signature : Continues later signature signature := by
  refine simulates_fix Joined.length_le fun continues => ?_
  refine simulates_bind_eq (continues_signatureStep fresh) ?_
  rintro (_ | hasBody)
  · exact continues
  · exact simulates_pure rfl

theorem settled_opensGroup : Settled later opensGroup where
  alike token rest remains joined := by
    unfold opensGroup
    rw [(Joined.cons token joined).opensObservers fresh]
  stops {line} isBreak := by simp [opensGroup, isBreak]

theorem settled_inExpression : Settled later inExpression where
  alike token rest remains joined := by
    unfold inExpression
    rw [joined.continuesExpression fresh]
  stops {line} isBreak := by
    have same := (Joined.ended isBreak).continuesExpression fresh
    simp only [inExpression, isBreak]
    refine ⟨rfl, ?_⟩
    rw [continuesExpression, ← Token.afterNewlines_newline isBreak]
    exact same.symm

omit fresh in
theorem continues_closeGroup_of_opensGroup {bracket : Token} {rest : List Token}
    (opens : opensGroup bracket rest = true) :
    Continues later (closeGroup bracket.kind) (closeGroup bracket.kind) := by
  cases kind : bracket.kind with
  | leftParen => exact continues_closeGroup (by decide) (by decide)
  | leftBracket => exact continues_closeGroup (by decide) (by decide)
  | leftBrace => exact continues_closeGroup (by decide) (by decide)
  | _ => simp [opensGroup, kind] at opens

theorem continues_expressionPiece : Continues later expressionPiece expressionPiece := by
  refine simulates_bind (takeIf_joined (settled_opensGroup fresh)) ?_
  rintro found _ ⟨rfl, passed⟩
  cases found with
  | some bracket =>
    obtain ⟨rest, opens⟩ := passed bracket rfl
    refine simulates_bind_eq (continues_closeGroup_of_opensGroup opens) fun _ => ?_
    exact simulates_pure rfl
  | none =>
    refine simulates_bind_eq (continues_takeIf (settled_inExpression fresh)) ?_
    rintro (_ | token)
    · exact simulates_pure rfl
    · exact simulates_pure rfl

theorem continues_expressionTokens : Continues later expressionTokens expressionTokens := by
  refine simulates_fix Joined.length_le fun continues => ?_
  refine simulates_bind_eq (continues_expressionPiece fresh) fun piece => ?_
  refine simulates_ite (simulates_pure rfl) ?_
  exact simulates_bind_eq continues fun _ => simulates_pure rfl

theorem continues_expression : Continues later expression expression := by
  refine simulates_bind_eq (continues_expressionTokens fresh) fun _ => ?_
  exact simulates_ite simulates_fail (simulates_pure rfl)

theorem continues_initializer? : Continues later initializer? initializer? := by
  refine simulates_bind_eq (continues_accept (by decide)) fun _ => simulates_ite ?_ ?_
  · exact simulates_bind_eq (continues_expression fresh) fun _ => simulates_pure rfl
  · exact simulates_pure rfl

end Fresh

theorem continues_name? : Continues later Name.next? Name.next? := by
  refine simulates_bind_eq (continues_takeIf (settled_token (fun token => (Name.ofToken? token).isSome) ?_))
    fun _ => simulates_pure rfl
  intro token isBreak
  simp [Name.ofToken?, isBreak]

theorem continues_name : Continues later Name.parse Name.parse := by
  refine simulates_bind_eq continues_name? ?_
  rintro (_ | name)
  · exact simulates_fail
  · exact simulates_pure rfl

namespace Attribute

theorem continues_parse : Continues later parse parse := by
  refine simulates_bind_eq (continues_expect (by decide) _) fun _ => ?_
  refine simulates_bind_eq (continues_expect (by decide) _) fun name => ?_
  refine simulates_bind_eq (continues_acceptTouching (by decide)) fun _ => simulates_ite ?_ ?_
  · refine simulates_bind_eq (continues_closeGroup (by decide) (by decide)) fun group => ?_
    exact simulates_pure rfl
  · exact simulates_pure rfl

theorem continues_skipAll : Continues later skipAll skipAll := by
  refine simulates_fix Joined.length_le fun continues => ?_
  refine continues_nextKind_ite (by decide) ?_ (simulates_pure rfl)
  exact simulates_bind_eq continues_parse fun _ => continues

theorem fixWithin_nil {depth : Nat} {rest : List Token} {found : List Attribute}
    (parsed : fixWithin step depth [] = .ok (found, rest)) : rest = [] := by
  cases depth with
  | zero => cases parsed
  | succ depth =>
    cases parsed
    rfl

/-- Attributes that do not end the first file. -/
theorem fixWithin_joined {depth deeper : Nat} (within : depth ≤ deeper)
    {tokens others rest : List Token} {found : List Attribute} (joined : Joined later tokens others)
    (parsed : fixWithin step depth tokens = .ok (found, rest)) (goesOn : rest ≠ []) :
    ∃ remains, fixWithin step deeper others = .ok (found, remains) ∧ Joined later rest remains := by
  induction depth generalizing deeper tokens others found with
  | zero => cases parsed
  | succ depth ih =>
    obtain _ | deeper := deeper
    · omega
    have same := joined.kindAt_zero (show Token.Kind.at ≠ .newline by decide)
    rw [fixWithin_succ] at parsed ⊢
    by_cases isAt : Token.kindAt 0 tokens = some .at
    · rw [step_at isAt] at parsed
      rw [step_at (same.mp isAt)]
      obtain ⟨first, after, read, continued⟩ := bind_ok parsed
      obtain ⟨_, between, dropped, continued⟩ := bind_ok continued
      cases dropped
      obtain ⟨more, left, readMore, finished⟩ := bind_ok continued
      cases finished
      obtain ⟨_, remains, image, rfl, joined⟩ := continues_parse.reads joined read
      rcases joined.afterNewlines with ⟨ended, -⟩ | ⟨token, tail, others, left, right, joined⟩
      -- At the end of the first file the line breaks would lead on to attributes of the second.
      · rw [show after.dropWhile Token.isNewline = [] from ended] at readMore
        exact absurd (fixWithin_nil readMore) goesOn
      · rw [show after.dropWhile Token.isNewline = token :: tail from left] at readMore
        obtain ⟨final, imageMore, joined⟩ :=
          ih (show depth ≤ deeper by omega) (.cons token joined) readMore
        have skipped : newlines remains = .ok ((), token :: others) := by
          rw [← right]
          rfl
        rw [bind_of_ok image, bind_of_ok skipped, bind_of_ok imageMore]
        exact ⟨final, rfl, joined⟩
    · rw [step_other isAt] at parsed
      cases parsed
      rw [step_other (mt same.mpr isAt)]
      exact ⟨others, rfl, joined⟩

theorem continues_parseAll_bind {α : Type} {next other : List Attribute → Parser α}
    (needs : ∀ found, NeedsInput (next found))
    (continues : ∀ found, Continues later (next found) (other found)) :
    Continues later (parseAll >>= next) (parseAll >>= other) := by
  constructor
  intro tokens others value rest joined parsed
  obtain ⟨found, between, read, continued⟩ := bind_ok parsed
  have goesOn : between ≠ [] := by
    rintro rfl
    exact needs found value rest continued
  have deeper : tokens.length + 1 ≤ others.length + 1 := Nat.succ_le_succ joined.length_le
  rw [parseAll_eq] at read ⊢
  obtain ⟨remains, image, joined⟩ := fixWithin_joined deeper joined read goesOn
  rw [bind_of_ok (show fix step others = .ok (found, remains) from image)]
  exact (continues found).reads joined continued

end Attribute

namespace Modifier

theorem leadingAccess?_joined (token : Token) {tokens others : List Token}
    (joined : Joined later tokens others) :
    leadingAccess? token tokens = leadingAccess? token others := by
  unfold leadingAccess?
  cases joined with
  | ended isBreak => simp [Token.kindAt, isBreak]
  | endedLine lastBreak isBreak => simp [Token.kindAt, lastBreak, isBreak]
  | cons next joined => rfl

theorem leading?_joined (token : Token) {tokens others : List Token}
    (joined : Joined later tokens others) : leading? token tokens = leading? token others := by
  unfold leading?
  rw [leadingAccess?_joined token joined, joined.wordAt_zero]

theorem leading?_newline {token : Token} (isBreak : token.kind = .newline) (rest : List Token) :
    leading? token rest = none := by
  simp [leading?, leadingAccess?, isBreak]

theorem continues_next? : Continues later next? next? := by
  constructor
  intro tokens others value rest joined parsed
  cases joined with
  | ended isBreak =>
    cases parsed
    refine ⟨none, _, ?_, rfl, .ended isBreak⟩
    simp [next?, leading?_newline isBreak]
  | endedLine lastBreak isBreak =>
    simp only [next?, leading?_newline lastBreak] at parsed
    cases parsed
    refine ⟨none, _, ?_, rfl, .endedLine lastBreak isBreak⟩
    simp [next?, leading?_newline isBreak]
  | cons token joined =>
    simp only [next?, leading?_joined token joined] at parsed ⊢
    split at parsed
    · cases parsed
      exact ⟨_, _, rfl, rfl, joined⟩
    · cases parsed
      exact ⟨_, _, rfl, rfl, .cons token joined⟩

theorem settled_opensSetter : Settled later opensSetter where
  alike token rest remains joined := by
    unfold opensSetter
    rw [joined.wordAt_zero]
  stops isBreak := by simp [opensSetter, isBreak]

theorem continues_withSetter (modifier : Modifier) :
    Continues later modifier.withSetter modifier.withSetter := by
  cases modifier with
  | access level =>
    refine simulates_bind_eq (continues_acceptIf settled_opensSetter) fun _ => simulates_ite ?_ ?_
    · refine simulates_bind_eq (continues_acceptWord "set") fun _ => ?_
      refine simulates_bind_eq (continues_expect (by decide) _) fun _ => ?_
      exact simulates_pure rfl
    · exact simulates_pure rfl
  | _ => exact simulates_pure rfl

theorem continues_parseAll : Continues later parseAll parseAll := by
  refine simulates_fix Joined.length_le fun continues => ?_
  refine simulates_bind_eq continues_next? ?_
  rintro (_ | modifier)
  · exact simulates_pure rfl
  · refine simulates_bind_eq (continues_withSetter modifier) fun _ => ?_
    exact simulates_bind_eq continues fun _ => simulates_pure rfl

end Modifier

namespace TypeExpr

theorem startsPassedType_joined {tokens others : List Token} (joined : Joined later tokens others) :
    startsPassedType tokens = startsPassedType others := by
  unfold startsPassedType
  cases joined with
  | ended isBreak => simp [Token.kindAt, isBreak]
  | endedLine lastBreak isBreak => simp [Token.kindAt, lastBreak, isBreak]
  | cons next joined => rfl

theorem dropPassing_joined {tokens others : List Token} (joined : Joined later tokens others) :
    Joined later (dropPassing tokens) (dropPassing others) := by
  induction joined with
  | ended isBreak =>
    simp only [dropPassing, isBreak]
    exact .ended isBreak
  | endedLine lastBreak isBreak =>
    simp only [dropPassing, lastBreak, isBreak]
    exact .endedLine lastBreak isBreak
  | cons token joined ih =>
    simp only [dropPassing, ← startsPassedType_joined joined]
    split
    · exact ih
    · exact .cons token joined

theorem continues_skipPassing : Continues later skipPassing skipPassing := by
  constructor
  intro tokens others value rest joined parsed
  cases parsed
  exact ⟨_, _, rfl, rfl, dropPassing_joined joined⟩

theorem settled_continuesPath : Settled later continuesPath where
  alike token rest remains joined := by
    cases joined with
    | ended isBreak => simp [continuesPath, Name.ofToken?, isBreak]
    | endedLine lastBreak isBreak => simp [continuesPath, Name.ofToken?, lastBreak, isBreak]
    | cons next joined => rfl
  stops isBreak := by simp [continuesPath, isBreak]

theorem settled_opensConstraint (word : String) : Settled later (opensConstraint word) where
  alike token rest remains joined := by
    have same : Token.kindAt 0 rest = some .dot ↔ Token.kindAt 0 remains = some .dot :=
      joined.kindAt_zero (by decide)
    rw [opensConstraint, opensConstraint, Bool.eq_iff_iff]
    simp [same]
  stops isBreak := by simp [opensConstraint, Token.isWord, isBreak]

theorem settled_variadic :
    Settled later fun token rest => token.kind == .dot && Token.kindAt 0 rest == some .dot where
  alike token rest remains joined := by
    have same : Token.kindAt 0 rest = some .dot ↔ Token.kindAt 0 remains = some .dot :=
      joined.kindAt_zero (by decide)
    rw [Bool.eq_iff_iff]
    simp [same]
  stops isBreak := by simp [isBreak]

theorem suffixed_newline {token : Token} (isBreak : token.kind = .newline) (base : TypeExpr)
    (rest : List Token) : suffixed base (token :: rest) = (base, token :: rest) := by
  rw [suffixed.eq_def]
  simp [isBreak]

theorem suffixed_joined (base : TypeExpr) {tokens others : List Token}
    (joined : Joined later tokens others) :
    (suffixed base tokens).1 = (suffixed base others).1 ∧
      Joined later (suffixed base tokens).2 (suffixed base others).2 := by
  fun_induction suffixed base tokens generalizing others with
  | case1 base =>
    cases joined with
    | ended isBreak =>
      rw [suffixed_newline isBreak]
      exact ⟨rfl, .ended isBreak⟩
  | case2 base token rest asked ih =>
    cases joined with
    | endedLine lastBreak isBreak => simp [lastBreak] at asked
    | cons token joined =>
      rw [suffixed.eq_def _ (token :: _)]
      simp only [asked, if_true]
      exact ih joined
  | case3 base token rest notAsked forced ih =>
    cases joined with
    | endedLine lastBreak isBreak => simp [lastBreak] at forced
    | cons token joined =>
      rw [suffixed.eq_def _ (token :: _)]
      simp only [notAsked, forced, if_true]
      exact ih joined
  | case4 base token notAsked notForced isDot =>
    cases joined with
    | endedLine lastBreak isBreak => simp [lastBreak] at isDot
    | cons token joined =>
      rw [suffixed.eq_def _ (token :: _)]
      simp only [notAsked, notForced, isDot, if_true]
      cases joined with
      | ended isBreak =>
        simp only [Metatype.ofToken?, isBreak]
        exact ⟨rfl, .cons token (.ended isBreak)⟩
  | case5 base token notAsked notForced isDot word rest kind isMetatype ih =>
    cases joined with
    | cons token joined =>
      rw [suffixed.eq_def _ (token :: _)]
      simp only [notAsked, notForced, isDot, if_true]
      cases joined with
      | endedLine lastBreak isBreak => simp [Metatype.ofToken?, lastBreak] at isMetatype
      | cons word joined =>
        simp only [isMetatype]
        exact ih joined
  | case6 base token notAsked notForced isDot word rest noMetatype =>
    cases joined with
    | cons token joined =>
      rw [suffixed.eq_def _ (token :: _)]
      simp only [notAsked, notForced, isDot, if_true]
      cases joined with
      | endedLine lastBreak isBreak =>
        simp only [Metatype.ofToken?, isBreak]
        exact ⟨rfl, .cons token (.endedLine lastBreak isBreak)⟩
      | cons word joined =>
        simp only [noMetatype]
        exact ⟨rfl, .cons token (.cons word joined)⟩
  | case7 base token rest notAsked notForced noDot =>
    cases joined with
    | endedLine lastBreak isBreak =>
      rw [suffixed_newline isBreak]
      exact ⟨rfl, .endedLine lastBreak isBreak⟩
    | cons token joined =>
      rw [suffixed.eq_def _ (token :: _)]
      simp only [notAsked, notForced, noDot]
      exact ⟨rfl, .cons token joined⟩

theorem continues_suffixed (base : TypeExpr) :
    Continues later (fun tokens => .ok (suffixed base tokens))
      (fun tokens => .ok (suffixed base tokens)) := by
  constructor
  intro tokens others value rest joined parsed
  obtain ⟨same, remains⟩ := suffixed_joined base joined
  rw [Except.ok.inj parsed] at same remains
  exact ⟨_, _, rfl, same, remains⟩

theorem label?_newline {token : Token} (isBreak : token.kind = .newline) (rest : List Token) :
    label? (token :: rest) = .ok (none, token :: rest) := by
  simp [label?, Name.ofToken?, isBreak]

theorem needsInput_step (inner : Parser TypeExpr) : NeedsInput (step inner) :=
  needsInput_of_error rfl

theorem needsInput_parse : NeedsInput parse :=
  needsInput_of_error rfl

section Fresh

variable (fresh : Fresh later)

include fresh

theorem continues_label? : Continues later label? label? := by
  constructor
  intro tokens others value rest joined parsed
  cases joined with
  | ended isBreak =>
    cases parsed
    exact ⟨none, _, label?_newline isBreak _, rfl, .ended isBreak⟩
  | endedLine lastBreak isBreak =>
    rw [label?_newline lastBreak] at parsed
    cases parsed
    exact ⟨none, _, label?_newline isBreak _, rfl, .endedLine lastBreak isBreak⟩
  | @cons token rest remains joined =>
    have next : (Token.kindAt 0 rest == some .colon) = (Token.kindAt 0 remains == some .colon) := by
      rw [Bool.eq_iff_iff, beq_iff_eq, beq_iff_eq]
      exact joined.kindAt_zero (by decide)
    have second : (Token.kindAt 1 rest == some .colon) = (Token.kindAt 1 remains == some .colon) := by
      rw [Bool.eq_iff_iff, beq_iff_eq, beq_iff_eq]
      exact joined.kindAt_one_colon fresh
    simp only [label?, ← next, ← second, ← joined.wordAt_zero] at parsed ⊢
    by_cases labelled : ((Name.ofToken? token).isSome && Token.kindAt 0 rest == some .colon) = true
    · rw [if_pos labelled] at parsed ⊢
      simp only [Bool.and_eq_true, beq_iff_eq] at labelled
      cases parsed
      exact ⟨_, _, rfl, rfl, joined.drop_of_kindAt (by decide) labelled.2⟩
    rw [if_neg labelled] at parsed ⊢
    by_cases twice : (token.kind == .identifier && Token.kindAt 1 rest == some .colon) = true
    · rw [if_pos twice] at parsed ⊢
      simp only [Bool.and_eq_true, beq_iff_eq] at twice
      split at parsed
      · cases parsed
        refine ⟨_, _, rfl, rfl, ?_⟩
        cases joined with
        | ended isBreak => cases twice.2
        | endedLine lastBreak isBreak => cases twice.2
        | cons first joined => exact joined.drop_of_kindAt (by decide) twice.2
      · cases parsed
        exact ⟨_, _, rfl, rfl, .cons token joined⟩
    · rw [if_neg twice] at parsed ⊢
      cases parsed
      exact ⟨_, _, rfl, rfl, .cons token joined⟩

end Fresh

theorem continues_variadicDots : Continues later variadicDots variadicDots := by
  refine simulates_bind_eq (continues_acceptIf settled_variadic) fun _ => simulates_ite ?_ ?_
  · exact continues_dropWhile (by simp +contextual)
  · exact simulates_pure rfl

theorem continues_skipThrownType : Continues later skipThrownType skipThrownType := by
  refine simulates_bind_eq (continues_acceptTouching (by decide)) fun _ => simulates_ite ?_ ?_
  · refine simulates_bind_eq (continues_closeGroup (by decide) (by decide)) fun _ => ?_
    exact simulates_pure rfl
  · exact simulates_pure rfl

theorem continues_effects : Continues later effects effects := by
  refine simulates_fix Joined.length_le fun continues => ?_
  refine simulates_bind_eq (continues_acceptWord "async") fun _ => simulates_ite ?_ ?_
  · exact simulates_bind_eq continues fun _ => simulates_pure rfl
  refine simulates_bind_eq (continues_acceptIf (settled_token
    (fun token => token.isWord "throws" || token.isWord "rethrows") ?_)) fun _ => simulates_ite ?_ ?_
  · intro token isBreak
    simp [Token.isWord, isBreak]
  · refine simulates_bind_eq continues_skipThrownType fun _ => ?_
    exact simulates_bind_eq continues fun _ => simulates_pure rfl
  · exact simulates_pure rfl

section Nested

variable {inner outer : Parser TypeExpr} (continues : Continues later inner outer)

include continues

theorem continues_arguments : Continues later (arguments inner) (arguments outer) := by
  refine simulates_fix Joined.length_le fun more => ?_
  refine simulates_bind_eq continues fun argument => ?_
  refine simulates_bind_eq (continues_accept (by decide)) fun _ => simulates_ite ?_ ?_
  · exact simulates_bind_eq more fun _ => simulates_pure rfl
  · exact simulates_pure rfl

theorem continues_component : Continues later (component inner) (component outer) := by
  refine simulates_bind_eq continues_name fun name => ?_
  refine simulates_bind_eq (continues_acceptTouching (by decide)) fun _ => simulates_ite ?_ ?_
  · refine simulates_bind_eq (continues_arguments continues) fun arguments => ?_
    exact simulates_bind_eq (continues_expect (by decide) _) fun _ => simulates_pure rfl
  · exact simulates_pure rfl

theorem continues_path : Continues later (path inner) (path outer) := by
  refine simulates_fix Joined.length_le fun more => ?_
  refine simulates_bind_eq (continues_component continues) fun first => ?_
  refine simulates_bind_eq (continues_acceptIf settled_continuesPath) fun _ => simulates_ite ?_ ?_
  · exact simulates_bind_eq more fun _ => simulates_pure rfl
  · exact simulates_pure rfl

theorem continues_arrayOrDictionary (first : TypeExpr) :
    Continues later (arrayOrDictionary inner first) (arrayOrDictionary outer first) := by
  refine simulates_bind_eq (continues_accept (by decide)) fun _ => simulates_ite ?_ ?_
  · exact simulates_bind_eq continues fun _ => simulates_pure rfl
  · exact simulates_pure rfl

variable (needs : NeedsInput inner)

include needs

theorem continues_bracketed : Continues later (bracketed inner) (bracketed outer) := by
  refine continues_newlines_bind (needsInput_bind needs _) ?_
  refine simulates_bind_eq continues fun first => ?_
  refine continues_newlines_bind (needsInput_of_error rfl) ?_
  refine simulates_bind_eq (continues_arrayOrDictionary continues first) fun type => ?_
  refine continues_newlines_bind (needsInput_of_error rfl) ?_
  exact simulates_bind_eq (continues_expect (by decide) _) fun _ => simulates_pure rfl

variable (fresh : Fresh later)

include fresh

omit needs in
theorem continues_element : Continues later (element inner) (element outer) := by
  refine simulates_bind_eq (continues_label? fresh) fun label => ?_
  refine simulates_bind_eq continues fun type => ?_
  refine simulates_bind_eq (continues_initializer? fresh) fun _ => ?_
  exact simulates_bind_eq continues_variadicDots fun _ => simulates_pure rfl

theorem continues_elements : Continues later (elements inner) (elements outer) := by
  have needsElement : NeedsInput (element inner) :=
    needsInput_of_bind_nil (show label? [] = .ok (none, []) from rfl) (needsInput_bind needs _)
  refine simulates_fix_of_needsInput Joined.length_le ?_ ?_
  · intro more _
    refine needsInput_of_bind_nil (show newlines [] = .ok ((), []) from rfl) ?_
    refine needsInput_of_bind_nil (show accept .rightParen [] = .ok (false, []) from rfl) ?_
    exact needsInput_bind needsElement _
  intro more further _ continuesMore
  refine continues_newlines_bind ?_ ?_
  · refine needsInput_of_bind_nil (show accept .rightParen [] = .ok (false, []) from rfl) ?_
    exact needsInput_bind needsElement _
  refine simulates_bind_eq (continues_accept (by decide)) fun _ => simulates_ite ?_ ?_
  · exact simulates_pure rfl
  refine simulates_bind_eq (continues_element continues fresh) fun first => ?_
  refine continues_newlines_bind (needsInput_of_error rfl) ?_
  refine simulates_bind_eq (continues_accept (by decide)) fun _ => simulates_ite ?_ ?_
  · exact simulates_bind_eq continuesMore fun _ => simulates_pure rfl
  · exact simulates_bind_eq (continues_expect (by decide) _) fun _ => simulates_pure rfl

theorem continues_parenthesized : Continues later (parenthesized inner) (parenthesized outer) := by
  refine simulates_bind_eq (continues_elements continues needs fresh) fun elements => ?_
  refine simulates_bind_eq continues_effects fun effects => ?_
  refine simulates_bind_eq (continues_accept (by decide)) fun _ => simulates_ite ?_ ?_
  · exact simulates_bind_eq continues fun _ => simulates_pure rfl
  · exact simulates_pure rfl

theorem continues_primary : Continues later (primary inner) (primary outer) := by
  refine simulates_bind_eq (continues_accept (by decide)) fun _ => simulates_ite ?_ ?_
  · exact continues_parenthesized continues needs fresh
  refine simulates_bind_eq (continues_accept (by decide)) fun _ => simulates_ite ?_ ?_
  · exact continues_bracketed continues needs
  refine simulates_bind_eq (simulates_ahead ?_) fun _ => simulates_ite ?_ simulates_fail
  · intro tokens others joined
    cases joined with
    | ended isBreak => simp [startsName, Name.ofToken?, isBreak]
    | endedLine lastBreak isBreak => simp [startsName, Name.ofToken?, lastBreak, isBreak]
    | cons token joined => rfl
  · exact simulates_bind_eq (continues_path continues) fun _ => simulates_pure rfl

theorem continues_part : Continues later (part inner) (part outer) := by
  refine simulates_fix Joined.length_le fun more => ?_
  refine simulates_bind_eq (continues_acceptIf (settled_opensConstraint "some")) fun _ =>
    simulates_ite ?_ ?_
  · exact simulates_bind_eq more fun _ => simulates_pure rfl
  refine simulates_bind_eq (continues_acceptIf (settled_opensConstraint "any")) fun _ =>
    simulates_ite ?_ ?_
  · exact simulates_bind_eq more fun _ => simulates_pure rfl
  · exact simulates_bind_eq (continues_primary continues needs fresh) fun base =>
      continues_suffixed base

theorem continues_furtherParts : Continues later (furtherParts inner) (furtherParts outer) := by
  refine simulates_fix Joined.length_le fun more => ?_
  refine simulates_bind_eq (continues_accept (by decide)) fun _ => simulates_ite ?_ ?_
  · refine simulates_bind_eq (continues_part continues needs fresh) fun next => ?_
    exact simulates_bind_eq more fun _ => simulates_pure rfl
  · exact simulates_pure rfl

theorem continues_step : Continues later (step inner) (step outer) := by
  refine simulates_bind_eq Attribute.continues_skipAll fun _ => ?_
  refine simulates_bind_eq continues_skipPassing fun _ => ?_
  refine simulates_bind_eq (continues_part continues needs fresh) fun first => ?_
  refine simulates_bind_eq (continues_furtherParts continues needs fresh) fun others => ?_
  exact simulates_pure rfl

end Nested

section Fresh

variable (fresh : Fresh later)

include fresh

theorem continues_parse : Continues later parse parse := by
  refine simulates_fix_of_needsInput Joined.length_le (fun _ => needsInput_step _) ?_
  intro inner outer needs continues
  exact continues_step continues needs fresh

theorem continues_afterColon? : Continues later afterColon? afterColon? := by
  refine simulates_bind_eq (continues_accept (by decide)) fun _ => simulates_ite ?_ ?_
  · exact simulates_bind_eq (continues_parse fresh) fun _ => simulates_pure rfl
  · exact simulates_pure rfl

end Fresh
end TypeExpr
end SwiftLens
