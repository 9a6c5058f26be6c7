import SwiftLens.Proofs.Layout.Relaid

namespace SwiftLens

open SwiftLens.Parser

theorem Token.splitGroup_relaid {opening closing : Kind} {depth : Nat}
    {tokens others group rest : List Token} (relaid : Relaid tokens others)
    (closed : splitGroup opening closing depth tokens = some (group, rest)) :
    ∃ image remains, splitGroup opening closing depth others = some (image, remains) ∧
      Relaid group image ∧ Relaid rest remains := by
  induction relaid generalizing depth group rest with
  | nil => cases closed
  | @cons token other tokens others alike relaid ih =>
    -- Every step but the last one passes the group on from a shorter list.
    have passed : ∀ {deeper : Nat} {inside after : List Token},
        (splitGroup opening closing deeper tokens).map (fun found => (token :: found.1, found.2)) =
          some (inside, after) →
        ∃ image remains, (splitGroup opening closing deeper others).map
            (fun found => (other :: found.1, found.2)) = some (image, remains) ∧
          Relaid inside image ∧ Relaid after remains := by
      intro deeper inside after found
      obtain ⟨⟨shorter, left⟩, closed, same⟩ := Option.map_eq_some_iff.mp found
      cases same
      obtain ⟨image, remains, closedOther, relaidGroup, relaidRest⟩ := ih closed
      exact ⟨other :: image, remains, by rw [closedOther]; rfl, .cons alike relaidGroup,
        relaidRest⟩
    simp only [splitGroup, ← alike.kind] at closed ⊢
    by_cases opens : token.kind = opening
    · rw [if_pos opens] at closed ⊢
      exact passed closed
    · rw [if_neg opens] at closed ⊢
      by_cases closes : token.kind = closing
      · rw [if_pos closes] at closed ⊢
        cases depth with
        | zero =>
          cases closed
          exact ⟨[other], others, rfl, .cons alike .nil, relaid⟩
        | succ depth => exact passed closed
      · rw [if_neg closes] at closed ⊢
        exact passed closed

theorem relaid_closeGroup (opening : Token.Kind) :
    Simulates Relaid Relaid (closeGroup opening) (closeGroup opening) where
  reads {tokens others group rest} relaid parsed := by
    unfold closeGroup at parsed ⊢
    split at parsed
    · next found after closed =>
      cases parsed
      obtain ⟨image, remains, closedOther, same, relaid⟩ := Token.splitGroup_relaid relaid closed
      rw [closedOther]
      exact ⟨image, remains, rfl, same, relaid⟩
    · cases parsed

theorem agree_block : Agree block block := by
  apply simulates_bind (relaid_expect _ _)
  intro _ _ _
  apply simulates_bind (relaid_closeGroup _)
  intro _ _ _
  exact simulates_pure rfl

theorem relaid_restOfLine : Simulates Relaid Relaid restOfLine restOfLine :=
  relaid_takeWhile fun alike => by rw [endsLine, endsLine, alike.kind]

theorem seesNoGaps_inSignature : SeesNoGaps inSignature where
  same alike relaid := by rw [inSignature, inSignature, alike.kind, relaid.continuesSignature]

/-- A group that is passed over. -/
theorem agree_closeGroup_bind {α : Type} (opening : Token.Kind) {left right : Parser α}
    (agree : Agree left right) :
    Agree (closeGroup opening >>= fun _ => left) (closeGroup opening >>= fun _ => right) :=
  simulates_bind (relaid_closeGroup opening) fun _ _ _ => agree

theorem agree_signatureStep : Agree signatureStep signatureStep := by
  apply simulates_choice (agree_accept _) (agree_closeGroup_bind _ (simulates_pure rfl))
  apply simulates_choice (agree_accept _) (agree_closeGroup_bind _ (simulates_pure rfl))
  apply simulates_choice (agree_accept _) (agree_closeGroup_bind _ (simulates_pure rfl))
  exact simulates_choice (agree_acceptIf seesNoGaps_inSignature) (simulates_pure rfl) (simulates_pure rfl)

theorem agree_signature : Agree signature signature := by
  apply simulates_fix Relaid.length_le
  intro _ _ agree
  apply simulates_bind_eq agree_signatureStep
  intro found
  cases found with
  | none => exact agree
  | some hasBody => exact simulates_pure rfl

theorem seesNoGaps_opensGroup : SeesNoGaps opensGroup where
  same alike relaid := by
    rw [opensGroup, opensGroup, alike.kind, Relaid.opensObservers (.cons alike relaid)]

theorem seesNoGaps_inExpression : SeesNoGaps inExpression where
  same alike relaid := by rw [inExpression, inExpression, alike.kind, relaid.continuesExpression]

theorem relaid_expressionPiece : Simulates Relaid Relaid expressionPiece expressionPiece := by
  apply simulates_bind (relaid_takeIf seesNoGaps_opensGroup)
  intro found image alike
  cases alike with
  | @some bracket image alike =>
    dsimp only
    rw [alike.kind]
    apply simulates_bind (relaid_closeGroup _)
    intro group other relaid
    exact simulates_pure (.cons alike relaid)
  | none =>
    apply simulates_bind (relaid_takeIf seesNoGaps_inExpression)
    intro found image alike
    cases alike with
    | some alike => exact simulates_pure (.cons alike .nil)
    | none => exact simulates_pure .nil

theorem relaid_expressionTokens : Simulates Relaid Relaid expressionTokens expressionTokens := by
  apply simulates_fix Relaid.length_le
  intro _ _ more
  apply simulates_bind relaid_expressionPiece
  intro piece image relaid
  rw [relaid.isEmpty]
  apply simulates_ite (simulates_pure .nil)
  apply simulates_bind more
  intro later others relaidLater
  exact simulates_pure (List.rel_append relaid relaidLater)

/-- The text of an expression shows the gaps inside it, but that there is one does not. -/
theorem agreeOn_expression : AgreeOn (fun _ => ()) expression expression := by
  apply simulates_bind relaid_expressionTokens
  intro tokens others relaid
  rw [relaid.isEmpty]
  exact simulates_ite simulates_fail (simulates_pure rfl)

theorem agreeOn_initializer? : AgreeOn erased initializer? initializer? := by
  apply simulates_choice (agree_accept _)
  · apply simulates_bind agreeOn_expression
    intro _ _ _
    exact simulates_pure rfl
  · exact simulates_pure rfl

theorem agree_name? : Agree Name.next? Name.next? := by
  apply simulates_bind (relaid_takeIf ⟨fun alike _ => by rw [alike.name]⟩)
  intro found image alike
  cases alike with
  | some alike => exact simulates_pure alike.name
  | none => exact simulates_pure rfl

theorem agree_name : Agree Name.parse Name.parse := by
  apply simulates_bind_eq agree_name?
  intro found
  cases found with
  | none => exact simulates_fail
  | some name => exact simulates_pure rfl

namespace Attribute

theorem agreeOn_parse : AgreeOn skeleton parse parse := by
  apply simulates_bind (relaid_expect _ _)
  intro _ _ _
  apply simulates_bind (relaid_expect _ _)
  intro name image alike
  rw [alike.text]
  apply simulates_choice (agree_acceptTouching _)
  · apply simulates_bind (relaid_closeGroup _)
    intro _ _ _
    apply simulates_pure
    simp only [skeleton, erased, Option.map_some]
  · exact simulates_pure rfl

theorem agreeOn_parseAll : AgreeOn (List.map skeleton) parseAll parseAll := by
  apply simulates_fix Relaid.length_le
  intro _ _ more
  apply simulates_bind_eq agree_nextKind
  intro _
  apply simulates_ite
  · apply simulates_bind agreeOn_parse
    intro first image same
    apply simulates_bind_eq agree_newlines
    intro _
    exact agreeOn_cons more same
  · exact simulates_pure rfl

theorem agree_skipAll : Agree skipAll skipAll := by
  apply simulates_fix Relaid.length_le
  intro _ _ more
  apply simulates_bind_eq agree_nextKind
  intro _
  apply simulates_ite
  · apply simulates_bind agreeOn_parse
    intro _ _ _
    exact more
  · exact simulates_pure rfl

end Attribute

namespace Modifier

theorem leading?_relaid {token image : Token} {rest remains : List Token} (alike : token.Alike image)
    (relaid : Relaid rest remains) : leading? token rest = leading? image remains := by
  have access : leadingAccess? token rest = leadingAccess? image remains := by
    rw [leadingAccess?, leadingAccess?, alike.kind, alike.text, relaid.kindAt]
  rw [leading?, leading?, access, alike.kind, alike.text, relaid.wordAt]

theorem agree_next? : Agree next? next? where
  reads {tokens others value rest} relaid parsed := by
    cases relaid with
    | nil =>
      cases parsed
      exact ⟨none, [], rfl, rfl, .nil⟩
    | cons alike relaid =>
      simp only [next?, ← leading?_relaid alike relaid] at parsed ⊢
      split at parsed
      · cases parsed
        exact ⟨_, _, rfl, rfl, relaid⟩
      · cases parsed
        exact ⟨_, _, rfl, rfl, .cons alike relaid⟩

theorem seesNoGaps_opensSetter : SeesNoGaps opensSetter where
  same alike relaid := by rw [opensSetter, opensSetter, alike.kind, relaid.wordAt]

theorem agree_withSetter (modifier : Modifier) : Agree modifier.withSetter modifier.withSetter := by
  cases modifier with
  | access level =>
    apply simulates_choice (agree_acceptIf seesNoGaps_opensSetter)
    · apply simulates_bind_eq (agree_acceptWord "set")
      intro _
      apply simulates_bind (relaid_expect _ _)
      intro _ _ _
      exact simulates_pure rfl
    · exact simulates_pure rfl
  | _ => exact simulates_pure rfl

theorem agree_parseAll : Agree parseAll parseAll := by
  apply simulates_fix Relaid.length_le
  intro _ _ more
  apply simulates_bind_eq agree_next?
  intro found
  cases found with
  | none => exact simulates_pure rfl
  | some modifier =>
    apply simulates_bind_eq (agree_withSetter modifier)
    intro first
    exact simulates_bind_eq more fun _ => simulates_pure rfl

end Modifier

namespace TypeExpr

theorem dropPassing_relaid {tokens others : List Token} (relaid : Relaid tokens others) :
    Relaid (dropPassing tokens) (dropPassing others) := by
  induction relaid with
  | nil => exact .nil
  | @cons token image rest remains alike relaid ih =>
    have starts : startsPassedType rest = startsPassedType remains := by
      rw [startsPassedType, startsPassedType, Relaid.kindAt relaid]
    rw [dropPassing, dropPassing, ← alike.kind, ← alike.text, ← starts]
    split
    · exact ih
    · exact .cons alike relaid

theorem agree_skipPassing : Agree skipPassing skipPassing where
  reads relaid parsed := by
    cases parsed
    exact ⟨(), _, rfl, rfl, dropPassing_relaid relaid⟩

theorem seesNoGaps_continuesPath : SeesNoGaps continuesPath where
  same alike relaid := by
    unfold continuesPath
    rw [alike.kind]
    cases relaid with
    | nil => rfl
    | cons next _ => simp only [next.name, next.metatype]

theorem seesNoGaps_opensConstraint (word : String) : SeesNoGaps (opensConstraint word) where
  same alike relaid := by rw [opensConstraint, opensConstraint, alike.isWord, relaid.kindAt]

theorem suffixed_relaid (base : TypeExpr) {tokens others : List Token}
    (relaid : Relaid tokens others) :
    (suffixed base tokens).1 = (suffixed base others).1 ∧
      Relaid (suffixed base tokens).2 (suffixed base others).2 := by
  fun_induction suffixed base tokens generalizing others with
  | case1 base =>
    cases relaid with
    | nil => exact ⟨rfl, .nil⟩
  | case2 base token rest asked ih =>
    cases relaid with
    | @cons _ image _ remains alike relaid =>
      rw [suffixed.eq_def base (image :: remains)]
      simp only [← alike.kind, ← alike.touches, asked, if_true]
      exact ih relaid
  | case3 base token rest notAsked forced ih =>
    cases relaid with
    | @cons _ image _ remains alike relaid =>
      rw [suffixed.eq_def base (image :: remains)]
      simp only [← alike.kind, ← alike.touches, notAsked, forced, if_true]
      exact ih relaid
  | case4 base token notAsked notForced isDot =>
    cases relaid with
    | @cons _ image _ remains alike relaid =>
      rw [suffixed.eq_def base (image :: remains)]
      simp only [← alike.kind, ← alike.touches, notAsked, notForced, isDot, if_true]
      cases relaid with
      | nil => exact ⟨rfl, .cons alike .nil⟩
  | case5 base token notAsked notForced isDot word rest kind isMetatype ih =>
    cases relaid with
    | @cons _ image _ remains alike relaid =>
      rw [suffixed.eq_def base (image :: remains)]
      simp only [← alike.kind, ← alike.touches, notAsked, notForced, isDot, if_true]
      cases relaid with
      | cons next relaid =>
        simp only [← next.metatype, isMetatype]
        exact ih relaid
  | case6 base token notAsked notForced isDot word rest noMetatype =>
    cases relaid with
    | @cons _ image _ remains alike relaid =>
      rw [suffixed.eq_def base (image :: remains)]
      simp only [← alike.kind, ← alike.touches, notAsked, notForced, isDot, if_true]
      cases relaid with
      | cons next relaid =>
        simp only [← next.metatype, noMetatype]
        exact ⟨rfl, .cons alike (.cons next relaid)⟩
  | case7 base token rest notAsked notForced noDot =>
    cases relaid with
    | @cons _ image _ remains alike relaid =>
      rw [suffixed.eq_def base (image :: remains)]
      simp only [← alike.kind, ← alike.touches, notAsked, notForced, noDot]
      exact ⟨rfl, .cons alike relaid⟩

theorem agree_suffixed (base : TypeExpr) :
    Agree (fun tokens => .ok (suffixed base tokens)) (fun tokens => .ok (suffixed base tokens)) where
  reads relaid parsed := by
    obtain ⟨same, remains⟩ := suffixed_relaid base relaid
    rw [Except.ok.inj parsed] at same remains
    exact ⟨_, _, rfl, same, remains⟩

theorem agree_label? : Agree label? label? where
  reads {tokens others value rest} relaid parsed := by
    cases relaid with
    | nil =>
      cases parsed
      exact ⟨none, [], rfl, rfl, .nil⟩
    | @cons token image tail remains alike relaid =>
      simp only [label?, ← alike.name, ← alike.kind, ← alike.text, ← Relaid.kindAt relaid,
        ← Relaid.wordAt relaid] at parsed ⊢
      split at parsed
      · next labelled =>
        cases parsed
        rw [if_pos labelled]
        exact ⟨_, _, rfl, rfl, List.forall₂_drop 1 relaid⟩
      · next unlabelled =>
        rw [if_neg unlabelled]
        split at parsed
        · next twice =>
          rw [if_pos twice]
          split at parsed
          · cases parsed
            exact ⟨_, _, rfl, rfl, List.forall₂_drop 2 relaid⟩
          · cases parsed
            exact ⟨_, _, rfl, rfl, .cons alike relaid⟩
        · next once =>
          cases parsed
          rw [if_neg once]
          exact ⟨_, _, rfl, rfl, .cons alike relaid⟩

theorem agree_variadicDots : Agree variadicDots variadicDots := by
  have sees : SeesNoGaps fun token rest =>
      token.kind == .dot && Token.kindAt 0 rest == some .dot :=
    ⟨fun alike relaid => by rw [alike.kind, relaid.kindAt]⟩
  apply simulates_choice (agree_acceptIf sees)
  · exact agree_dropWhile fun alike => by rw [alike.kind]
  · exact simulates_pure rfl

theorem agree_skipThrownType : Agree skipThrownType skipThrownType := by
  exact simulates_choice (agree_acceptTouching _) (agree_closeGroup_bind _ (simulates_pure rfl)) (simulates_pure rfl)

theorem agree_effects : Agree effects effects := by
  apply simulates_fix Relaid.length_le
  intro _ _ more
  apply simulates_choice (agree_acceptWord "async")
  · exact simulates_bind_eq more fun _ => simulates_pure rfl
  apply simulates_choice (agree_acceptIf ⟨fun alike _ => by rw [alike.isWord, alike.isWord]⟩)
  · apply simulates_bind_eq agree_skipThrownType
    intro _
    exact simulates_bind_eq more fun _ => simulates_pure rfl
  · exact simulates_pure rfl

section Nested

variable {inner outer : Parser TypeExpr} (agree : Agree inner outer)

include agree

theorem agree_arguments : Agree (arguments inner) (arguments outer) := by
  apply simulates_fix Relaid.length_le
  intro _ _ more
  apply simulates_bind_eq agree
  intro argument
  apply simulates_choice (agree_accept _)
  · exact simulates_bind_eq more fun _ => simulates_pure rfl
  · exact simulates_pure rfl

theorem agree_component : Agree (component inner) (component outer) := by
  apply simulates_bind_eq agree_name
  intro name
  apply simulates_choice (agree_acceptTouching _)
  · apply simulates_bind_eq (agree_arguments agree)
    intro arguments
    exact simulates_bind (relaid_expect _ _) fun _ _ _ => simulates_pure rfl
  · exact simulates_pure rfl

theorem agree_path : Agree (path inner) (path outer) := by
  apply simulates_fix Relaid.length_le
  intro _ _ more
  apply simulates_bind_eq (agree_component agree)
  intro first
  apply simulates_choice (agree_acceptIf seesNoGaps_continuesPath)
  · exact simulates_bind_eq more fun _ => simulates_pure rfl
  · exact simulates_pure rfl

theorem agree_arrayOrDictionary (first : TypeExpr) :
    Agree (arrayOrDictionary inner first) (arrayOrDictionary outer first) := by
  apply simulates_choice (agree_accept _)
  · exact simulates_bind_eq agree fun _ => simulates_pure rfl
  · exact simulates_pure rfl

theorem agree_bracketed : Agree (bracketed inner) (bracketed outer) := by
  apply simulates_bind_eq agree_newlines
  intro _
  apply simulates_bind_eq agree
  intro first
  apply simulates_bind_eq agree_newlines
  intro _
  apply simulates_bind_eq (agree_arrayOrDictionary agree first)
  intro type
  apply simulates_bind_eq agree_newlines
  intro _
  exact simulates_bind (relaid_expect _ _) fun _ _ _ => simulates_pure rfl

theorem agree_element : Agree (element inner) (element outer) := by
  apply simulates_bind_eq agree_label?
  intro label
  apply simulates_bind_eq agree
  intro type
  apply simulates_bind agreeOn_initializer?
  intro _ _ _
  exact simulates_bind_eq agree_variadicDots fun _ => simulates_pure rfl

theorem agree_elements : Agree (elements inner) (elements outer) := by
  apply simulates_fix Relaid.length_le
  intro _ _ more
  apply simulates_bind_eq agree_newlines
  intro _
  apply simulates_choice (agree_accept _) (simulates_pure rfl)
  apply simulates_bind_eq (agree_element agree)
  intro first
  apply simulates_bind_eq agree_newlines
  intro _
  apply simulates_choice (agree_accept _)
  · exact simulates_bind_eq more fun _ => simulates_pure rfl
  · exact simulates_bind (relaid_expect _ _) fun _ _ _ => simulates_pure rfl

theorem agree_parenthesized : Agree (parenthesized inner) (parenthesized outer) := by
  apply simulates_bind_eq (agree_elements agree)
  intro elements
  apply simulates_bind_eq agree_effects
  intro effects
  apply simulates_choice (agree_accept _)
  · exact simulates_bind_eq agree fun _ => simulates_pure rfl
  · exact simulates_pure rfl

theorem agree_primary : Agree (primary inner) (primary outer) := by
  apply simulates_choice (agree_accept _) (agree_parenthesized agree)
  apply simulates_choice (agree_accept _) (agree_bracketed agree)
  have starts : Agree (ahead startsName) (ahead startsName) :=
    agree_ahead fun relaid => relaid.head?_any fun alike => by rw [alike.name]
  apply simulates_choice starts
  · exact simulates_bind_eq (agree_path agree) fun _ => simulates_pure rfl
  · exact simulates_fail

theorem agree_part : Agree (part inner) (part outer) := by
  apply simulates_fix Relaid.length_le
  intro _ _ more
  apply simulates_choice (agree_acceptIf (seesNoGaps_opensConstraint "some"))
  · exact simulates_bind_eq more fun _ => simulates_pure rfl
  apply simulates_choice (agree_acceptIf (seesNoGaps_opensConstraint "any"))
  · exact simulates_bind_eq more fun _ => simulates_pure rfl
  · exact simulates_bind_eq (agree_primary agree) agree_suffixed

theorem agree_furtherParts : Agree (furtherParts inner) (furtherParts outer) := by
  apply simulates_fix Relaid.length_le
  intro _ _ more
  apply simulates_choice (agree_accept _)
  · apply simulates_bind_eq (agree_part agree)
    intro next
    exact simulates_bind_eq more fun _ => simulates_pure rfl
  · exact simulates_pure rfl

theorem agree_step : Agree (step inner) (step outer) := by
  apply simulates_bind_eq Attribute.agree_skipAll
  intro _
  apply simulates_bind_eq agree_skipPassing
  intro _
  apply simulates_bind_eq (agree_part agree)
  intro first
  exact simulates_bind_eq (agree_furtherParts agree) fun _ => simulates_pure rfl

end Nested

theorem agree_parse : Agree parse parse :=
  simulates_fix Relaid.length_le agree_step

theorem agree_afterColon? : Agree afterColon? afterColon? := by
  apply simulates_choice (agree_accept _)
  · exact simulates_bind_eq agree_parse fun _ => simulates_pure rfl
  · exact simulates_pure rfl

end TypeExpr
end SwiftLens
