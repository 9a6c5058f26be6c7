import SwiftLens.Proofs.Concatenation.Types

namespace SwiftLens

open SwiftLens.Parser

variable {later : List Token} (fresh : Fresh later)

include fresh

namespace Pattern

omit fresh in
theorem needsInput_step (inner : Parser Pattern) : NeedsInput (step inner) :=
  needsInput_of_error rfl

omit fresh in
theorem needsInput_parse : NeedsInput parse :=
  needsInput_of_error rfl

omit fresh in
theorem continues_elements {inner outer : Parser Pattern} (needs : NeedsInput inner)
    (continues : Continues later inner outer) :
    Continues later (elements inner) (elements outer) := by
  refine simulates_fix_of_needsInput Joined.length_le ?_ ?_
  · intro more _
    refine needsInput_of_bind_nil (show newlines [] = .ok ((), []) from rfl) ?_
    refine needsInput_of_bind_nil (show accept .rightParen [] = .ok (false, []) from rfl) ?_
    exact needsInput_bind needs _
  intro more further _ continuesMore
  refine continues_newlines_bind ?_ ?_
  · refine needsInput_of_bind_nil (show accept .rightParen [] = .ok (false, []) from rfl) ?_
    exact needsInput_bind needs _
  refine simulates_bind_eq (continues_accept (by decide)) fun _ => simulates_ite ?_ ?_
  · exact simulates_pure rfl
  refine simulates_bind_eq continues fun first => ?_
  refine continues_newlines_bind (needsInput_of_error rfl) ?_
  refine simulates_bind_eq (continues_accept (by decide)) fun _ => simulates_ite ?_ ?_
  · exact simulates_bind_eq continuesMore fun _ => simulates_pure rfl
  · exact simulates_bind_eq (continues_expect (by decide) _) fun _ => simulates_pure rfl

theorem continues_step {inner outer : Parser Pattern} (needs : NeedsInput inner)
    (continues : Continues later inner outer) : Continues later (step inner) (step outer) := by
  refine simulates_bind_eq (continues_accept (by decide)) fun _ => simulates_ite ?_ ?_
  · refine simulates_bind_eq (continues_elements needs continues) fun elements => ?_
    exact simulates_bind_eq (TypeExpr.continues_afterColon? fresh) fun _ => simulates_pure rfl
  · refine simulates_bind_eq continues_name fun name => ?_
    exact simulates_bind_eq (TypeExpr.continues_afterColon? fresh) fun _ => simulates_pure rfl

theorem continues_parse : Continues later parse parse :=
  simulates_fix_of_needsInput Joined.length_le (fun _ => needsInput_step _) (continues_step fresh)

end Pattern

namespace Binding

theorem continues_parseAll : Continues later parseAll parseAll := by
  refine simulates_fix_of_needsInput Joined.length_le ?_ ?_
  · intro more _
    exact needsInput_bind Pattern.needsInput_parse _
  intro more further needs continues
  refine simulates_bind_eq (Pattern.continues_parse fresh) fun pattern => ?_
  refine simulates_bind_eq (continues_initializer? fresh) fun initializer => ?_
  refine simulates_bind_eq (continues_accept (by decide)) fun _ => simulates_ite ?_ ?_
  · refine continues_newlines_bind (needsInput_bind needs _) ?_
    exact simulates_bind_eq continues fun _ => simulates_pure rfl
  · exact simulates_pure rfl

end Binding

namespace Storage

theorem continues_accessors (name : Name) (typing : Option TypeExpr) :
    Continues later (accessors name typing) (accessors name typing) := by
  refine simulates_bind_eq (simulates_ahead fun joined => joined.opensObservers fresh) fun _ =>
    simulates_ite ?_ ?_
  · refine continues_newlines_bind (needsInput_bind needsInput_block _) ?_
    exact simulates_bind_eq continues_block fun _ => simulates_pure rfl
  · cases typing with
    | none => exact simulates_fail
    | some type =>
      refine continues_newlines_bind (needsInput_bind needsInput_block _) ?_
      exact simulates_bind_eq continues_block fun _ => simulates_pure rfl

theorem continues_afterPattern (first : Bool) (pattern : Pattern) {more further : Parser Storage}
    (needs : NeedsInput more) (continues : Continues later more further) :
    Continues later (afterPattern first pattern more) (afterPattern first pattern further) := by
  refine simulates_bind_eq (continues_initializer? fresh) fun initializer => ?_
  refine simulates_bind_eq (simulates_ahead fun joined => joined.opensObserversHere fresh) fun _ =>
    simulates_ite ?_ ?_
  · cases pattern with
    | identifier name typing =>
      exact simulates_bind_eq continues_block fun _ => simulates_pure rfl
    | _ => exact simulates_fail
  refine simulates_bind_eq (continues_accept (by decide)) fun _ => simulates_ite ?_ ?_
  · refine continues_newlines_bind (needsInput_bind needs _) ?_
    exact simulates_bind_eq continues fun _ => simulates_pure rfl
  · exact simulates_pure rfl

omit fresh in
theorem needsInput_step (first : Bool) (more : Parser Storage) : NeedsInput (step first more) :=
  needsInput_bind Pattern.needsInput_parse _

theorem continues_step (first : Bool) {more further : Parser Storage} (needs : NeedsInput more)
    (continues : Continues later more further) :
    Continues later (step first more) (step first further) := by
  refine simulates_bind_eq (Pattern.continues_parse fresh) fun pattern => ?_
  cases pattern with
  | identifier name typing =>
    refine simulates_bind_eq (simulates_ahead fun joined => joined.opensBlock fresh) fun _ => ?_
    exact simulates_ite (continues_accessors fresh name typing)
      (continues_afterPattern fresh first _ needs continues)
  | _ => exact continues_afterPattern fresh first _ needs continues

theorem continues_parse : Continues later parse parse := by
  have needs : NeedsInput (fix (step false)) := needsInput_fix fun _ => needsInput_step false _
  refine continues_step fresh true needs ?_
  exact simulates_fix_of_needsInput Joined.length_le (fun _ => needsInput_step false _)
    (continues_step fresh false)

end Storage

namespace Declaration

omit fresh in
theorem continues_compilerControlLine :
    Continues later compilerControlLine compilerControlLine := by
  refine simulates_bind_eq (continues_expect (by decide) _) fun _ => ?_
  refine simulates_bind_eq (continues_expect (by decide) _) fun directive => ?_
  refine simulates_bind_eq (continues_takeWhile (by simp [Token.isNewline])) fun condition => ?_
  exact simulates_ite (simulates_pure rfl) (simulates_pure rfl)

omit fresh in
theorem continues_importKind? : Continues later importKind? importKind? := by
  refine simulates_bind_eq (continues_takeIf ⟨?_, ?_⟩) fun _ => simulates_pure rfl
  · intro token rest remains joined
    have same : Token.kindAt 0 rest = some .identifier ↔
        Token.kindAt 0 remains = some .identifier := joined.kindAt_zero (by decide)
    rw [Bool.eq_iff_iff]
    simp [same]
  · intro line isBreak
    simp [isBreak]

omit fresh in
theorem continues_importNames : Continues later importNames importNames := by
  refine simulates_fix Joined.length_le fun more => ?_
  refine simulates_bind_eq continues_name fun name => ?_
  refine simulates_bind_eq (continues_accept (by decide)) fun _ => simulates_ite ?_ ?_
  · exact simulates_bind_eq more fun _ => simulates_pure rfl
  · exact simulates_pure rfl

omit fresh in
theorem genericNames_joined {depth : Nat} {awaiting : Bool} {tokens others rest : List Token}
    {names : List String} (joined : Joined later tokens others)
    (found : genericNames depth awaiting tokens = some (names, rest)) :
    ∃ remains, genericNames depth awaiting others = some (names, remains) ∧
      Joined later rest remains := by
  induction joined generalizing depth awaiting names rest with
  | ended isBreak => simp [genericNames] at found
  | endedLine lastBreak isBreak => simp [genericNames, lastBreak] at found
  | @cons token tokens others joined ih =>
    cases kind : token.kind with
    | greater =>
      cases depth with
      | zero =>
        simp only [genericNames, kind] at found ⊢
        cases found
        exact ⟨others, rfl, joined⟩
      | succ depth =>
        simp only [genericNames, kind] at found ⊢
        exact ih found
    | identifier =>
      simp only [genericNames, kind] at found ⊢
      by_cases counts : (depth == 0 && awaiting && token.text != "each") = true
      · rw [if_pos counts] at found ⊢
        obtain ⟨⟨more, after⟩, foundMore, same⟩ := Option.map_eq_some_iff.mp found
        cases same
        obtain ⟨remains, image, joined⟩ := ih foundMore
        exact ⟨remains, by rw [image]; rfl, joined⟩
      · rw [if_neg counts] at found ⊢
        exact ih found
    | _ =>
      simp only [genericNames, kind] at found ⊢
      exact ih found

omit fresh in
theorem continues_genericParameters : Continues later genericParameters genericParameters := by
  refine simulates_bind_eq (continues_accept (by decide)) fun _ => simulates_ite ?_ ?_
  · constructor
    intro tokens others names rest joined parsed
    split at parsed
    · next found after named =>
      cases parsed
      obtain ⟨remains, image, joined⟩ := genericNames_joined joined named
      rw [image]
      exact ⟨_, _, rfl, rfl, joined⟩
    · cases parsed
  · exact simulates_pure rfl

omit fresh in
theorem continues_primaryAssociatedTypes :
    Continues later primaryAssociatedTypes primaryAssociatedTypes := by
  refine simulates_bind_eq (continues_accept (by decide)) fun _ => simulates_ite ?_ ?_
  · refine simulates_bind_eq (continues_closeGroup (by decide) (by decide)) fun _ => ?_
    exact simulates_pure rfl
  · exact simulates_pure rfl

omit fresh in
theorem needsInput_supertype : NeedsInput supertype :=
  needsInput_of_error rfl

theorem continues_supertype : Continues later supertype supertype := by
  refine simulates_bind_eq (continues_acceptIf (settled_token
    (fun token => token.kind == .operator && token.text == "~") ?_)) fun _ => simulates_ite ?_ ?_
  · intro token isBreak
    simp [isBreak]
  · exact simulates_bind_eq (TypeExpr.continues_parse fresh) fun _ => simulates_pure rfl
  · refine simulates_bind_eq (TypeExpr.continues_parse fresh) fun type => ?_
    cases type with
    | named path => exact simulates_pure rfl
    | _ => exact simulates_pure rfl

theorem continues_supertypes : Continues later supertypes supertypes := by
  have needs : ∀ (more : Parser (List TypePath)), NeedsInput (do
      Attribute.skipAll
      let listed ← supertype
      if ← accept .comma then return listed ++ (← more)
      else return listed : Parser (List TypePath)) := by
    intro more
    refine needsInput_of_bind_nil (show Attribute.skipAll [] = .ok ((), []) from rfl) ?_
    exact needsInput_bind needsInput_supertype _
  refine simulates_fix Joined.length_le fun {more further} continues => ?_
  refine continues_newlines_bind (needs more) ?_
  refine simulates_bind_eq Attribute.continues_skipAll fun _ => ?_
  refine simulates_bind_eq (continues_supertype fresh) fun listed => ?_
  refine simulates_bind_eq (continues_accept (by decide)) fun _ => simulates_ite ?_ ?_
  · exact simulates_bind_eq continues fun _ => simulates_pure rfl
  · exact simulates_pure rfl

theorem continues_inheritance? : Continues later inheritance? inheritance? := by
  refine simulates_bind_eq (continues_accept (by decide)) fun _ => simulates_ite ?_ ?_
  · exact simulates_bind_eq (continues_supertypes fresh) fun _ => simulates_pure rfl
  · exact simulates_pure rfl

omit fresh in
theorem needsInput_openBody : NeedsInput openBody :=
  needsInput_of_error rfl

omit fresh in
theorem continues_openBody : Continues later openBody openBody := by
  refine continues_newlines_bind (needsInput_of_error rfl) ?_
  exact simulates_bind_eq (continues_expect (by decide) _) fun _ => simulates_pure rfl

omit fresh in
theorem whereClause_bind {α : Type} (next : Unit → Parser α) :
    whereClause >>= next =
      ahead (fun tokens => (Token.afterNewlines tokens).head?.any (·.isWord "where")) >>=
        fun isWhere => if isWhere = true then dropWhile (fun token => token.kind != .leftBrace) >>= next
          else next () := by
  funext tokens
  simp only [whereClause, bind_apply, ahead]
  split
  · next failed => split at failed <;> cases failed
  · next read =>
    split at read
    · next here =>
      rw [if_pos here]
      cases read
      rfl
    · next other =>
      rw [if_neg other]
      cases read
      rfl

/-- A `where` clause may run to the end of the first file, but then no body is opened. -/
theorem continues_whereClause_bind {α : Type} {next other : Unit → Parser α}
    (needs : NeedsInput (next ())) (continues : Continues later (next ()) (other ())) :
    Continues later (whereClause >>= next) (whereClause >>= other) := by
  rw [whereClause_bind, whereClause_bind]
  refine simulates_bind_eq (simulates_ahead fun joined => joined.whereAhead fresh) fun _ =>
    simulates_ite ?_ continues
  exact continues_dropWhile_bind (by simp +contextual) needs continues

theorem continues_body_bind {α : Type} {next other : Unit → Parser α}
    (continues : Continues later (next ()) (other ())) :
    Continues later (whereClause >>= fun _ => openBody >>= next)
      (whereClause >>= fun _ => openBody >>= other) := by
  refine continues_whereClause_bind fresh (needsInput_bind needsInput_openBody _) ?_
  exact simulates_bind_eq continues_openBody fun _ => continues

section Nested

variable {inner outer : Parser Declaration} (needs : NeedsInput inner)
  (continues : Continues later inner outer)

include needs continues

omit fresh in
theorem continues_specified : Continues later (specified inner) (specified outer) := by
  refine continues_nextKind_ite (by decide) continues_compilerControlLine ?_
  refine Attribute.continues_parseAll_bind ?_ ?_
  · intro attributes
    refine needsInput_of_bind_nil (show Modifier.parseAll [] = .ok ([], []) from rfl) ?_
    exact needsInput_bind needs _
  · intro attributes
    refine simulates_bind_eq Modifier.continues_parseAll fun modifiers => ?_
    exact simulates_bind_eq continues fun _ => simulates_pure rfl

omit fresh in
theorem continues_members : Continues later (members inner) (members outer) := by
  refine simulates_fix Joined.length_le fun more => ?_
  refine continues_separators_bind (needsInput_of_error rfl) ?_
  refine simulates_bind_eq (continues_accept (by decide)) fun _ => simulates_ite ?_ ?_
  · exact simulates_pure rfl
  refine continues_nextKind_bind rfl fun kind => ?_
  refine simulates_bind_eq (continues_specified needs continues) fun first => ?_
  exact simulates_bind_eq more fun _ => simulates_pure rfl

omit needs continues in
theorem continues_payload? : Continues later payload? payload? := by
  refine simulates_bind_eq (continues_accept (by decide)) fun _ => simulates_ite ?_ ?_
  · refine simulates_bind_eq (TypeExpr.continues_elements (TypeExpr.continues_parse fresh)
      TypeExpr.needsInput_parse fresh) fun _ => ?_
    exact simulates_pure rfl
  · exact simulates_pure rfl

omit needs continues in
theorem continues_enumCase : Continues later enumCase enumCase := by
  refine simulates_bind_eq continues_name fun name => ?_
  refine simulates_bind_eq (continues_payload? fresh) fun payload => ?_
  exact simulates_bind_eq (continues_initializer? fresh) fun _ => simulates_pure rfl

omit needs continues in
theorem continues_enumCases : Continues later enumCases enumCases := by
  refine simulates_fix_of_needsInput Joined.length_le (fun _ => needsInput_of_error rfl) ?_
  intro more further needs continues
  refine simulates_bind_eq (continues_enumCase fresh) fun first => ?_
  refine simulates_bind_eq (continues_accept (by decide)) fun _ => simulates_ite ?_ ?_
  · refine continues_newlines_bind (needsInput_bind needs _) ?_
    exact simulates_bind_eq continues fun _ => simulates_pure rfl
  · exact simulates_pure rfl

theorem continues_enumMember : Continues later (enumMember inner) (enumMember outer) := by
  refine Attribute.continues_parseAll_bind ?_ ?_
  · intro attributes
    refine needsInput_of_bind_nil (show acceptIf _ [] = .ok (false, []) from rfl) ?_
    refine needsInput_of_bind_nil (show acceptWord "case" [] = .ok (false, []) from rfl) ?_
    refine needsInput_of_bind_nil (show Modifier.parseAll [] = .ok ([], []) from rfl) ?_
    refine needsInput_of_bind_nil (show acceptWord "case" [] = .ok (false, []) from rfl) ?_
    exact needsInput_bind needs _
  intro attributes
  refine simulates_bind_eq (continues_acceptIf ⟨?_, ?_⟩) fun indirect => ?_
  · intro token rest remains joined
    rw [joined.wordAt_zero]
  · intro line isBreak
    simp [Token.isWord, isBreak]
  refine simulates_bind_eq (continues_acceptWord "case") fun _ => simulates_ite ?_ ?_
  · exact simulates_bind_eq (continues_enumCases fresh) fun _ => simulates_pure rfl
  refine simulates_bind_eq Modifier.continues_parseAll fun modifiers => ?_
  refine simulates_bind_eq (continues_acceptWord "case") fun _ => simulates_ite ?_ ?_
  · exact simulates_bind_eq (continues_enumCases fresh) fun _ => simulates_pure rfl
  · exact simulates_bind_eq continues fun _ => simulates_pure rfl

theorem continues_enumMembers : Continues later (enumMembers inner) (enumMembers outer) := by
  refine simulates_fix Joined.length_le fun more => ?_
  refine continues_separators_bind (needsInput_of_error rfl) ?_
  refine simulates_bind_eq (continues_accept (by decide)) fun _ => simulates_ite ?_ ?_
  · exact simulates_pure rfl
  refine continues_nextKind_bind rfl fun kind => ?_
  cases kind with
  | hash =>
    refine simulates_bind_eq continues_compilerControlLine fun first => ?_
    exact simulates_bind_eq more fun _ => simulates_pure rfl
  | _ =>
    refine simulates_bind_eq (continues_enumMember fresh needs continues) fun first => ?_
    exact simulates_bind_eq more fun _ => simulates_pure rfl

omit fresh needs continues in
theorem operatorName_joined {tokens others : List Token} (joined : Joined later tokens others) :
    (operatorName tokens).1 = (operatorName others).1 ∧
      Joined later (operatorName tokens).2 (operatorName others).2 := by
  have stops : ∀ {token : Token}, token.kind = .newline → operatorName.belongs token = false := by
    simp +contextual [operatorName.belongs]
  cases joined with
  | ended isBreak =>
    simp only [operatorName, isBreak]
    exact ⟨rfl, .ended isBreak⟩
  | endedLine lastBreak isBreak =>
    simp only [operatorName, lastBreak, isBreak]
    exact ⟨rfl, .endedLine lastBreak isBreak⟩
  | cons token joined =>
    simp only [operatorName]
    split
    · exact ⟨rfl, .cons token joined⟩
    · rw [joined.takeWhile_inside stops]
      exact ⟨rfl, joined.dropWhile_inside stops⟩

omit fresh needs continues in
theorem continues_functionName : Continues later functionName functionName := by
  refine simulates_bind_eq continues_name? ?_
  rintro (_ | name)
  · refine simulates_bind_eq ⟨?_⟩ fun name => ?_
    · intro tokens others value rest joined parsed
      obtain ⟨same, remains⟩ := operatorName_joined joined
      rw [Except.ok.inj parsed] at same remains
      exact ⟨_, _, rfl, same, remains⟩
    · exact simulates_ite simulates_fail (simulates_pure rfl)
  · exact simulates_pure rfl

theorem continues_afterKeyword (keyword : Keyword) :
    Continues later (afterKeyword inner keyword) (afterKeyword outer keyword) := by
  cases keyword with
  | composite kind =>
    refine simulates_bind_eq continues_name fun name => ?_
    refine simulates_bind_eq continues_genericParameters fun parameters => ?_
    refine simulates_bind_eq (continues_inheritance? fresh) fun inheritance => ?_
    refine continues_body_bind fresh ?_
    exact simulates_bind_eq (continues_members needs continues) fun _ => simulates_pure rfl
  | importPath =>
    refine simulates_bind_eq continues_importKind? fun kind => ?_
    exact simulates_bind_eq continues_importNames fun _ => simulates_pure rfl
  | enumeration =>
    refine simulates_bind_eq continues_name fun name => ?_
    refine simulates_bind_eq continues_genericParameters fun parameters => ?_
    refine simulates_bind_eq (continues_inheritance? fresh) fun inheritance => ?_
    refine continues_body_bind fresh ?_
    exact simulates_bind_eq (continues_enumMembers fresh needs continues) fun _ =>
      simulates_pure rfl
  | protocol =>
    refine simulates_bind_eq continues_name fun name => ?_
    refine simulates_bind_eq continues_primaryAssociatedTypes fun _ => ?_
    refine simulates_bind_eq (continues_inheritance? fresh) fun inheritance => ?_
    refine continues_body_bind fresh ?_
    exact simulates_bind_eq (continues_members needs continues) fun _ => simulates_pure rfl
  | extension =>
    refine simulates_bind_eq (TypeExpr.continues_path (TypeExpr.continues_parse fresh))
      fun extended => ?_
    refine simulates_bind_eq (continues_inheritance? fresh) fun inheritance => ?_
    refine continues_body_bind fresh ?_
    exact simulates_bind_eq (continues_members needs continues) fun _ => simulates_pure rfl
  | letDeclaration =>
    exact simulates_bind_eq (Binding.continues_parseAll fresh) fun _ => simulates_pure rfl
  | varDeclaration =>
    exact simulates_bind_eq (Storage.continues_parse fresh) fun _ => simulates_pure rfl
  | function =>
    refine simulates_bind_eq continues_functionName fun name => ?_
    exact simulates_bind_eq (continues_signature fresh) fun _ => simulates_pure rfl
  | initializer =>
    refine simulates_bind_eq (continues_acceptIf (settled_token (fun token =>
      token.touches && (token.kind == .question || token.kind == .bang)) ?_)) fun failable => ?_
    · intro token isBreak
      simp [isBreak]
    · exact simulates_bind_eq (continues_signature fresh) fun _ => simulates_pure rfl
  | deinitializer =>
    exact simulates_bind_eq (continues_signature fresh) fun _ => simulates_pure rfl
  | subscript =>
    exact simulates_bind_eq (continues_signature fresh) fun _ => simulates_pure rfl
  | typeAlias =>
    refine simulates_bind_eq continues_name fun name => ?_
    refine simulates_bind_eq continues_genericParameters fun _ => ?_
    refine simulates_bind_eq (continues_expect (by decide) _) fun _ => ?_
    exact simulates_bind_eq (TypeExpr.continues_parse fresh) fun _ => simulates_pure rfl
  | associatedType =>
    refine simulates_bind_eq continues_name fun name => ?_
    exact simulates_bind_eq continues_restOfLine fun _ => simulates_pure rfl
  | operator => exact simulates_bind_eq continues_restOfLine fun _ => simulates_pure rfl
  | precedenceGroup =>
    refine simulates_bind_eq continues_name fun name => ?_
    refine continues_newlines_bind (needsInput_bind needsInput_block _) ?_
    exact simulates_bind_eq continues_block fun _ => simulates_pure rfl

omit fresh needs continues in
theorem continues_keyword : Continues later keyword keyword := by
  refine simulates_bind_eq (continues_takeIf (settled_token
    (fun token => (Keyword.ofToken? token).isSome) ?_)) fun found => ?_
  · intro token isBreak
    simp [Keyword.ofToken?, isBreak]
  · cases found.bind Keyword.ofToken? with
    | none => exact simulates_fail
    | some keyword => exact simulates_pure rfl

theorem continues_step : Continues later (step inner) (step outer) :=
  simulates_bind_eq continues_keyword fun keyword =>
    continues_afterKeyword fresh needs continues keyword

end Nested

theorem continues_afterSpecifiers : Continues later afterSpecifiers afterSpecifiers :=
  simulates_fix_of_needsInput Joined.length_le (fun _ => needsInput_step _) (continues_step fresh)

/-- A declaration of the first file is read from the joined files. -/
theorem continues_parse : Continues later parse parse :=
  continues_specified needsInput_afterSpecifiers (continues_afterSpecifiers fresh)

end Declaration
end SwiftLens
