import SwiftLens.Proofs.Layout.Types

namespace SwiftLens

open SwiftLens.Parser

namespace Pattern

theorem agree_elements {inner outer : Parser Pattern} (agree : Agree inner outer) :
    Agree (elements inner) (elements outer) := by
  apply simulates_fix Relaid.length_le
  intro _ _ more
  apply simulates_bind_eq agree_newlines
  intro _
  apply simulates_choice (agree_accept _) (simulates_pure rfl)
  apply simulates_bind_eq agree
  intro first
  apply simulates_bind_eq agree_newlines
  intro _
  apply simulates_choice (agree_accept _)
  · exact simulates_bind_eq more fun _ => simulates_pure rfl
  · exact simulates_bind (relaid_expect _ _) fun _ _ _ => simulates_pure rfl

theorem agree_step {inner outer : Parser Pattern} (agree : Agree inner outer) :
    Agree (step inner) (step outer) := by
  apply simulates_choice (agree_accept _)
  · apply simulates_bind_eq (agree_elements agree)
    intro elements
    exact simulates_bind_eq TypeExpr.agree_afterColon? fun _ => simulates_pure rfl
  · apply simulates_bind_eq agree_name
    intro name
    exact simulates_bind_eq TypeExpr.agree_afterColon? fun _ => simulates_pure rfl

theorem agree_parse : Agree parse parse :=
  simulates_fix Relaid.length_le agree_step

end Pattern

theorem Binding.skeleton_eq (pattern : Pattern) {initializer image : Option String}
    (same : erased initializer = erased image) :
    Binding.skeleton ⟨pattern, initializer⟩ = Binding.skeleton ⟨pattern, image⟩ := by
  simp only [Binding.skeleton, same]

theorem Binding.agreeOn_parseAll : AgreeOn (List.map Binding.skeleton) parseAll parseAll := by
  apply simulates_fix Relaid.length_le
  intro _ _ more
  apply simulates_bind_eq Pattern.agree_parse
  intro pattern
  apply simulates_bind agreeOn_initializer?
  intro initializer image same
  apply simulates_choice (agree_accept _)
  · apply simulates_bind_eq agree_newlines
    intro _
    exact agreeOn_cons more (Binding.skeleton_eq pattern same)
  · apply simulates_pure
    rw [List.map_singleton, List.map_singleton, Binding.skeleton_eq pattern same]

namespace Storage

theorem skeleton_afterBinding (binding : Binding) (storage : Storage) :
    (storage.afterBinding binding).skeleton = storage.skeleton.afterBinding binding.skeleton := by
  cases storage <;> rfl

theorem agreeOn_accessors (name : Name) (typing : Option TypeExpr) :
    AgreeOn skeleton (accessors name typing) (accessors name typing) := by
  apply simulates_choice (agree_ahead Relaid.opensObservers)
  · apply simulates_bind_eq agree_newlines
    intro _
    exact simulates_bind_eq agree_block fun _ => simulates_pure rfl
  · cases typing with
    | none => exact simulates_fail
    | some type =>
      apply simulates_bind_eq agree_newlines
      intro _
      exact simulates_bind_eq agree_block fun _ => simulates_pure rfl

section Nested

variable (first : Bool) {inner outer : Parser Storage} (agree : AgreeOn skeleton inner outer)

include agree

theorem agreeOn_afterPattern (pattern : Pattern) :
    AgreeOn skeleton (afterPattern first pattern inner) (afterPattern first pattern outer) := by
  apply simulates_bind agreeOn_initializer?
  intro initializer image same
  apply simulates_bind_eq (agree_ahead Relaid.opensObserversHere)
  intro _
  apply simulates_ite
  · cases pattern with
    | identifier name typing =>
      apply simulates_bind_eq agree_block
      intro _
      apply simulates_pure
      rw [skeleton, skeleton, same]
    | _ => exact simulates_fail
  apply simulates_choice (agree_accept _)
  · apply simulates_bind_eq agree_newlines
    intro _
    apply simulates_bind agree
    intro storage other sameStorage
    apply simulates_pure
    rw [skeleton_afterBinding, skeleton_afterBinding, sameStorage, Binding.skeleton_eq pattern same]
  · apply simulates_pure
    rw [skeleton, skeleton, List.map_singleton, List.map_singleton,
      Binding.skeleton_eq pattern same]

theorem agreeOn_step : AgreeOn skeleton (step first inner) (step first outer) := by
  apply simulates_bind_eq Pattern.agree_parse
  intro pattern
  cases pattern with
  | identifier name typing =>
    exact simulates_choice (agree_ahead Relaid.opensBlock) (agreeOn_accessors name typing)
      (agreeOn_afterPattern first agree _)
  | _ => exact agreeOn_afterPattern first agree _

end Nested

theorem agreeOn_parse : AgreeOn skeleton parse parse :=
  agreeOn_step true (simulates_fix Relaid.length_le (agreeOn_step false))

end Storage

namespace Declaration

theorem agreeOn_compilerControlLine :
    AgreeOn skeleton compilerControlLine compilerControlLine := by
  apply simulates_bind (relaid_expect _ _)
  intro _ _ _
  apply simulates_bind (relaid_expect _ _)
  intro directive image alike
  rw [alike.text]
  apply simulates_bind (relaid_takeWhile fun alike => by rw [alike.isNewline])
  intro condition others relaid
  rw [relaid.isEmpty]
  apply simulates_ite
  · exact simulates_pure rfl
  · apply simulates_pure
    simp only [skeleton, erased, Option.map_some]

theorem agree_importKind? : Agree importKind? importKind? := by
  have sees : SeesNoGaps fun token rest =>
      token.kind == .identifier && importKinds.contains token.text &&
        Token.kindAt 0 rest == some .identifier :=
    ⟨fun alike relaid => by rw [alike.kind, alike.text, relaid.kindAt]⟩
  apply simulates_bind (relaid_takeIf sees)
  intro found image alike
  apply simulates_pure
  cases alike with
  | some alike => rw [Option.map_some, Option.map_some, alike.text]
  | none => rfl

theorem agree_importNames : Agree importNames importNames := by
  apply simulates_fix Relaid.length_le
  intro _ _ more
  apply simulates_bind_eq agree_name
  intro name
  apply simulates_choice (agree_accept _)
  · exact simulates_bind_eq more fun _ => simulates_pure rfl
  · exact simulates_pure rfl

theorem genericNames_relaid {depth : Nat} {awaiting : Bool} {tokens others rest : List Token}
    {names : List String} (relaid : Relaid tokens others)
    (found : genericNames depth awaiting tokens = some (names, rest)) :
    ∃ remains, genericNames depth awaiting others = some (names, remains) ∧
      Relaid rest remains := by
  induction relaid generalizing depth awaiting names rest with
  | nil => simp [genericNames] at found
  | @cons token image tokens others alike relaid ih =>
    cases kind : token.kind with
    | greater =>
      cases depth with
      | zero =>
        simp only [genericNames, ← alike.kind, kind] at found ⊢
        cases found
        exact ⟨others, rfl, relaid⟩
      | succ depth =>
        simp only [genericNames, ← alike.kind, kind] at found ⊢
        exact ih found
    | identifier =>
      simp only [genericNames, ← alike.kind, ← alike.text, kind] at found ⊢
      by_cases counts : (depth == 0 && awaiting && token.text != "each") = true
      · rw [if_pos counts] at found ⊢
        obtain ⟨⟨more, after⟩, foundMore, same⟩ := Option.map_eq_some_iff.mp found
        cases same
        obtain ⟨remains, foundOther, relaid⟩ := ih foundMore
        exact ⟨remains, by rw [foundOther]; rfl, relaid⟩
      · rw [if_neg counts] at found ⊢
        exact ih found
    | _ =>
      simp only [genericNames, ← alike.kind, kind] at found ⊢
      exact ih found

theorem agree_genericParameters : Agree genericParameters genericParameters := by
  apply simulates_choice (agree_accept _)
  · constructor
    intro tokens others names rest relaid parsed
    split at parsed
    · next found after named =>
      cases parsed
      obtain ⟨remains, namedOther, relaid⟩ := genericNames_relaid relaid named
      rw [namedOther]
      exact ⟨_, _, rfl, rfl, relaid⟩
    · cases parsed
  · exact simulates_pure rfl

theorem agree_primaryAssociatedTypes : Agree primaryAssociatedTypes primaryAssociatedTypes :=
  simulates_choice (agree_accept _) (agree_closeGroup_bind _ (simulates_pure rfl))
    (simulates_pure rfl)

theorem agree_supertype : Agree supertype supertype := by
  apply simulates_choice (agree_acceptIf ⟨fun alike _ => by rw [alike.kind, alike.text]⟩)
  · exact simulates_bind_eq TypeExpr.agree_parse fun _ => simulates_pure rfl
  · apply simulates_bind_eq TypeExpr.agree_parse
    intro type
    cases type with
    | named path => exact simulates_pure rfl
    | _ => exact simulates_pure rfl

theorem agree_supertypes : Agree supertypes supertypes := by
  apply simulates_fix Relaid.length_le
  intro _ _ more
  apply simulates_bind_eq agree_newlines
  intro _
  apply simulates_bind_eq Attribute.agree_skipAll
  intro _
  apply simulates_bind_eq agree_supertype
  intro listed
  apply simulates_choice (agree_accept _)
  · exact simulates_bind_eq more fun _ => simulates_pure rfl
  · exact simulates_pure rfl

theorem agree_inheritance? : Agree inheritance? inheritance? := by
  apply simulates_choice (agree_accept _)
  · exact simulates_bind_eq agree_supertypes fun _ => simulates_pure rfl
  · exact simulates_pure rfl

theorem agree_whereClause : Agree whereClause whereClause := by
  apply simulates_choice (agree_ahead ?_)
  · exact agree_dropWhile fun alike => by rw [alike.kind]
  · exact simulates_pure rfl
  · exact fun relaid => relaid.afterNewlines.head?_any fun alike => alike.isWord "where"

theorem agree_openBody : Agree openBody openBody := by
  apply simulates_bind_eq agree_newlines
  intro _
  exact simulates_bind (relaid_expect _ _) fun _ _ _ => simulates_pure rfl

/-- What stands between the name of a type and its members. -/
theorem simulates_opening {α β : Type} {Same : α → β → Prop}
    {next : Option (List TypePath) → Parser α} {other : Option (List TypePath) → Parser β}
    (later : ∀ inheritance, Simulates Relaid Same (next inheritance) (other inheritance)) :
    Simulates Relaid Same
      (inheritance? >>= fun inheritance => whereClause >>= fun _ => openBody >>= fun _ =>
        next inheritance)
      (inheritance? >>= fun inheritance => whereClause >>= fun _ => openBody >>= fun _ =>
        other inheritance) := by
  apply simulates_bind_eq agree_inheritance?
  intro inheritance
  apply simulates_bind_eq agree_whereClause
  intro _
  apply simulates_bind_eq agree_openBody
  intro _
  exact later inheritance

theorem agree_payload? : Agree payload? payload? := by
  apply simulates_choice (agree_accept _)
  · exact simulates_bind_eq (TypeExpr.agree_elements TypeExpr.agree_parse) fun _ =>
      simulates_pure rfl
  · exact simulates_pure rfl

theorem agreeOn_enumCase : AgreeOn EnumCase.skeleton enumCase enumCase := by
  apply simulates_bind_eq agree_name
  intro name
  apply simulates_bind_eq agree_payload?
  intro payload
  apply simulates_bind agreeOn_initializer?
  intro rawValue image same
  apply simulates_pure
  simp only [EnumCase.skeleton, same]

theorem agreeOn_enumCases : AgreeOn (List.map EnumCase.skeleton) enumCases enumCases := by
  apply simulates_fix Relaid.length_le
  intro _ _ more
  apply simulates_bind agreeOn_enumCase
  intro first image same
  apply simulates_choice (agree_accept _)
  · apply simulates_bind_eq agree_newlines
    intro _
    exact agreeOn_cons more same
  · apply simulates_pure
    rw [List.map_singleton, List.map_singleton, same]

theorem functionName_word {token : Token} {word : Name} (named : Name.ofToken? token = some word)
    (rest : List Token) : functionName (token :: rest) = .ok (word.spelling, rest) := by
  have next : Name.next? (token :: rest) = .ok (some word, rest) := by
    rw [Name.next?, bind_apply, takeIf_cons, if_pos (by rw [named]; rfl)]
    exact congrArg (fun found => Except.ok (found, rest)) named
  rw [functionName, bind_of_ok next]
  rfl

theorem functionName_operator {token : Token} (unnamed : Name.ofToken? token = none)
    (rest : List Token) :
    functionName (token :: rest) =
      if token.kind == .leftParen || token.kind == .newline then
        .error ⟨"function name", token :: rest⟩
      else
        .ok (Token.slice (token :: rest.takeWhile operatorName.belongs),
          rest.dropWhile operatorName.belongs) := by
  have next : Name.next? (token :: rest) = .ok (none, token :: rest) := by
    rw [Name.next?, bind_apply, takeIf_cons, if_neg (by simp [unnamed])]
    rfl
  rw [functionName, bind_of_ok next]
  change (if (operatorName (token :: rest)).1.isEmpty then fail "function name"
    else pure (Token.slice (operatorName (token :: rest)).1) : Parser String)
      (operatorName (token :: rest)).2 = _
  rw [operatorName]
  split
  · rfl
  · rfl

/-- An operator does not begin like a word, so nothing of it is kept. -/
theorem nameSkeleton_slice {token : Token} (spelled : token.Spelled)
    (unnamed : Name.ofToken? token = none) (inLine : token.kind ≠ .newline) (rest : List Token) :
    nameSkeleton (Token.slice (token :: rest)) = "" := by
  rcases spelled with isBreak | ⟨written, isName⟩
  · exact absurd isBreak inLine
  have notWord : namedByWord token.text = false := by
    rw [unnamed] at isName
    simpa using isName
  have first : (Token.slice (token :: rest)).toList.head? = token.text.toList.head? := by
    rw [Token.slice, String.toList_append, List.head?_append_of_ne_nil]
    simpa using written
  have notWordSlice : namedByWord (Token.slice (token :: rest)) = false := by
    rw [namedByWord, first]
    exact notWord
  rw [nameSkeleton, notWordSlice]
  rfl

theorem agreeOn_functionName : AgreeOn nameSkeleton functionName functionName where
  reads {tokens others value rest} relaid parsed := by
    cases relaid with
    | nil => cases parsed
    | @cons token image after remains alike relaid =>
      cases named : Name.ofToken? token with
      | some word =>
        rw [functionName_word named] at parsed
        cases parsed
        exact ⟨_, _, functionName_word (alike.name ▸ named) remains, rfl, relaid⟩
      | none =>
        have unnamed : Name.ofToken? image = none := alike.name ▸ named
        have belongs : ∀ {left right : Token}, left.Alike right →
            operatorName.belongs left = operatorName.belongs right := by
          intro left right alike
          rw [operatorName.belongs, operatorName.belongs, alike.kind]
        rw [functionName_operator named] at parsed
        rw [functionName_operator unnamed, ← alike.kind]
        split at parsed
        · cases parsed
        · next inLine =>
          cases parsed
          rw [if_neg inLine]
          simp only [Bool.or_eq_true, beq_iff_eq, not_or] at inLine
          refine ⟨_, _, rfl, ?_, Relaid.dropWhile belongs relaid⟩
          rw [nameSkeleton_slice alike.spelled named inLine.2,
            nameSkeleton_slice alike.symm.spelled unnamed (alike.kind ▸ inLine.2)]

theorem agree_keyword : Agree keyword keyword := by
  have same : ∀ {token image : Token}, token.Alike image →
      Keyword.ofToken? token = Keyword.ofToken? image := by
    intro token image alike
    rw [Keyword.ofToken?, Keyword.ofToken?, alike.kind, alike.text]
  apply simulates_bind (relaid_takeIf ⟨fun alike _ => by rw [same alike]⟩)
  intro found image alike
  have sameWord : found.bind Keyword.ofToken? = image.bind Keyword.ofToken? := by
    cases alike with
    | some alike => exact same alike
    | none => rfl
  rw [sameWord]
  cases image.bind Keyword.ofToken? with
  | none => exact simulates_fail
  | some keyword => exact simulates_pure rfl

section Nested

variable {inner outer : Parser Declaration} (agree : AgreeOn skeleton inner outer)

include agree

omit agree in
theorem skeleton_withSpecifiers_eq {declared image : Declaration}
    (sameDeclared : declared.skeleton = image.skeleton) {attributes others : List Attribute}
    (same : attributes.map Attribute.skeleton = others.map Attribute.skeleton)
    (modifiers : List Modifier) :
    (declared.withSpecifiers ⟨attributes, modifiers⟩).skeleton =
      (image.withSpecifiers ⟨others, modifiers⟩).skeleton := by
  have sameSpecifiers : Specifiers.skeleton ⟨attributes, modifiers⟩ =
      Specifiers.skeleton ⟨others, modifiers⟩ := by
    simp only [Specifiers.skeleton, same]
  rw [skeleton_withSpecifiers, skeleton_withSpecifiers, sameDeclared, sameSpecifiers]

theorem agreeOn_specified : AgreeOn skeleton (specified inner) (specified outer) := by
  apply simulates_bind_eq agree_nextKind
  intro _
  apply simulates_ite agreeOn_compilerControlLine
  apply simulates_bind Attribute.agreeOn_parseAll
  intro attributes others same
  apply simulates_bind_eq Modifier.agree_parseAll
  intro modifiers
  apply simulates_bind agree
  intro declared image sameDeclared
  exact simulates_pure (skeleton_withSpecifiers_eq sameDeclared same modifiers)

theorem agreeOn_members : AgreeOn (List.map skeleton) (members inner) (members outer) := by
  apply simulates_fix Relaid.length_le
  intro _ _ more
  apply simulates_bind_eq agree_separators
  intro _
  apply simulates_choice (agree_accept _)
  · exact simulates_pure rfl
  apply simulates_bind_eq agree_nextKind
  intro _
  apply simulates_ite simulates_fail
  apply simulates_bind (agreeOn_specified agree)
  intro first image same
  exact agreeOn_cons more same

omit agree in
theorem agreeOn_caseClause (indirect : Bool) :
    AgreeOn memberSkeleton (enumCases >>= fun found => pure (.cases ⟨indirect, found⟩))
      (enumCases >>= fun found => pure (.cases ⟨indirect, found⟩)) := by
  apply simulates_bind agreeOn_enumCases
  intro found others same
  apply simulates_pure
  rw [memberSkeleton, memberSkeleton, CaseClause.skeleton, CaseClause.skeleton, same]

theorem agreeOn_enumMember : AgreeOn memberSkeleton (enumMember inner) (enumMember outer) := by
  apply simulates_bind Attribute.agreeOn_parseAll
  intro attributes others same
  have sees : SeesNoGaps fun token rest =>
      token.isWord "indirect" && Token.wordAt 0 rest == some "case" :=
    ⟨fun alike relaid => by rw [alike.isWord, relaid.wordAt]⟩
  apply simulates_bind_eq (agree_acceptIf sees)
  intro indirect
  apply simulates_choice (agree_acceptWord "case") (agreeOn_caseClause indirect)
  apply simulates_bind_eq Modifier.agree_parseAll
  intro modifiers
  apply simulates_choice (agree_acceptWord "case") (agreeOn_caseClause _)
  apply simulates_bind agree
  intro declared image sameDeclared
  apply simulates_pure
  rw [memberSkeleton, memberSkeleton, skeleton_withSpecifiers_eq sameDeclared same modifiers]

theorem agreeOn_enumMembers :
    AgreeOn (List.map memberSkeleton) (enumMembers inner) (enumMembers outer) := by
  apply simulates_fix Relaid.length_le
  intro left right more
  apply simulates_bind_eq agree_separators
  intro _
  apply simulates_choice (agree_accept _)
  · exact simulates_pure rfl
  apply simulates_bind_eq agree_nextKind
  intro found
  have member : AgreeOn (List.map memberSkeleton)
      (enumMember inner >>= fun first => left >>= fun later => pure (first :: later))
      (enumMember outer >>= fun first => right >>= fun later => pure (first :: later)) := by
    apply simulates_bind (agreeOn_enumMember agree)
    intro first image same
    exact agreeOn_cons more same
  cases found with
  | none => exact simulates_fail
  | some kind =>
    cases kind with
    | hash =>
      apply simulates_bind agreeOn_compilerControlLine
      intro first image same
      exact agreeOn_cons more (congrArg EnumMember.declaration same)
    | _ => exact member

theorem agreeOn_afterKeyword (keyword : Keyword) :
    AgreeOn skeleton (afterKeyword inner keyword) (afterKeyword outer keyword) := by
  cases keyword with
  | composite kind =>
    apply simulates_bind_eq agree_name
    intro name
    apply simulates_bind_eq agree_genericParameters
    intro parameters
    apply simulates_opening
    intro inheritance
    apply simulates_bind (agreeOn_members agree)
    intro members others same
    apply simulates_pure
    rw [skeleton, skeleton, skeletons_eq_map, skeletons_eq_map, same]
  | importPath =>
    apply simulates_bind_eq agree_importKind?
    intro kind
    exact simulates_bind_eq agree_importNames fun _ => simulates_pure rfl
  | enumeration =>
    apply simulates_bind_eq agree_name
    intro name
    apply simulates_bind_eq agree_genericParameters
    intro parameters
    apply simulates_opening
    intro inheritance
    apply simulates_bind (agreeOn_enumMembers agree)
    intro members others same
    apply simulates_pure
    rw [skeleton, skeleton, memberSkeletons_eq_map, memberSkeletons_eq_map, same]
  | protocol =>
    apply simulates_bind_eq agree_name
    intro name
    apply simulates_bind_eq agree_primaryAssociatedTypes
    intro _
    apply simulates_opening
    intro inheritance
    apply simulates_bind (agreeOn_members agree)
    intro members others same
    apply simulates_pure
    rw [skeleton, skeleton, skeletons_eq_map, skeletons_eq_map, same]
  | extension =>
    apply simulates_bind_eq (TypeExpr.agree_path TypeExpr.agree_parse)
    intro extended
    apply simulates_opening
    intro inheritance
    apply simulates_bind (agreeOn_members agree)
    intro members others same
    apply simulates_pure
    rw [skeleton, skeleton, skeletons_eq_map, skeletons_eq_map, same]
  | letDeclaration =>
    apply simulates_bind Binding.agreeOn_parseAll
    intro bindings others same
    apply simulates_pure
    rw [skeleton, skeleton, same]
  | varDeclaration =>
    apply simulates_bind Storage.agreeOn_parse
    intro storage other same
    apply simulates_pure
    rw [skeleton, skeleton, same]
  | function =>
    apply simulates_bind agreeOn_functionName
    intro name image same
    apply simulates_bind_eq agree_signature
    intro hasBody
    apply simulates_pure
    rw [skeleton, skeleton, same]
  | initializer =>
    have sees : SeesNoGaps fun token _ =>
        token.touches && (token.kind == .question || token.kind == .bang) :=
      ⟨fun alike _ => by rw [alike.touches, alike.kind]⟩
    apply simulates_bind_eq (agree_acceptIf sees)
    intro failable
    exact simulates_bind_eq agree_signature fun _ => simulates_pure rfl
  | deinitializer => exact simulates_bind_eq agree_signature fun _ => simulates_pure rfl
  | subscript => exact simulates_bind_eq agree_signature fun _ => simulates_pure rfl
  | typeAlias =>
    apply simulates_bind_eq agree_name
    intro name
    apply simulates_bind_eq agree_genericParameters
    intro _
    apply simulates_bind (relaid_expect _ _)
    intro _ _ _
    exact simulates_bind_eq TypeExpr.agree_parse fun _ => simulates_pure rfl
  | associatedType =>
    apply simulates_bind_eq agree_name
    intro name
    exact simulates_bind relaid_restOfLine fun _ _ _ => simulates_pure rfl
  | operator =>
    apply simulates_bind relaid_restOfLine
    intro _ _ _
    apply simulates_pure
    rw [skeleton, skeleton]
  | precedenceGroup =>
    apply simulates_bind_eq agree_name
    intro name
    apply simulates_bind_eq agree_newlines
    intro _
    exact simulates_bind_eq agree_block fun _ => simulates_pure rfl

theorem agreeOn_step : AgreeOn skeleton (step inner) (step outer) := by
  apply simulates_bind_eq agree_keyword
  intro keyword
  exact agreeOn_afterKeyword agree keyword

end Nested

theorem agreeOn_parse : AgreeOn skeleton parse parse :=
  agreeOn_specified (simulates_fix Relaid.length_le agreeOn_step)

/-- Token lists that differ in their gaps only declare the same up to skeletons. -/
theorem agreeOn_parseAll : AgreeOn (List.map skeleton) parseAll parseAll := by
  apply simulates_fix Relaid.length_le
  intro _ _ more
  apply simulates_bind_eq agree_separators
  intro _
  apply simulates_bind_eq agree_nextKind
  intro _
  apply simulates_ite
  · exact simulates_pure rfl
  · apply simulates_bind agreeOn_parse
    intro first image same
    exact agreeOn_cons more same

end Declaration
end SwiftLens
