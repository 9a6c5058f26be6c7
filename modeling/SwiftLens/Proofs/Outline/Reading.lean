import SwiftLens.Proofs.Outline.Names
import SwiftLens.SourceFile

namespace SwiftLens

open SwiftLens.Parser SwiftLens.Token

def FieldOutline.typeExpr (field : FieldOutline) : TypeExpr :=
  if field.isOptional then .optional (.simple field.type) else .simple field.type

def FieldOutline.pattern (field : FieldOutline) : Pattern :=
  .identifier (.plain field.name) (some field.typeExpr)

def FieldOutline.declaration (field : FieldOutline) : Declaration :=
  if field.isVariable then .varDeclaration .none (.stored [⟨field.pattern, none⟩])
  else .letDeclaration .none [⟨field.pattern, none⟩]

def FieldOutline.bindingTokens (field : FieldOutline) : List Token :=
  [word " " field.name, ⟨.colon, "", ":"⟩, word " " field.type] ++
    if field.isOptional then [⟨.question, "", "?"⟩] else []

namespace FieldOutline

variable {field : FieldOutline} (lexable : field.Lexable) {rest : List Token}
  (follows : LineFollows rest)

include lexable follows

theorem parse_pattern : Pattern.parse (field.bindingTokens ++ rest) = .ok (field.pattern, rest) := by
  obtain ⟨following, tail, rfl, -⟩ := follows
  have typed : TypeExpr.parse ((word " " field.type :: if field.isOptional then
      [⟨.question, "", "?"⟩] else []) ++ ⟨.newline, "\n", ""⟩ :: following :: tail) =
        .ok (field.typeExpr, ⟨.newline, "\n", ""⟩ :: following :: tail) := by
    unfold typeExpr
    split
    · exact TypeExpr.parse_optional_word lexable.type " " (by simp [TypeExpr.Ends]) _
    · exact TypeExpr.parse_word lexable.type " " (by simp [TypeExpr.Ends]) _
  have annotated : TypeExpr.afterColon? (⟨.colon, "", ":"⟩ :: ((word " " field.type ::
      if field.isOptional then [⟨.question, "", "?"⟩] else []) ++
        ⟨.newline, "\n", ""⟩ :: following :: tail)) =
      .ok (some field.typeExpr, ⟨.newline, "\n", ""⟩ :: following :: tail) := by
    rw [TypeExpr.afterColon?, bind_of_ok (accept_mark _ _ _ _), if_pos rfl, bind_of_ok typed]
    rfl
  rw [Pattern.parse, bindingTokens, List.append_assoc, List.cons_append, fix_apply, Pattern.step,
    bind_of_ok (accept_of_ne (by simp [word]) _), if_neg (by simp),
    bind_of_ok (Name.parse_word lexable.name " " _)]
  exact bind_of_ok annotated

theorem parse_binding :
    Binding.parseAll (field.bindingTokens ++ rest) = .ok ([⟨field.pattern, none⟩], rest) := by
  have pattern := parse_pattern lexable follows
  obtain ⟨following, tail, rfl, -⟩ := follows
  rw [Binding.parseAll, fix_apply, bind_of_ok pattern,
    bind_of_ok (initializer?_of_ne (by simp) _), bind_of_ok (accept_of_ne (by simp) _)]
  rfl

theorem parse_storage :
    Storage.parse (field.bindingTokens ++ rest) = .ok (.stored [⟨field.pattern, none⟩], rest) := by
  have pattern := parse_pattern lexable follows
  obtain ⟨following, tail, rfl, kinds⟩ := follows
  have noBlock : ahead Storage.opensBlock (⟨.newline, "\n", ""⟩ :: following :: tail) =
      .ok (false, ⟨.newline, "\n", ""⟩ :: following :: tail) := by
    simp only [List.mem_cons, List.not_mem_nil, or_false] at kinds
    rcases kinds with kind | kind <;>
      simp [ahead, Storage.opensBlock, Token.afterNewlines, Token.isNewline, Token.kindAt, kind]
  have noObservers : ahead Storage.opensObserversHere (⟨.newline, "\n", ""⟩ :: following :: tail) =
      .ok (false, ⟨.newline, "\n", ""⟩ :: following :: tail) := by
    simp [ahead, Storage.opensObserversHere, Token.kindAt]
  rw [Storage.parse, Storage.step, bind_of_ok pattern]
  simp only [FieldOutline.pattern]
  rw [bind_of_ok noBlock, if_neg (by simp), Storage.afterPattern,
    bind_of_ok (initializer?_of_ne (by simp) _), bind_of_ok noObservers, if_neg (by simp),
    bind_of_ok (accept_of_ne (by simp) _)]
  rfl

end FieldOutline

theorem Attribute.parseAll_of_ne {token : Token} (noMark : token.kind ≠ .at) (rest : List Token) :
    parseAll (token :: rest) = .ok ([], token :: rest) := by
  have other : Token.kindAt 0 (token :: rest) ≠ some .at := by simpa [Token.kindAt] using noMark
  rw [parseAll, fix_apply, bind_of_ok (show nextKind (token :: rest) = .ok (_, _) from rfl),
    if_neg other]
  rfl

structure Modifier.IsOther (text : String) : Prop where
  noAccess : AccessLevel.ofKeyword? text = none
  noModifier : Modifier.ofKeyword? text = none

theorem Modifier.parseAll_of_isOther {text : String} (other : IsOther text) (gap : String)
    (rest : List Token) : parseAll (word gap text :: rest) = .ok ([], word gap text :: rest) := by
  have noAccess : leadingAccess? (word gap text) rest = none := by
    unfold leadingAccess?
    simp only [word, if_true, other.noAccess]
    split <;> rfl
  have unread : next? (word gap text :: rest) = .ok (none, word gap text :: rest) := by
    have isWord : (word gap text).kind = .identifier := rfl
    have noModifier : ofKeyword? (word gap text).text = .none := other.noModifier
    simp [next?, leading?, noAccess, isWord, noModifier]
  rw [parseAll, fix_apply, bind_of_ok unread]
  rfl

namespace Declaration

theorem step_keyword {text : String} {stands : Keyword}
    (isKeyword : Keyword.ofWord? text = some stands) {inner : Parser Declaration}
    {rest remains : List Token} {declaration : Declaration}
    (read : afterKeyword inner stands rest = .ok (declaration, remains)) :
    step inner (word "" text :: rest) = .ok (declaration, remains) := by
  have here : Keyword.ofToken? (word "" text) = some stands := isKeyword
  have found : keyword (word "" text :: rest) = .ok (stands, rest) := by
    simp [keyword, bind_apply, takeIf_cons, here, pure_apply]
  rw [step, bind_of_ok found, read]

/-- A declaration that begins with its keyword has no specifiers. -/
theorem specified_word {text : String} (other : Modifier.IsOther text) {inner : Parser Declaration}
    {rest remains : List Token} {declaration : Declaration}
    (read : inner (word "" text :: rest) = .ok (declaration, remains)) :
    specified inner (word "" text :: rest) = .ok (declaration.withSpecifiers .none, remains) := by
  have noHash : Token.kindAt 0 (word "" text :: rest) ≠ some .hash := by simp [Token.kindAt, word]
  rw [specified, bind_of_ok (show nextKind (word "" text :: rest) = .ok (_, _) from rfl),
    if_neg noHash, bind_of_ok (Attribute.parseAll_of_ne (by simp [word]) _),
    bind_of_ok (Modifier.parseAll_of_isOther other "" _), bind_of_ok read]
  rfl

end Declaration

theorem FieldOutline.specified_tokens {field : FieldOutline} (lexable : field.Lexable)
    (inner : Parser Declaration) {rest : List Token} (follows : LineFollows rest) :
    Declaration.specified (Declaration.step inner) (field.tokens ++ rest) =
      .ok (field.declaration, rest) := by
  have split : field.tokens ++ rest = word "" field.keyword :: (field.bindingTokens ++ rest) := by
    simp [tokens, bindingTokens]
  rw [split]
  unfold FieldOutline.keyword declaration
  cases field.isVariable with
  | true =>
    have read : Declaration.afterKeyword inner .varDeclaration (field.bindingTokens ++ rest) =
        .ok (.varDeclaration .none (.stored [⟨field.pattern, none⟩]), rest) := by
      rw [Declaration.afterKeyword, bind_of_ok (parse_storage lexable follows)]
      rfl
    exact Declaration.specified_word ⟨rfl, rfl⟩ (Declaration.step_keyword rfl read)
  | false =>
    have read : Declaration.afterKeyword inner .letDeclaration (field.bindingTokens ++ rest) =
        .ok (.letDeclaration .none [⟨field.pattern, none⟩], rest) := by
      rw [Declaration.afterKeyword, bind_of_ok (parse_binding lexable follows)]
      rfl
    exact Declaration.specified_word ⟨rfl, rfl⟩ (Declaration.step_keyword rfl read)

def CaseOutline.enumCase (declared : CaseOutline) : EnumCase :=
  ⟨.plain declared.name, declared.payload.map (·.map TypeExpr.namedElement), none⟩

def CaseOutline.member (declared : CaseOutline) : EnumMember Declaration :=
  .cases ⟨false, [declared.enumCase]⟩

theorem CaseOutline.parse_case {declared : CaseOutline} (lexable : declared.Lexable)
    {rest : List Token} (follows : LineFollows rest) :
    Declaration.enumCases (declared.tokens.tail ++ rest) = .ok ([declared.enumCase], rest) := by
  have named : Declaration.enumCase (declared.tokens.tail ++ rest) = .ok (declared.enumCase, rest) := by
    have name := Name.parse_word lexable.name " "
    cases payload : declared.payload with
    | none =>
      obtain ⟨following, tail, rfl, -⟩ := follows
      have unloaded : Declaration.payload? (⟨.newline, "\n", ""⟩ :: following :: tail) =
          .ok (none, ⟨.newline, "\n", ""⟩ :: following :: tail) := by
        rw [Declaration.payload?, bind_of_ok (accept_of_ne (by simp) _)]
        rfl
      simp only [tokens, enumCase, payload, List.cons_append, List.nil_append, List.tail_cons,
        Option.map_none]
      rw [Declaration.enumCase, bind_of_ok (name _), bind_of_ok unloaded,
        bind_of_ok (initializer?_of_ne (by simp) _)]
      rfl
    | some types =>
      have areNames : ∀ type ∈ types, IsTypeName type := by simpa [payload] using lexable.payload
      have read := TypeExpr.elements_listed areNames follows
      have loaded : Declaration.payload? (⟨.leftParen, "", "("⟩ ::
          (listed "" types ++ ⟨.rightParen, "", ")"⟩ :: rest)) =
            .ok (some (types.map TypeExpr.namedElement), rest) := by
        rw [Declaration.payload?, bind_of_ok (accept_mark _ _ _ _), if_pos rfl, bind_of_ok read]
        rfl
      have shape : declared.tokens.tail ++ rest = word " " declared.name :: ⟨.leftParen, "", "("⟩ ::
          (listed "" types ++ ⟨.rightParen, "", ")"⟩ :: rest) := by
        simp [tokens, payload]
      obtain ⟨following, tail, rfl, -⟩ := follows
      rw [shape, Declaration.enumCase, bind_of_ok (name _), bind_of_ok loaded,
        bind_of_ok (initializer?_of_ne (by simp) _), enumCase, payload]
      rfl
  obtain ⟨following, tail, rfl, -⟩ := follows
  rw [Declaration.enumCases, fix_apply, bind_of_ok named, bind_of_ok (accept_of_ne (by simp) _)]
  rfl

theorem CaseOutline.enumMember_tokens {declared : CaseOutline} (lexable : declared.Lexable)
    (inner : Parser Declaration) {rest : List Token} (follows : LineFollows rest) :
    Declaration.enumMember inner (declared.tokens ++ rest) = .ok (declared.member, rest) := by
  have split : declared.tokens ++ rest = word "" "case" :: (declared.tokens.tail ++ rest) := rfl
  rw [split, Declaration.enumMember, bind_of_ok (Attribute.parseAll_of_ne (by simp [word]) _),
    bind_of_ok (acceptIf_of_neg (by simp [word, Token.isWord])), acceptWord,
    bind_of_ok (acceptIf_of_pos (by simp [word, Token.isWord])), if_pos rfl,
    bind_of_ok (parse_case lexable follows)]
  rfl

def closingBefore (rest : List Token) : List Token :=
  ⟨.newline, "\n", ""⟩ :: (closingTokens ++ rest)

theorem closingBefore_follows (rest : List Token) : LineFollows (closingBefore rest) :=
  ⟨_, rest, rfl, by simp⟩

theorem Parser.separators_line {first : Token} (kinds : first.kind ∈ [Token.Kind.identifier, .rightBrace])
    (rest : List Token) :
    separators (⟨.newline, "\n", ""⟩ :: first :: rest) = .ok ((), first :: rest) := by
  simp only [List.mem_cons, List.not_mem_nil, or_false] at kinds
  rcases kinds with kind | kind <;> simp [separators, dropWhile, Token.isSeparator, kind]

def EnumOutline.enumeration (declared : EnumOutline) : Enumeration Declaration :=
  ⟨.none, .plain declared.name, [], none, declared.cases.map CaseOutline.member⟩

theorem EnumOutline.parse_members {declared : EnumOutline} (lexable : declared.Lexable)
    (inner : Parser Declaration) (rest : List Token) :
    Declaration.enumMembers inner (brokenLines (declared.cases.map CaseOutline.tokens) ++
      closingBefore rest) = .ok (declared.cases.map CaseOutline.member, rest) := by
  rw [brokenLines, List.flatMap_map]
  refine fix_items (closingBefore_follows rest) ?_ ?_ ?_
  · intro listed _ after _
    exact ⟨⟨_, _, rfl, by simp [word]⟩, by simp⟩
  · intro more listed member after follows
    have read := CaseOutline.enumMember_tokens (lexable.cases listed member) inner follows
    have split : listed.tokens ++ after = word "" "case" :: (listed.tokens.tail ++ after) := rfl
    rw [split] at read
    rw [List.cons_append, split, bind_of_ok (separators_line (by simp [word]) _),
      bind_of_ok (accept_of_ne (by simp [word]) _), if_neg (by simp)]
    exact bind_of_ok read
  · intro more
    rw [closingBefore, closingTokens, List.cons_append, bind_of_ok (separators_line (by simp) _),
      bind_of_ok (accept_mark _ _ _ _)]
    rfl

namespace Declaration

theorem openBody_brace (rest : List Token) :
    openBody (⟨.leftBrace, " ", "\x7b"⟩ :: rest) = .ok ((), rest) := by
  rw [openBody, bind_of_ok (newlines_of_ne (by simp) _), bind_of_ok (expect_mark _ _ _ _ _)]
  rfl

theorem whereClause_brace (rest : List Token) :
    whereClause (⟨.leftBrace, " ", "\x7b"⟩ :: rest) =
      .ok ((), ⟨.leftBrace, " ", "\x7b"⟩ :: rest) :=
  rfl

theorem genericParameters_of_ne {token : Token} (other : token.kind ≠ .less) (rest : List Token) :
    genericParameters (token :: rest) = .ok ([], token :: rest) := by
  rw [genericParameters, bind_of_ok (accept_of_ne other _)]
  rfl

theorem inheritance?_brace (rest : List Token) :
    inheritance? (⟨.leftBrace, " ", "\x7b"⟩ :: rest) =
      .ok (none, ⟨.leftBrace, " ", "\x7b"⟩ :: rest) := by
  rw [inheritance?, bind_of_ok (accept_of_ne (by simp) _)]
  rfl

end Declaration

theorem EnumOutline.specified_tokens {declared : EnumOutline} (lexable : declared.Lexable)
    (inner : Parser Declaration) (rest : List Token) :
    Declaration.specified (Declaration.step inner) (declared.headerTokens ++
      brokenLines (declared.cases.map CaseOutline.tokens) ++ closingBefore rest) =
        .ok (.enumeration declared.enumeration, rest) := by
  have read : Declaration.afterKeyword inner .enumeration (word " " declared.name ::
      ⟨.leftBrace, " ", "\x7b"⟩ :: (brokenLines (declared.cases.map CaseOutline.tokens) ++
        closingBefore rest)) = .ok (.enumeration declared.enumeration, rest) := by
    rw [Declaration.afterKeyword, bind_of_ok (Name.parse_word lexable.name " " _),
      bind_of_ok (Declaration.genericParameters_of_ne (by simp) _),
      bind_of_ok (Declaration.inheritance?_brace _), bind_of_ok (Declaration.whereClause_brace _),
      bind_of_ok (Declaration.openBody_brace _), bind_of_ok (parse_members lexable inner rest)]
    rfl
  exact Declaration.specified_word ⟨rfl, rfl⟩ (Declaration.step_keyword rfl read)

def MemberOutline.declaration : MemberOutline → Declaration
  | field declared => declared.declaration
  | enumeration declared => .enumeration declared.enumeration

theorem MemberOutline.specified_tokens {member : MemberOutline} (lexable : member.Lexable)
    (inner : Parser Declaration) {rest : List Token} (follows : LineFollows rest) :
    ∃ first tail, first.kind = .identifier ∧
      brokenLines member.lineTokens ++ rest = ⟨.newline, "\n", ""⟩ :: first :: tail ∧
      Declaration.specified (Declaration.step inner) (first :: tail) =
        .ok (member.declaration, rest) := by
  cases member with
  | field declared =>
    refine ⟨_, _, ?_, ?_, FieldOutline.specified_tokens lexable inner follows⟩
    · rfl
    · simp only [lineTokens, brokenLines, List.flatMap_cons, List.flatMap_nil, List.append_nil]
      rfl
  | enumeration declared =>
    refine ⟨_, _, ?_, ?_, EnumOutline.specified_tokens lexable inner rest⟩
    · rfl
    · simp only [lineTokens, EnumOutline.lineTokens, brokenLines, closingBefore, List.cons_append,
        List.flatMap_cons, List.flatMap_append, List.flatMap_nil, List.append_assoc, List.append_nil]
      rfl

def Outline.inheritance (outline : Outline) : Option (List TypePath) :=
  match outline.supertypes with
  | [] => none
  | supertypes => some (supertypes.map namedPath)

def Outline.composite (outline : Outline) : Composite Declaration :=
  ⟨.structType, .none, .plain outline.name, [], outline.inheritance,
    outline.members.map MemberOutline.declaration⟩

namespace Declaration

def memberStep (inner : Parser Declaration) (more : Parser (List Declaration)) :
    Parser (List Declaration) := do
  separators
  if ← accept .rightBrace then return []
  else if (← nextKind) = none then fail "'\x7d'"
  else
    let first ← specified inner
    return first :: (← more)

theorem members_eq (inner : Parser Declaration) : members inner = fix (memberStep inner) :=
  rfl

theorem memberStep_of_cons {tokens rest : List Token} {token : Token}
    (goesOn : tokens.dropWhile Token.isSeparator = token :: rest)
    (unclosed : token.kind ≠ .rightBrace) (inner : Parser Declaration)
    (more : Parser (List Declaration)) :
    memberStep inner more tokens =
      (specified inner >>= fun first => more >>= fun others => pure (first :: others))
        (token :: rest) := by
  rw [memberStep, bind_of_ok (show separators tokens = .ok ((), token :: rest) from goesOn ▸ rfl),
    bind_of_ok (accept_of_ne unclosed _), if_neg (by simp),
    bind_of_ok (show nextKind (token :: rest) = .ok (_, _) from rfl), if_neg (by simp [Token.kindAt])]

end Declaration

/-- Members that begin with a word on a line each are read one after the other. -/
theorem Declaration.members_items {ι : Type} {items : List ι} {tokensOf : ι → List Token}
    {image : ι → Declaration} {inner : Parser Declaration} {Follows : List Token → Prop}
    {rest : List Token} (closed : Follows (closingBefore rest))
    (begins : ∀ item ∈ items, ∀ after, Follows after →
      Follows (tokensOf item ++ after) ∧ tokensOf item ≠ [])
    (read : ∀ item ∈ items, ∀ after, Follows after → ∃ first tail,
      first.kind = .identifier ∧ tokensOf item ++ after = ⟨.newline, "\n", ""⟩ :: first :: tail ∧
        specified inner (first :: tail) = .ok (image item, after)) :
    members inner (items.flatMap tokensOf ++ closingBefore rest) =
      .ok (items.map image, rest) := by
  rw [members_eq]
  refine fix_items closed begins ?_ ?_
  · intro more item isItem after follows
    obtain ⟨first, tail, isWord, shape, readItem⟩ := read item isItem after follows
    have goesOn : (⟨.newline, "\n", ""⟩ :: first :: tail).dropWhile Token.isSeparator =
        first :: tail := by
      simp [Token.isSeparator, isWord]
    rw [shape, memberStep_of_cons goesOn (by simp [isWord]), bind_of_ok readItem]
  · intro more
    rw [memberStep, closingBefore, closingTokens, List.cons_append, bind_of_ok (separators_line (by simp) _),
      bind_of_ok (accept_mark _ _ _ _)]
    rfl

theorem Outline.parse_members {outline : Outline} (lexable : outline.Lexable)
    (inner : Parser Declaration) (rest : List Token) :
    Declaration.members (Declaration.step inner)
      (outline.members.flatMap (fun member => brokenLines member.lineTokens) ++ closingBefore rest) =
        .ok (outline.members.map MemberOutline.declaration, rest) := by
  refine Declaration.members_items (closingBefore_follows rest) ?_ ?_
  · intro member _ after _
    cases member with
    | field declared =>
      exact ⟨⟨_, _, rfl, by simp [word]⟩, by simp [brokenLines, MemberOutline.lineTokens]⟩
    | enumeration declared =>
      exact ⟨⟨_, _, rfl, by simp [word]⟩,
        by simp [brokenLines, MemberOutline.lineTokens, EnumOutline.lineTokens]⟩
  · intro member isMember after follows
    exact MemberOutline.specified_tokens (lexable.members member isMember) inner follows

theorem Outline.parse_inheritance {outline : Outline} (lexable : outline.Lexable)
    (rest : List Token) :
    Declaration.inheritance? (outline.inheritanceTokens ++ ⟨.leftBrace, " ", "\x7b"⟩ :: rest) =
      .ok (outline.inheritance, ⟨.leftBrace, " ", "\x7b"⟩ :: rest) := by
  have areNames := lexable.supertypes
  unfold inheritanceTokens inheritance
  cases supertypes : outline.supertypes with
  | nil => exact Declaration.inheritance?_brace rest
  | cons first others =>
    rw [supertypes] at areNames
    have read := Declaration.supertypes_listed " " areNames
      (show (⟨.leftBrace, " ", "\x7b"⟩ : Token).kind = .leftBrace from rfl) rest
    dsimp only
    rw [List.cons_append, Declaration.inheritance?, bind_of_ok (accept_mark _ _ _ _), if_pos rfl,
      bind_of_ok read]
    rfl

theorem Outline.step_tokens {outline : Outline} (lexable : outline.Lexable)
    (inner : Parser Declaration) :
    Declaration.step (Declaration.step inner) outline.tokens =
      .ok (.composite outline.composite, []) := by
  have members := parse_members lexable inner []
  have plain : ∀ rest, Declaration.genericParameters (outline.inheritanceTokens ++
      ⟨.leftBrace, " ", "\x7b"⟩ :: rest) =
        .ok ([], outline.inheritanceTokens ++ ⟨.leftBrace, " ", "\x7b"⟩ :: rest) := by
    intro rest
    unfold inheritanceTokens
    split
    · exact Declaration.genericParameters_of_ne (by simp) _
    · exact Declaration.genericParameters_of_ne (by simp) _
  have shape : outline.tokens = word "" "struct" :: word " " outline.name ::
      (outline.inheritanceTokens ++ ⟨.leftBrace, " ", "\x7b"⟩ ::
        (outline.members.flatMap (fun member => brokenLines member.lineTokens) ++
          closingBefore [])) := by
    simp [tokens, headerTokens, lineTokens, brokenLines, closingBefore, List.flatMap_assoc]
  rw [shape]
  refine Declaration.step_keyword rfl ?_
  rw [Declaration.afterKeyword, bind_of_ok (Name.parse_word lexable.name " " _),
    bind_of_ok (plain _), bind_of_ok (parse_inheritance lexable _),
    bind_of_ok (Declaration.whereClause_brace _), bind_of_ok (Declaration.openBody_brace _),
    bind_of_ok members]
  rfl

/-- A declaration that begins with its keyword and that nothing follows is read alone. -/
theorem Declaration.parseAll_alone {text : String} (other : Modifier.IsOther text)
    {rest : List Token} {declaration : Declaration}
    (read : ∀ inner, step (step inner) (word "" text :: rest) = .ok (declaration, [])) :
    parseAll (word "" text :: rest) = .ok ([declaration.withSpecifiers .none], []) := by
  have body : afterSpecifiers (word "" text :: rest) = .ok (declaration, []) :=
    read (fixWithin step rest.length)
  have parsed : parse (word "" text :: rest) = .ok (declaration.withSpecifiers .none, []) :=
    specified_word other body
  have first : separators (word "" text :: rest) = .ok ((), word "" text :: rest) := rfl
  rw [parseAll, fix_apply, bind_of_ok first,
    bind_of_ok (show nextKind (word "" text :: rest) = .ok (_, _) from rfl),
    if_neg (by simp [Token.kindAt]), bind_of_ok parsed]
  rfl

/-- The text of an outline is read as the one declaration that it stands for. -/
theorem Outline.parse_text {outline : Outline} (lexable : outline.Lexable) :
    SourceFile.parse outline.text = .ok ⟨[.composite outline.composite]⟩ := by
  have scanned := scan_text lexable
  obtain ⟨rest, shape⟩ : ∃ rest, outline.tokens = word "" "struct" :: rest := ⟨_, rfl⟩
  have all : Declaration.parseAll outline.tokens = .ok ([.composite outline.composite], []) := by
    have read := step_tokens lexable
    rw [shape] at read ⊢
    exact Declaration.parseAll_alone ⟨rfl, rfl⟩ read
  have before : (outline.tokens ++ [(⟨.endOfFile, "", ""⟩ : Token)]).dropLast = outline.tokens :=
    List.dropLast_concat
  rw [← before] at all
  exact SourceFile.parse_of_ok scanned all

end SwiftLens
