import SwiftLens.Proofs.Outline.Pieces

namespace SwiftLens

open SwiftLens.Token

def listed (gap : String) : List String → List Token
  | [] => []
  | first :: others => word gap first :: others.flatMap fun name => [⟨.comma, "", ","⟩, word " " name]

def FieldOutline.tokens (field : FieldOutline) : List Token :=
  [word "" field.keyword, word " " field.name, ⟨.colon, "", ":"⟩, word " " field.type] ++
    if field.isOptional then [⟨.question, "", "?"⟩] else []

def CaseOutline.tokens (declared : CaseOutline) : List Token :=
  [word "" "case", word " " declared.name] ++
    match declared.payload with
    | none => []
    | some types => ⟨.leftParen, "", "("⟩ :: listed "" types ++ [⟨.rightParen, "", ")"⟩]

def closingTokens : List Token :=
  [⟨.rightBrace, "", "\x7d"⟩]

def EnumOutline.headerTokens (declared : EnumOutline) : List Token :=
  [word "" "enum", word " " declared.name, ⟨.leftBrace, " ", "\x7b"⟩]

def EnumOutline.lineTokens (declared : EnumOutline) : List (List Token) :=
  declared.headerTokens :: declared.cases.map CaseOutline.tokens ++ [closingTokens]

def MemberOutline.lineTokens : MemberOutline → List (List Token)
  | field declared => [declared.tokens]
  | enumeration declared => declared.lineTokens

namespace Outline

def inheritanceTokens (outline : Outline) : List Token :=
  match outline.supertypes with
  | [] => []
  | supertypes => ⟨.colon, "", ":"⟩ :: listed " " supertypes

def headerTokens (outline : Outline) : List Token :=
  [word "" "struct", word " " outline.name] ++ outline.inheritanceTokens ++
    [⟨.leftBrace, " ", "\x7b"⟩]

def lineTokens (outline : Outline) : List (List Token) :=
  outline.members.flatMap MemberOutline.lineTokens ++ [closingTokens]

def tokens (outline : Outline) : List Token :=
  outline.headerTokens ++ brokenLines outline.lineTokens

end Outline

theorem sourceOf_listed (gap first : String) (others : List String) :
    sourceOf (listed gap (first :: others)) = gap ++ ", ".intercalate (first :: others) := by
  induction others generalizing gap first with
  | nil => simp [listed, sourceOf, source, word]
  | cons second others ih =>
    have shifted : sourceOf (listed gap (first :: second :: others)) =
        gap ++ first ++ "," ++ sourceOf (listed " " (second :: others)) := by
      simp [listed, sourceOf, source, word, String.append_assoc]
    rw [shifted, ih, String.intercalate_cons_cons, ← String.toList_inj]
    simp

theorem FieldOutline.sourceOf_tokens (field : FieldOutline) :
    sourceOf field.tokens = field.line := by
  rw [← String.toList_inj]
  unfold tokens line
  split <;> simp [sourceOf, source, word]

theorem CaseOutline.sourceOf_tokens (declared : CaseOutline) :
    sourceOf declared.tokens = declared.line := by
  rw [← String.toList_inj]
  unfold tokens line
  cases declared.payload with
  | none => simp [sourceOf, source, word]
  | some types =>
    cases types with
    | nil => simp [sourceOf, source, word, listed]
    | cons first others => simp [sourceOf, source, word, sourceOf_listed]

theorem EnumOutline.sourceOf_lineTokens (declared : EnumOutline) :
    declared.lineTokens.map sourceOf = declared.lines := by
  have header : sourceOf declared.headerTokens = "enum " ++ declared.name ++ " \x7b" := by
    rw [← String.toList_inj]
    simp [headerTokens, sourceOf, source, word]
  have cases : declared.cases.map (sourceOf ∘ CaseOutline.tokens) =
      declared.cases.map CaseOutline.line := by
    simp [CaseOutline.sourceOf_tokens]
  simp [lineTokens, lines, header, cases, closingTokens, sourceOf, source]

theorem MemberOutline.sourceOf_lineTokens (member : MemberOutline) :
    member.lineTokens.map sourceOf = member.lines := by
  cases member with
  | field declared => simp [lineTokens, lines, FieldOutline.sourceOf_tokens]
  | enumeration declared => exact declared.sourceOf_lineTokens

theorem Outline.sourceOf_headerTokens (outline : Outline) :
    sourceOf outline.headerTokens = outline.header := by
  rw [← String.toList_inj]
  unfold headerTokens header inheritanceTokens
  cases outline.supertypes with
  | nil => simp [sourceOf, source, word]
  | cons first others => simp [sourceOf, source, word, sourceOf_listed]

theorem Outline.sourceOf_lineTokens (outline : Outline) :
    outline.lineTokens.map sourceOf =
      outline.members.flatMap MemberOutline.lines ++ ["\x7d"] := by
  simp [lineTokens, List.map_flatMap, MemberOutline.sourceOf_lineTokens, closingTokens, sourceOf,
    source]

theorem isPiece_word {gap text : String} (inLine : gap = "" ∨ gap = " ")
    (isWord : Lexeme.isWord text = true) : (word gap text).IsPiece where
  gap := inLine.imp_right .inl
  text := .inl ⟨rfl, isWord⟩

theorem standsOff_word (text : String) (rest : List Token) : StandsOff (word " " text :: rest) :=
  standsOff_cons (.inl (by simp [word]))

theorem isPiece_mark (c : Char) {kind : Token.Kind} {gap text : String} (inLine : gap = "" ∨ gap = " ")
    (isMark : Lexeme.punctuation? c = some kind) (spelled : text = String.singleton c) : IsPiece ⟨kind, gap, text⟩ where
  gap := inLine.imp_right .inl
  text := .inr ⟨c, isMark, spelled⟩

theorem arePieces_listed {gap : String} (inLine : gap = "" ∨ gap = " ") {names : List String}
    (areWords : ∀ name ∈ names, Lexeme.isWord name = true) : ArePieces (listed gap names) := by
  have later : ∀ {others : List String}, (∀ name ∈ others, Lexeme.isWord name = true) →
      ArePieces (others.flatMap fun name => [⟨.comma, "", ","⟩, word " " name]) ∧
        StandsOff (others.flatMap fun name => [⟨.comma, "", ","⟩, word " " name]) := by
    intro others
    induction others with
    | nil => exact fun _ => ⟨.nil, standsOff_nil⟩
    | cons name others ih =>
      intro areWords
      obtain ⟨pieces, apart⟩ := ih fun other member => areWords other (List.mem_cons_of_mem _ member)
      refine ⟨.cons (isPiece_mark ',' (.inl rfl) rfl rfl) (fun _ => standsOff_word _ _) ?_,
        standsOff_cons (.inr (by simp))⟩
      exact .cons (isPiece_word (.inr rfl) (areWords name List.mem_cons_self)) (fun _ => apart) pieces
  cases names with
  | nil => exact .nil
  | cons first others =>
    obtain ⟨pieces, apart⟩ := later fun name member => areWords name (List.mem_cons_of_mem _ member)
    exact .cons (isPiece_word inLine (areWords first List.mem_cons_self)) (fun _ => apart) pieces

theorem listed_inLine {gap : String} (inLine : gap ≠ "\n") (names : List String) :
    ∀ token ∈ listed gap names, token.gap ≠ "\n" := by
  cases names with
  | nil => simp [listed]
  | cons first others =>
    intro token member
    simp only [listed, List.mem_cons, List.mem_flatMap, List.not_mem_nil, or_false] at member
    rcases member with rfl | ⟨name, -, rfl | rfl⟩
    · exact inLine
    · simp
    · simp [word]

theorem isLine_closing : IsLine closingTokens where
  pieces := .cons (isPiece_mark '\x7d' (.inl rfl) rfl rfl) (fun _ => standsOff_nil) .nil
  inLine := by simp [closingTokens]
  begins := ⟨_, _, rfl, rfl⟩

theorem FieldOutline.isLine {field : FieldOutline} (lexable : field.Lexable) :
    IsLine field.tokens := by
  have keyword : Lexeme.isWord field.keyword = true := by
    unfold FieldOutline.keyword
    split <;> decide
  have mark : ArePieces (if field.isOptional then [⟨.question, "", "?"⟩] else []) ∧
      StandsOff (if field.isOptional then [⟨.question, "", "?"⟩] else []) := by
    split
    · exact ⟨.cons (isPiece_mark '?' (.inl rfl) rfl rfl) (fun _ => standsOff_nil) .nil,
        standsOff_cons (.inr (by simp))⟩
    · exact ⟨.nil, standsOff_nil⟩
  refine ⟨?_, ?_, _, _, rfl, rfl⟩
  · refine .cons (isPiece_word (.inl rfl) keyword) (fun _ => standsOff_word _ _) ?_
    refine .cons (isPiece_word (.inr rfl) lexable.name.isWord)
      (fun _ => standsOff_cons (.inr (by simp))) ?_
    refine .cons (isPiece_mark ':' (.inl rfl) rfl rfl) (fun _ => standsOff_word _ _) ?_
    exact .cons (isPiece_word (.inr rfl) lexable.type.isWord) (fun _ => mark.2) mark.1
  · intro token member
    unfold tokens at member
    split at member <;> simp [word] at member <;> grind

theorem CaseOutline.isLine {declared : CaseOutline} (lexable : declared.Lexable) :
    IsLine declared.tokens := by
  have keyword : Lexeme.isWord "case" = true := by decide
  cases payload : declared.payload with
  | none =>
    refine ⟨?_, ?_, word "" "case", _, rfl, rfl⟩
    · simp only [tokens, payload]
      refine .cons (isPiece_word (.inl rfl) keyword) (fun _ => standsOff_word _ _) ?_
      exact .cons (isPiece_word (.inr rfl) lexable.name.isWord) (fun _ => standsOff_nil) .nil
    · simp [tokens, payload, word]
  | some types =>
    have closing : ArePieces [⟨.rightParen, "", ")"⟩] :=
      .cons (isPiece_mark ')' (.inl rfl) rfl rfl) (fun _ => standsOff_nil) .nil
    have areNames : ∀ type ∈ types, IsTypeName type := by simpa [payload] using lexable.payload
    have inside := arePieces_listed (.inl rfl) fun type member => (areNames type member).isWord
    refine ⟨?_, ?_, word "" "case", _, rfl, rfl⟩
    · simp only [tokens, payload]
      refine .cons (isPiece_word (.inl rfl) keyword) (fun _ => standsOff_word _ _) ?_
      refine .cons (isPiece_word (.inr rfl) lexable.name.isWord)
        (fun _ => standsOff_cons (.inr (by simp))) ?_
      refine .cons (isPiece_mark '(' (.inl rfl) rfl rfl) (by simp) ?_
      exact inside.append closing (standsOff_cons (.inr (by simp)))
    · intro token member
      have listedInLine := listed_inLine (show "" ≠ "\n" by decide) types
      simp only [tokens, word, payload, List.cons_append, List.nil_append, List.mem_cons,
        List.mem_append, List.not_mem_nil, or_false] at member
      grind

theorem arePieces_brace : ArePieces [⟨.leftBrace, " ", "\x7b"⟩] :=
  .cons (isPiece_mark '\x7b' (.inr rfl) rfl rfl) (fun _ => standsOff_nil) .nil

theorem standsOff_brace (rest : List Token) : StandsOff (⟨.leftBrace, " ", "\x7b"⟩ :: rest) :=
  standsOff_cons (.inl (by simp))

theorem EnumOutline.isLine_header {declared : EnumOutline} (lexable : declared.Lexable) :
    IsLine declared.headerTokens where
  pieces := by
    refine .cons (isPiece_word (.inl rfl) (by decide)) (fun _ => standsOff_word _ _) ?_
    exact .cons (isPiece_word (.inr rfl) lexable.name.isWord) (fun _ => standsOff_brace _)
      arePieces_brace
  inLine := by simp [headerTokens, word]
  begins := ⟨_, _, rfl, rfl⟩

theorem EnumOutline.areLines {declared : EnumOutline} (lexable : declared.Lexable) :
    ∀ line ∈ declared.lineTokens, IsLine line := by
  intro line member
  simp only [lineTokens, List.cons_append, List.mem_cons, List.mem_append, List.mem_map,
    List.not_mem_nil, or_false] at member
  rcases member with rfl | ⟨case, isCase, rfl⟩ | rfl
  · exact isLine_header lexable
  · exact CaseOutline.isLine (lexable.cases case isCase)
  · exact isLine_closing

theorem MemberOutline.areLines {member : MemberOutline} (lexable : member.Lexable) :
    ∀ line ∈ member.lineTokens, IsLine line := by
  cases member with
  | field declared =>
    intro line isLine
    rw [List.mem_singleton.mp isLine]
    exact FieldOutline.isLine lexable
  | enumeration declared => exact EnumOutline.areLines lexable

theorem Outline.isLine_header {outline : Outline} (lexable : outline.Lexable) :
    IsLine outline.headerTokens := by
  have inheritance : ArePieces outline.inheritanceTokens ∧ StandsOff outline.inheritanceTokens ∧
      ∀ token ∈ outline.inheritanceTokens, token.gap ≠ "\n" := by
    have areWords : ∀ name ∈ outline.supertypes, Lexeme.isWord name = true :=
      fun name member => (lexable.supertypes name member).isWord
    have pieces := arePieces_listed (.inr rfl) areWords
    have inLine := listed_inLine (show " " ≠ "\n" by decide) outline.supertypes
    unfold inheritanceTokens
    split
    · exact ⟨.nil, standsOff_nil, by simp⟩
    · refine ⟨.cons (isPiece_mark ':' (.inl rfl) rfl rfl) (by simp) pieces,
        standsOff_cons (.inr (by simp)), ?_⟩
      intro token member
      rcases List.mem_cons.mp member with rfl | listed
      · simp
      · exact inLine token listed
  obtain ⟨pieces, apart, inLine⟩ := inheritance
  have behind := pieces.append arePieces_brace (standsOff_brace [])
  have apartBehind := apart.append (standsOff_brace [])
  unfold headerTokens
  rw [List.append_assoc]
  refine ⟨?_, ?_, _, _, rfl, rfl⟩
  · refine .cons (isPiece_word (.inl rfl) (by decide)) (fun _ => standsOff_word _ _) ?_
    exact .cons (isPiece_word (.inr rfl) lexable.name.isWord) (fun _ => apartBehind) behind
  · intro token member
    simp only [word, List.cons_append, List.nil_append, List.mem_cons, List.mem_append,
      List.not_mem_nil, or_false] at member
    grind

/-- The text of an outline is read as its tokens. -/
theorem Outline.scan_text {outline : Outline} (lexable : outline.Lexable) :
    scan false outline.text.toList = .ok (outline.tokens ++ [⟨.endOfFile, "", ""⟩]) := by
  have areLines : ∀ line ∈ outline.lineTokens, IsLine line := by
    intro line isLine
    rcases List.mem_append.mp isLine with inMember | closing
    · obtain ⟨member, isMember, inMember⟩ := List.mem_flatMap.mp inMember
      exact MemberOutline.areLines (lexable.members member isMember) line inMember
    · rw [List.mem_singleton.mp closing]
      exact isLine_closing
  have read := scan_lines (isLine_header lexable) areLines
  rw [sourceOf_headerTokens, sourceOf_lineTokens] at read
  exact read

end SwiftLens
