import SwiftLens.Proofs.Bodies.Expressions
import SwiftLens.Proofs.Concatenation.Files
import SwiftLens.Proofs.Lens.Annotations

namespace SwiftLens

open SwiftLens.Parser SwiftLens.Token

namespace LensTemplate

def frontTokens (package : String) (described : StructureType) : List Token :=
  [word "" "import", word " " "Foundation", ⟨.newline, "\n", ""⟩, word "" "import",
    word " " "Focus", ⟨.newline, "\n", ""⟩, word "" "import", word " " package,
    ⟨.newline, "\n\n", ""⟩, word "" "public", word " " "class",
    word " " (described.name ++ "Microscope"), ⟨.newline, "\n", ""⟩, ⟨.leftBrace, "", "\x7b"⟩]

theorem ofLines_lines (package : String) (described : StructureType) :
    ofLines false [] (lines package described) = frontTokens package described ++
      ofLines true ['\n'] ([[]].intercalate (described.properties.map (lens described)) ++
        [[⟨.rightBrace, "", "\x7d"⟩]]) := by
  simp [lines, ofLines, withGap, frontTokens, word]

def firstPart (field : SemanticType) : String :=
  (dotComponents field.baseName).headD ""

def behindFirst (field : SemanticType) : List Token :=
  (type " " field).tail ++ [⟨.greater, "", ">"⟩]

def boundFront (described : StructureType) (property : Property SemanticType) : List Token :=
  nameToken (isReserved property.name) " " property.name :: ⟨.colon, "", ":"⟩ ::
    (lensType described.name property.type ++ ⟨.equal, " ", "="⟩ ::
      ([word " " "SimpleLens", ⟨.less, "", "<"⟩, word "" described.name] ++
        [⟨.comma, "", ","⟩, word " " (firstPart property.type)]))

theorem type_cons (gap : String) (field : SemanticType) :
    type gap field = word gap (firstPart field) :: (type gap field).tail := by
  obtain ⟨first, others, components, -⟩ := exists_dotComponents field.baseName
  rw [type, dotted_of_components components, firstPart, components]
  rfl

def markText (field : SemanticType) : String :=
  match dotComponents field.baseName with
  | _ :: _ :: _ => "."
  | _ => if field.optionalDepth = 0 then ">" else "?"

theorem behindFirst_cons (field : SemanticType) : ∃ mark rest, behindFirst field = mark :: rest ∧
    mark.kind ∈ [Token.Kind.dot, .question, .greater] ∧ mark.gap = "" ∧
      mark.text = markText field := by
  obtain ⟨first, others, components, -⟩ := exists_dotComponents field.baseName
  rw [behindFirst, type, dotted_of_components components, markText, components]
  cases others with
  | cons second others => exact ⟨⟨.dot, "", "."⟩, _, rfl, by simp, rfl, rfl⟩
  | nil =>
    cases field.optionalDepth with
    | zero => exact ⟨⟨.greater, "", ">"⟩, _, rfl, by simp, rfl, rfl⟩
    | succ depth => exact ⟨⟨.question, "", "?"⟩, _, rfl, by simp, rfl, rfl⟩

theorem ofLines_lenses {described : StructureType} {property : Property SemanticType}
    {others : List (Property SemanticType)} (listed : described.properties = property :: others) :
    ∃ rest, rest ≠ [] ∧
      ofLines true ['\n'] ([[]].intercalate (described.properties.map (lens described)) ++
        [[⟨.rightBrace, "", "\x7d"⟩]]) =
          ⟨.newline, "\n    ", ""⟩ :: word "" "var" :: (boundFront described property ++
            (behindFirst property.type ++ ⟨.leftParen, "", "("⟩ :: rest)) := by
  obtain ⟨more, shape⟩ : ∃ more, [[]].intercalate (described.properties.map (lens described)) ++
      [[⟨.rightBrace, "", "\x7d"⟩]] = (lens described property).headD [] :: more := by
    rw [listed, List.map_cons]
    cases others with
    | nil => exact ⟨_, by simp [lens]; rfl⟩
    | cons next rest =>
      rw [List.map_cons, List.intercalate_cons_cons]
      exact ⟨_, by simp [lens]; rfl⟩
  have split : lensType described.name property.type =
      [word " " "SimpleLens", ⟨.less, "", "<"⟩, word "" described.name, ⟨.comma, "", ","⟩] ++
        word " " (firstPart property.type) :: behindFirst property.type := by
    rw [lensType, behindFirst, type_cons]
    simp
  refine ⟨ofLines true ['\n'] more, ofLines_ne_nil _ _ _, ?_⟩
  rw [shape, lens, List.headD_cons, List.append_assoc, List.append_assoc, List.append_assoc,
    List.cons_append, ofLines]
  simp [withGap, word, boundFront, split]

def declaredName (name : String) : Name :=
  if isReserved name then .quoted name else .plain name

theorem parse_nameToken {name : String} (identifier : isIdentifier name = true)
    (rest : List Token) :
    Name.parse (nameToken (isReserved name) " " name :: rest) = .ok (declaredName name, rest) := by
  unfold nameToken declaredName
  split
  · have spelled : Name.ofToken? ⟨.backticked, " ", inBackticks name⟩ = some (.quoted name) := by
      rw [Name.ofToken?, Name.ofBackticked_inBackticks]
    simp [Name.parse, Name.next?, bind_apply, takeIf_cons, spelled, pure_apply]
  · have isName : IsName name := by
      refine ⟨Lexeme.isWord_of_isIdentifier identifier, ?_⟩
      rintro rfl
      simp [isIdentifier] at identifier
    exact Name.parse_word isName " " rest

def storedFront (described : StructureType) (property : Property SemanticType) : Storage :=
  .stored
    [⟨.identifier (declaredName property.name) (some (lensTypeExpr described.name property.type)),
        some ("SimpleLens<" ++ described.name)⟩,
      ⟨.identifier (.plain (firstPart property.type)) none, none⟩]

section Marks

variable {mark : Token} (marks : mark.kind ∈ [Token.Kind.dot, .question, .greater])
  (rest : List Token)

include marks

theorem kind_mark_ne {kind : Token.Kind}
    (other : kind ∉ [Token.Kind.dot, .question, .greater]) : mark.kind ≠ kind := by
  rintro rfl
  exact other marks

/-- The name behind the comma is taken for a variable of its own. -/
theorem parse_secondVariable {name : String} (isName : IsName name) :
    fix (Storage.step false) (word " " name :: mark :: rest) =
      .ok (.stored [⟨.identifier (.plain name) none, none⟩], mark :: rest) := by
  have untyped : TypeExpr.afterColon? (mark :: rest) = .ok (none, mark :: rest) := by
    rw [TypeExpr.afterColon?, bind_of_ok (accept_of_ne (kind_mark_ne marks (by decide)) _)]
    rfl
  have pattern : Pattern.parse (word " " name :: mark :: rest) =
      .ok (.identifier (.plain name) none, mark :: rest) := by
    rw [Pattern.parse, fix_apply, Pattern.step, bind_of_ok (accept_of_ne (by simp [word]) _),
      if_neg (by simp), bind_of_ok (Name.parse_word isName " " _), bind_of_ok untyped]
    rfl
  have noBlock : ahead Storage.opensBlock (mark :: rest) = .ok (false, mark :: rest) := by
    have noBreak : mark.kind ≠ .newline := kind_mark_ne marks (by decide)
    have noBrace : mark.kind ≠ .leftBrace := kind_mark_ne marks (by decide)
    simp [ahead, Storage.opensBlock, afterNewlines, isNewline, kindAt, noBreak, noBrace]
  rw [fix_apply, Storage.step, bind_of_ok pattern]
  dsimp only
  rw [bind_of_ok noBlock, if_neg (by simp), Storage.afterPattern,
    bind_of_ok (initializer?_of_ne (kind_mark_ne marks (by decide)) _),
    bind_of_ok (show ahead Storage.opensObserversHere (mark :: rest) = .ok (_, _) from rfl),
    if_neg (by simp), bind_of_ok (accept_of_ne (kind_mark_ne marks (by decide)) _)]
  rfl

theorem specified_mark (inner : Parser Declaration) :
    Declaration.specified (Declaration.step inner) (mark :: rest) =
      .error ⟨"declaration", mark :: rest⟩ := by
  have noWord : mark.kind ≠ .identifier := kind_mark_ne marks (by decide)
  have noHash : kindAt 0 (mark :: rest) ≠ some .hash := by
    have other : mark.kind ≠ .hash := kind_mark_ne marks (by decide)
    simpa [kindAt] using other
  have noModifier : Modifier.parseAll (mark :: rest) = .ok ([], mark :: rest) := by
    have unread : Modifier.next? (mark :: rest) = .ok (none, mark :: rest) := by
      simp [Modifier.next?, Modifier.leading?, Modifier.leadingAccess?, noWord]
    rw [Modifier.parseAll, fix_apply, bind_of_ok unread]
    rfl
  have noKeyword : Declaration.keyword (mark :: rest) = .error ⟨"declaration", mark :: rest⟩ := by
    simp [Declaration.keyword, bind_apply, takeIf_cons, Declaration.Keyword.ofToken?, noWord, fail]
  rw [Declaration.specified, bind_of_ok (show nextKind (mark :: rest) = .ok (_, _) from rfl),
    if_neg noHash, bind_of_ok (Attribute.parseAll_of_ne (kind_mark_ne marks (by decide)) _),
    bind_of_ok noModifier, bind_of_error]
  rw [Declaration.step, bind_of_error noKeyword]

section Lens

variable {described : StructureType} {property : Property SemanticType}
  (isOwner : IsPart described.name) (identifier : isIdentifier property.name = true)
  (areParts : ∀ part ∈ dotComponents property.type.baseName, IsPart part)

include isOwner identifier areParts

/-- The expression after the equals sign ends at its first comma. -/
theorem parse_lens : Storage.parse (boundFront described property ++ mark :: rest) =
    .ok (storedFront described property, mark :: rest) := by
  obtain ⟨first, others, components, -⟩ := exists_dotComponents property.type.baseName
  have isSecond : IsName (firstPart property.type) := by
    rw [firstPart, components, List.headD_cons]
    exact (areParts first (components ▸ List.mem_cons_self)).isTypeName.toIsName
  have pattern : ∀ {after : List Token}, FollowedBy TypeExpr.closers after →
      Pattern.parse (nameToken (isReserved property.name) " " property.name :: ⟨.colon, "", ":"⟩ ::
        (lensType described.name property.type ++ after)) =
          .ok (.identifier (declaredName property.name)
            (some (lensTypeExpr described.name property.type)), after) := by
    intro after ends
    have noParen : (nameToken (isReserved property.name) " " property.name).kind ≠ .leftParen := by
      unfold nameToken
      split <;> simp [word]
    have read := Pattern.parse_typed (parse_nameToken identifier) noParen
      (printable_lensTypeExpr areParts isOwner) ends
    rw [tokens_lensTypeExpr areParts isOwner] at read
    rw [read]
    unfold declaredName
    split <;> rfl
  have isExpression : ∀ following, ExpressionTokens following
      [word " " "SimpleLens", ⟨.less, "", "<"⟩, word "" described.name] := fun following =>
    .plain (by decide) (.plain (by decide) (.plain (show Token.Kind.identifier ∉ _ by decide) .nil))
  have text : Token.slice [word " " "SimpleLens", ⟨.less, "", "<"⟩, word "" described.name] =
      "SimpleLens<" ++ described.name := by
    rw [← String.toList_inj]
    simp [slice, sourceOf, source_mk, word]
  have ends : ∀ after, expressionPiece (⟨.comma, "", ","⟩ :: after) =
      .ok ([], ⟨.comma, "", ","⟩ :: after) := fun after => expressionPiece_ended (by simp) after
  rw [boundFront, List.cons_append, List.cons_append, List.append_assoc, List.cons_append,
    List.append_assoc, show ∀ first second : Token, [first, second] ++ mark :: rest =
      first :: second :: mark :: rest from fun _ _ => rfl, Storage.parse, Storage.step,
    bind_of_ok (pattern (.cons (by decide) _))]
  dsimp only
  rw [bind_of_ok (show ahead Storage.opensBlock _ = .ok (false, _) from rfl), if_neg (by simp),
    Storage.afterPattern, bind_of_ok (initializer?_append (by simp) (isExpression _) (ends _)),
    bind_of_ok (show ahead Storage.opensObserversHere _ = .ok (false, _) from rfl),
    if_neg (by simp), bind_of_ok (accept_mark _ _ _ _), if_pos rfl,
    bind_of_ok (newlines_of_ne (by simp [word]) _),
    bind_of_ok (parse_secondVariable marks rest isSecond), text]
  rfl

theorem specified_lens (inner : Parser Declaration) :
    Declaration.specified (Declaration.step inner)
      (word "" "var" :: (boundFront described property ++ mark :: rest)) =
        .ok (.varDeclaration .none (storedFront described property), mark :: rest) := by
  have read : Declaration.afterKeyword inner .varDeclaration
      (boundFront described property ++ mark :: rest) =
        .ok (.varDeclaration .none (storedFront described property), mark :: rest) := by
    rw [Declaration.afterKeyword, bind_of_ok (parse_lens marks rest isOwner identifier areParts)]
    rfl
  exact Declaration.specified_word ⟨rfl, rfl⟩ (Declaration.step_keyword rfl read)

/-- Behind the two variables no declaration begins. -/
theorem members_lens (inner : Parser Declaration) :
    Declaration.members (Declaration.step inner)
      (⟨.newline, "\n    ", ""⟩ :: word "" "var" :: (boundFront described property ++ mark :: rest)) =
        .error ⟨"declaration", mark :: rest⟩ := by
  have noSeparator : (mark :: rest).dropWhile isSeparator = mark :: rest := by
    have noBreak : mark.kind ≠ .newline := kind_mark_ne marks (by decide)
    have noSemicolon : mark.kind ≠ .semicolon := kind_mark_ne marks (by decide)
    simp [isSeparator, noBreak, noSemicolon]
  have stopped := specified_mark marks rest inner
  rw [Declaration.members_eq, fix_apply, Declaration.memberStep_of_cons rfl (by simp [word]),
    bind_of_ok (specified_lens marks rest isOwner identifier areParts inner), bind_of_error]
  rw [List.length_cons, fixWithin_succ, Declaration.memberStep_of_cons noSeparator
    (kind_mark_ne marks (by decide)), bind_of_error stopped]

end Lens
end Marks

def imported (package : String) : Declaration :=
  .importPath none [package]

def microscope (name : String) (members : List Declaration) : Declaration :=
  .composite ⟨.classType, ⟨[], [.access .publicLevel]⟩, .plain (name ++ "Microscope"), [], none,
    members⟩

theorem parse_import {package : String} (isName : IsName package) (gap : String)
    (rest : List Token) :
    Declaration.parse (word "" "import" :: word " " package :: ⟨.newline, gap, ""⟩ :: rest) =
      .ok (imported package, ⟨.newline, gap, ""⟩ :: rest) := by
  have noKind : Declaration.importKind? (word " " package :: ⟨.newline, gap, ""⟩ :: rest) =
      .ok (none, word " " package :: ⟨.newline, gap, ""⟩ :: rest) := by
    simp [Declaration.importKind?, bind_apply, takeIf_cons, kindAt, pure_apply]
  have names : Declaration.importNames (word " " package :: ⟨.newline, gap, ""⟩ :: rest) =
      .ok ([package], ⟨.newline, gap, ""⟩ :: rest) := by
    rw [Declaration.importNames, fix_apply, bind_of_ok (Name.parse_word isName " " _),
      bind_of_ok (accept_of_ne (by simp) _)]
    rfl
  have read : ∀ inner, Declaration.afterKeyword inner .importPath
      (word " " package :: ⟨.newline, gap, ""⟩ :: rest) =
        .ok (imported package, ⟨.newline, gap, ""⟩ :: rest) := by
    intro inner
    rw [Declaration.afterKeyword, bind_of_ok noKind, bind_of_ok names]
    rfl
  have body : Declaration.afterSpecifiers
      (word "" "import" :: word " " package :: ⟨.newline, gap, ""⟩ :: rest) =
        .ok (imported package, ⟨.newline, gap, ""⟩ :: rest) := by
    rw [Declaration.afterSpecifiers, fix_apply]
    exact Declaration.step_keyword rfl (read _)
  exact Declaration.specified_word ⟨rfl, rfl⟩ body

theorem listStep_import {package : String} (isName : IsName package) (gap : String)
    (more : Parser (List Declaration)) (rest : List Token) :
    Declaration.listStep more
      (word "" "import" :: word " " package :: ⟨.newline, gap, ""⟩ :: rest) =
        (more (⟨.newline, gap, ""⟩ :: rest)).map fun (others, left) =>
          (imported package :: others, left) := by
  rw [Declaration.listStep_of_cons rfl, bind_of_ok (parse_import isName gap rest), bind_pure_apply]

/-- No word before which `class` is a modifier ends as the names of the classes do. -/
theorem not_mem_memberKeywords (name : String) :
    name ++ "Microscope" ∉ Modifier.memberKeywords := by
  intro listed
  have ends : "Microscope".toList <:+ (name ++ "Microscope").toList := by simp
  revert ends
  generalize name ++ "Microscope" = keyword at listed
  revert keyword
  decide +kernel

theorem parseAll_modifiers (name : String) (rest : List Token) :
    Modifier.parseAll
      (word "" "public" :: word " " "class" :: word " " (name ++ "Microscope") :: rest) =
        .ok ([.access .publicLevel], word " " "class" :: word " " (name ++ "Microscope") :: rest) := by
  have unlisted := not_mem_memberKeywords name
  have unread : Modifier.next? (word " " "class" :: word " " (name ++ "Microscope") :: rest) =
      .ok (none, word " " "class" :: word " " (name ++ "Microscope") :: rest) := by
    simp [Modifier.next?, Modifier.leading?, Modifier.leadingAccess?, kindAt, wordAt, word,
      AccessLevel.ofKeyword?, Modifier.ofKeyword?, unlisted]
  have access : Modifier.next?
      (word "" "public" :: word " " "class" :: word " " (name ++ "Microscope") :: rest) =
        .ok (some (.access .publicLevel), word " " "class" :: _) := rfl
  have setter : (Modifier.access .publicLevel).withSetter
      (word " " "class" :: word " " (name ++ "Microscope") :: rest) =
        .ok (.access .publicLevel, _) := rfl
  rw [Modifier.parseAll, fix_apply, bind_of_ok access]
  dsimp only
  rw [bind_of_ok setter, List.length_cons, bind_pure_apply, fixWithin_succ, bind_of_ok unread]
  rfl

theorem afterKeyword_class {name : String} (isName : IsName (name ++ "Microscope"))
    (inner : Parser Declaration) (rest : List Token) :
    Declaration.afterKeyword inner (.composite .classType) (word " " (name ++ "Microscope") ::
      ⟨.newline, "\n", ""⟩ :: ⟨.leftBrace, "", "\x7b"⟩ :: rest) =
        (Declaration.members inner rest).map fun (members, left) =>
          (.composite ⟨.classType, .none, .plain (name ++ "Microscope"), [], none, members⟩,
            left) := by
  have opened : Declaration.openBody (⟨.newline, "\n", ""⟩ :: ⟨.leftBrace, "", "\x7b"⟩ :: rest) =
      .ok ((), rest) := rfl
  have noWhere : Declaration.whereClause
      (⟨.newline, "\n", ""⟩ :: ⟨.leftBrace, "", "\x7b"⟩ :: rest) = .ok ((), _ :: _ :: rest) := rfl
  have noSupertypes : Declaration.inheritance?
      (⟨.newline, "\n", ""⟩ :: ⟨.leftBrace, "", "\x7b"⟩ :: rest) = .ok (none, _ :: _ :: rest) := rfl
  rw [Declaration.afterKeyword, bind_of_ok (Name.parse_word isName " " _),
    bind_of_ok (Declaration.genericParameters_of_ne (by simp) _), bind_of_ok noSupertypes,
    bind_of_ok noWhere, bind_of_ok opened, bind_pure_apply]

/-- The class of a lens file is read up to its members. -/
theorem parse_class {name : String} (isName : IsName (name ++ "Microscope")) (rest : List Token) :
    ∃ inner, Declaration.parse (word "" "public" :: word " " "class" ::
      word " " (name ++ "Microscope") :: ⟨.newline, "\n", ""⟩ :: ⟨.leftBrace, "", "\x7b"⟩ :: rest) =
        (Declaration.members (Declaration.step inner) rest).map fun (members, left) =>
          (microscope name members, left) := by
  have found : ∀ after, Declaration.keyword (word " " "class" :: after) =
      .ok (.composite .classType, after) := fun _ => rfl
  have deeper : ∀ depth, fixWithin Declaration.step (depth + 1) =
      Declaration.step (fixWithin Declaration.step depth) :=
    fun depth => funext (fixWithin_succ Declaration.step depth)
  have body : ∀ tokens, Declaration.afterSpecifiers (word " " "class" :: tokens) =
      Declaration.afterKeyword (Declaration.step (fixWithin Declaration.step tokens.length))
        (.composite .classType) tokens := by
    intro tokens
    rw [Declaration.afterSpecifiers, fix_apply, Declaration.step, bind_of_ok (found _),
      List.length_cons, deeper]
  refine ⟨fixWithin Declaration.step (rest.length + 3), ?_⟩
  rw [Declaration.parse, Declaration.specified,
    bind_of_ok (show nextKind (word "" "public" :: _) = .ok (_, _) from rfl),
    if_neg (by simp [kindAt, word]), bind_of_ok (Attribute.parseAll_of_ne (by simp [word]) _),
    bind_of_ok (parseAll_modifiers name _), bind_pure_apply, body,
    afterKeyword_class isName]
  cases Declaration.members _ rest <;> rfl

section Front

variable {package : String} {described : StructureType} (isPackage : IsName package)
  (isClass : IsName (described.name ++ "Microscope"))

include isPackage isClass

/-- A lens file is read up to the members of its class. -/
theorem parseAll_front (rest : List Token) : ∃ inner depth,
    Declaration.parseAll (frontTokens package described ++ rest) =
      match Declaration.members (Declaration.step inner) rest with
      | .error mismatch => .error mismatch
      | .ok (members, after) =>
        (fixWithin Declaration.listStep (depth + 1) after).map fun (others, left) =>
          (["Foundation", "Focus", package].map imported ++
            microscope described.name members :: others, left) := by
  have isFoundation : IsName "Foundation" := by decide
  have isFocus : IsName "Focus" := by decide
  have skip : ∀ (gap : String) (more : Parser (List Declaration)) (tokens : List Token),
      Declaration.listStep more (⟨.newline, gap, ""⟩ :: tokens) = Declaration.listStep more tokens :=
    fun _ more _ => Declaration.listStep_congr rfl more
  obtain ⟨inner, parsed⟩ := parse_class isClass rest
  refine ⟨inner, rest.length + 10, ?_⟩
  have count : (frontTokens package described ++ rest).length = rest.length + 14 := by
    simp [frontTokens]
  rw [Declaration.parseAll_eq, fix_apply, count]
  simp only [frontTokens, List.cons_append, List.nil_append]
  rw [listStep_import isFoundation, fixWithin_succ, skip, listStep_import isFocus,
    fixWithin_succ, skip, listStep_import isPackage, fixWithin_succ, skip,
    Declaration.listStep_of_cons rfl, bind_apply, parsed]
  cases Declaration.members (Declaration.step inner) rest with
  | error mismatch => rfl
  | ok answer =>
    obtain ⟨members, after⟩ := answer
    simp only [Except.map, bind_pure_apply]
    cases fixWithin Declaration.listStep (rest.length + 11) after <;> rfl

/-- A class without members ends the file. -/
theorem parseAll_bare : Declaration.parseAll (frontTokens package described ++
    [⟨.newline, "\n", ""⟩, ⟨.rightBrace, "", "\x7d"⟩, ⟨.newline, "\n", ""⟩]) =
      .ok (["Foundation", "Focus", package].map imported ++ [microscope described.name []], []) := by
  obtain ⟨inner, depth, parsed⟩ := parseAll_front isPackage isClass
    [⟨.newline, "\n", ""⟩, ⟨.rightBrace, "", "\x7d"⟩, ⟨.newline, "\n", ""⟩]
  have none : Declaration.members (Declaration.step inner)
      [⟨.newline, "\n", ""⟩, ⟨.rightBrace, "", "\x7d"⟩, ⟨.newline, "\n", ""⟩] =
        .ok ([], [⟨.newline, "\n", ""⟩]) := rfl
  have ended : fixWithin Declaration.listStep (depth + 1) [⟨.newline, "\n", ""⟩] = .ok ([], []) :=
    Declaration.listStep_of_end rfl _
  rw [parsed, none]
  dsimp only
  rw [ended]
  rfl

end Front

def textBefore (package : String) (described : StructureType) (property : Property SemanticType) :
    String :=
  "import Foundation\nimport Focus\nimport " ++ package ++ "\n\npublic class " ++ described.name ++
    "Microscope\n\x7b\n    var " ++ declaredSpelling property.name ++ ": SimpleLens<" ++
    described.name ++ ", " ++ property.type.text ++ "> = SimpleLens<" ++ described.name ++ ", " ++
    firstPart property.type

theorem sourceOf_frontTokens (package : String) (described : StructureType) :
    sourceOf (frontTokens package described) = "import Foundation\nimport Focus\nimport " ++
      package ++ "\n\npublic class " ++ described.name ++ "Microscope\n\x7b" := by
  rw [← String.toList_inj]
  simp [frontTokens, sourceOf, source_mk, source_word]

theorem sourceOf_boundFront (described : StructureType) (property : Property SemanticType) :
    sourceOf (boundFront described property) = " " ++ declaredSpelling property.name ++
      ": SimpleLens<" ++ described.name ++ ", " ++ property.type.text ++ "> = SimpleLens<" ++
        described.name ++ ", " ++ firstPart property.type := by
  rw [← String.toList_inj]
  simp [boundFront, sourceOf, sourceOf_append, sourceOf_lensType, source_mk, source_word,
    source_declared]

theorem sourceOf_front (package : String) (described : StructureType)
    (property : Property SemanticType) :
    sourceOf (frontTokens package described ++ ⟨.newline, "\n    ", ""⟩ :: word "" "var" ::
      boundFront described property) = textBefore package described property := by
  have opening : ∀ text : String, "Microscope\n\x7b" ++ ("\n    var" ++ (" " ++ text)) =
      "Microscope\n\x7b\n    var " ++ text := by
    intro text
    rw [← String.append_assoc, ← String.append_assoc]
    simp
  have keyword : sourceOf (⟨.newline, "\n    ", ""⟩ :: word "" "var" ::
      boundFront described property) = "\n    var" ++ sourceOf (boundFront described property) := by
    rw [← String.toList_inj]
    simp [sourceOf, source_mk, source_word]
  rw [sourceOf_append, keyword, sourceOf_frontTokens, sourceOf_boundFront]
  unfold textBefore
  simp only [String.append_assoc]
  rw [opening]

/-- What the names of a structure have to be for its types to be read back. -/
theorem isPart_name {described : StructureType} (writable : described.Writable)
    (plain : described.NoTypeWords) : IsPart described.name := by
  have single : dotComponents described.name = [described.name] := by
    simp [dotComponents, splitText, splitChars_of_not_mem writable.undotted]
  exact ⟨isPlainName_of_isTypeName writable.name writable.undotted,
    plain.name _ (single ▸ List.mem_singleton_self _)⟩

theorem isPart_type {described : StructureType} (writable : described.Writable)
    (plain : described.NoTypeWords) {property : Property SemanticType}
    (listed : property ∈ described.properties) :
    ∀ part ∈ dotComponents property.type.baseName, IsPart part := by
  have areNames := List.all_eq_true.mp (writable.properties property listed).type
  exact fun part member => ⟨areNames part member, plain.types property listed part member⟩

theorem isName_class {described : StructureType} (writable : described.Writable) :
    IsName (described.name ++ "Microscope") where
  isWord := Lexeme.isWord_append writable.isWord_name (by decide)
  noWildcard same := by
    have ends : "Microscope".toList <:+ (described.name ++ "Microscope").toList := by simp
    rw [same] at ends
    exact absurd ends.length_le (by decide)

end LensTemplate

theorem Mismatch.toParseError_append (expected : String) (front : List Token) {token : Token}
    (inLine : token.kind ≠ .newline) (rest : List Token) :
    Mismatch.toParseError (front ++ token :: rest) ⟨expected, token :: rest⟩ =
      .unexpected expected token.text (Position.after (sourceOf front ++ token.gap).toList) := by
  have consumed : (front ++ token :: rest).take
      ((front ++ token :: rest).length - (token :: rest).length) = front := by
    simp
  simp only [toParseError, consumed, if_neg inLine]

namespace LensFile

open LensTemplate

section Reread

variable {package : String} {described : StructureType} (isPackage : isPlainName package = true)
  (writable : described.Writable)

include isPackage writable

theorem scan_generated : Token.scan false (fileFor {} package described).text.toList =
    .ok (ofLines false [] (LensTemplate.lines package described)) := by
  have noGap : ([] : List Char).all Trivia.isGapBlank = true := rfl
  have read := scan_unlines (written_lines isPackage writable) noGap false
  rwa [map_sourceOf_lines, List.nil_append] at read

theorem parse_bare (bare : described.properties = []) :
    SourceFile.parse (fileFor {} package described).text =
      .ok ⟨["Foundation", "Focus", package].map imported ++ [microscope described.name []]⟩ := by
  have scanned := scan_generated isPackage writable
  have shape : (ofLines false [] (LensTemplate.lines package described)).dropLast =
      frontTokens package described ++
        [⟨.newline, "\n", ""⟩, ⟨.rightBrace, "", "\x7d"⟩, ⟨.newline, "\n", ""⟩] := by
    rw [ofLines_lines, bare]
    simp [ofLines, withGap, frontTokens]
  have read := parseAll_bare (isName_of_isPlainName isPackage) (isName_class writable)
  rw [← shape] at read
  exact SourceFile.parse_of_ok scanned read

theorem parse_lenses (plain : described.NoTypeWords) {property : Property SemanticType}
    {others : List (Property SemanticType)} (listed : described.properties = property :: others) :
    SourceFile.parse (fileFor {} package described).text =
      .error (.unexpected "declaration" (markText property.type)
        (Position.after (textBefore package described property).toList)) := by
  have scanned := scan_generated isPackage writable
  have first : property ∈ described.properties := listed ▸ List.mem_cons_self
  obtain ⟨mark, behind, marked, marks, noGap, text⟩ := behindFirst_cons property.type
  obtain ⟨more, filled, lenses⟩ := ofLines_lenses listed
  have shape : (ofLines false [] (LensTemplate.lines package described)).dropLast =
      frontTokens package described ++ (⟨.newline, "\n    ", ""⟩ :: word "" "var" ::
        (boundFront described property ++
          mark :: (behind ++ ⟨.leftParen, "", "("⟩ :: more.dropLast))) := by
    rw [ofLines_lines, lenses, marked]
    simp [List.dropLast_append_of_ne_nil, List.dropLast_cons_of_ne_nil, filled]
  generalize behind ++ ⟨.leftParen, "", "("⟩ :: more.dropLast = rest at shape
  obtain ⟨inner, depth, parsed⟩ := parseAll_front (isName_of_isPlainName isPackage)
    (isName_class writable) (⟨.newline, "\n    ", ""⟩ :: word "" "var" ::
      (boundFront described property ++ mark :: rest))
  have failed := members_lens marks rest (isPart_name writable plain)
    (writable.properties property first).name (isPart_type writable plain first) inner
  rw [failed, ← shape] at parsed
  rw [SourceFile.parse_of_error scanned parsed, shape]
  have placed := Mismatch.toParseError_append "declaration" (frontTokens package described ++
    ⟨.newline, "\n    ", ""⟩ :: word "" "var" :: boundFront described property)
    (kind_mark_ne marks (by decide)) rest
  rw [sourceOf_front, noGap, text, String.append_empty] at placed
  rw [← placed]
  simp

end Reread

/-- The file of a structure without properties is read back as it was meant. In any other the
expression of the first lens ends at the comma between its generic arguments, and no declaration
begins behind the first part of the type that follows. -/
theorem parse_generated {package text : String} {described : StructureType}
    (made : generate {} package described = .ok text) (plain : described.NoTypeWords) :
    SourceFile.parse text =
      match described.properties with
      | [] => .ok ⟨["Foundation", "Focus", package].map imported ++ [microscope described.name []]⟩
      | property :: _ =>
        .error (.unexpected "declaration" (markText property.type)
          (Position.after (textBefore package described property).toList)) := by
  obtain ⟨file, built, rfl⟩ := generate_ok_iff.mp made
  obtain ⟨isPackage, writable, rfl⟩ := build_ok_iff.mp built
  cases listed : described.properties with
  | nil => exact parse_bare isPackage writable listed
  | cons property others => exact parse_lenses isPackage writable plain listed

/-- A first property with a reserved name and a dotted type. -/
theorem parse_generated_reserved :
    generate {} "Shapes" reservedNames = .ok (fileFor {} "Shapes" reservedNames).text ∧
      reservedNames.NoTypeWords ∧
      SourceFile.parse (fileFor {} "Shapes" reservedNames).text =
        .error (.unexpected "declaration" "." ⟨7, 81⟩) := by
  have made : generate {} "Shapes" reservedNames =
      .ok (fileFor {} "Shapes" reservedNames).text := rfl
  have plain : reservedNames.NoTypeWords := ⟨by decide +kernel, by decide +kernel⟩
  have place : ParseError.unexpected "declaration"
      (markText (.optional (.optional (.named "Outer.Kind"))))
      (Position.after (textBefore "Shapes" reservedNames
        ⟨"default", .optional (.optional (.named "Outer.Kind"))⟩).toList) =
          .unexpected "declaration" "." ⟨7, 81⟩ := by decide +kernel
  exact ⟨made, plain, (parse_generated made plain).trans (congrArg Except.error place)⟩

def pointType : StructureType where
  name := "Point"
  properties := [⟨"x", .named "Int"⟩]

/-- A file with one lens is not read. -/
theorem parse_generated_point :
    generate {} "Shapes" pointType = .ok (fileFor {} "Shapes" pointType).text ∧
      pointType.NoTypeWords ∧
      ¬ ∃ file, SourceFile.parse (fileFor {} "Shapes" pointType).text = .ok file := by
  have made : generate {} "Shapes" pointType = .ok (fileFor {} "Shapes" pointType).text := rfl
  have plain : pointType.NoTypeWords := ⟨by decide +kernel, by decide +kernel⟩
  obtain ⟨_, built, -⟩ := generate_ok_iff.mp made
  obtain ⟨isPackage, writable, -⟩ := build_ok_iff.mp built
  refine ⟨made, plain, ?_⟩
  rw [parse_lenses isPackage writable plain rfl]
  rintro ⟨file, read⟩
  cases read

end LensFile
end SwiftLens
