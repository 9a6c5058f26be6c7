import SwiftLens.Proofs.Lens.Built
import SwiftLens.Proofs.Lens.Lines

namespace SwiftLens

namespace Lexeme

theorem isWord_iff {text : String} :
    isWord text = true ↔ ∃ first rest, text.toList = first :: rest ∧
      startsIdentifier first = true ∧ rest.all continuesIdentifier = true := by
  unfold isWord
  split
  · next chars => simp [chars]
  · next first rest chars => simp [chars, and_assoc]

theorem isWord_of_isIdentifier {name : String} (identifier : isIdentifier name = true) :
    isWord name = true := by
  unfold isIdentifier at identifier
  split at identifier
  · cases identifier
  · next first rest chars =>
    simp only [Bool.and_eq_true, List.all_eq_true] at identifier
    obtain ⟨⟨starts, -⟩, continues⟩ := identifier
    have firstStarts : startsIdentifier first = true := by simp [startsIdentifier, starts]
    have restContinues : rest.all continuesIdentifier = true := by
      rw [List.all_eq_true]
      intro c member
      simp [continuesIdentifier, continues c member]
    exact isWord_iff.mpr ⟨first, rest, chars, firstStarts, restContinues⟩

theorem isWord_of_isPlainName {name : String} (plain : isPlainName name = true) :
    isWord name = true := by
  rw [isPlainName, Bool.and_eq_true] at plain
  exact isWord_of_isIdentifier plain.1

theorem isWord_append {front back : String} (isFront : isWord front = true)
    (continues : back.toList.all continuesIdentifier = true) : isWord (front ++ back) = true := by
  obtain ⟨first, rest, chars, starts, restContinues⟩ := isWord_iff.mp isFront
  have all : (rest ++ back.toList).all continuesIdentifier = true := by
    rw [List.all_append, restContinues, continues, Bool.and_self]
  exact isWord_iff.mpr ⟨first, rest ++ back.toList, by simp [chars], starts, all⟩

theorem continuesBackticked_of_continuesIdentifier {c : Char}
    (continues : continuesIdentifier c = true) : continuesBackticked c = true := by
  have noTick : c ≠ '\x60' := by
    rintro rfl
    rw [continuesIdentifier_ascii (by decide)] at continues
    exact absurd continues (by decide)
  have noFeed : c ≠ '\n' := by
    rintro rfl
    rw [continuesIdentifier_feed] at continues
    cases continues
  simp [continuesBackticked, noTick, noFeed]

/-- A word can stand in backticks. -/
theorem continuesBackticked_of_isWord {text : String} (spelled : isWord text = true) :
    text.toList.all continuesBackticked = true := by
  obtain ⟨first, rest, chars, starts, continues⟩ := isWord_iff.mp spelled
  have firstContinues : continuesIdentifier first = true := by
    simp only [startsIdentifier, continuesIdentifier, Bool.or_eq_true] at starts ⊢
    exact starts.imp_left (.imp_left isLetterOrNumeral_of_isLetter)
  rw [List.all_eq_true] at continues ⊢
  intro c member
  rw [chars] at member
  rcases List.mem_cons.mp member with rfl | later
  · exact continuesBackticked_of_continuesIdentifier firstContinues
  · exact continuesBackticked_of_continuesIdentifier (continues c later)

end Lexeme

/-- A name without dots is the only part of it. -/
theorem isPlainName_of_isTypeName {name : String} (isName : isTypeName name = true)
    (undotted : '.' ∉ name.toList) : isPlainName name = true := by
  simpa [isTypeName, dotComponents, splitText, splitChars_of_not_mem undotted] using isName

theorem Structure.Writable.isWord_name {described : StructureType}
    (writable : described.Writable) : Lexeme.isWord described.name = true :=
  Lexeme.isWord_of_isPlainName (isPlainName_of_isTypeName writable.name writable.undotted)

theorem exists_dotComponents (name : String) : ∃ first others,
    dotComponents name = first :: others ∧ first ++ String.join (others.map ("." ++ ·)) = name := by
  obtain ⟨first, others, parts, joined⟩ := exists_splitChars '.' name.toList
  have components : dotComponents name = String.ofList first :: others.map String.ofList := by
    simp [dotComponents, splitText, parts]
  refine ⟨_, _, components, ?_⟩
  rw [← String.toList_inj]
  simp [List.flatMap_map, joined]

def SemanticType.optionalDepth : SemanticType → Nat
  | defined (.optional wrapped) => optionalDepth wrapped + 1
  | _ => 0

theorem SemanticType.text_eq (type : SemanticType) :
    type.text = type.baseName ++ String.ofList (List.replicate type.optionalDepth '?') := by
  fun_induction text type with
  | case1 name => simp [baseName, optionalDepth]
  | case2 described => simp [baseName, optionalDepth]
  | case3 described => simp [baseName, optionalDepth]
  | case4 wrapped ih =>
    rw [ih, baseName, optionalDepth, List.replicate_succ', String.ofList_append,
      String.append_assoc]

namespace LensTemplate

open Token (word sourceOf)

def dotted (gap name : String) : List Token :=
  match dotComponents name with
  | [] => []
  | first :: others =>
    word gap first :: others.flatMap fun part => [⟨.dot, "", "."⟩, word "" part]

theorem dotted_of_components {name first : String} {others : List String}
    (components : dotComponents name = first :: others) (gap : String) :
    dotted gap name =
      word gap first :: others.flatMap fun part => [⟨.dot, "", "."⟩, word "" part] := by
  rw [dotted, components]

def type (gap : String) (described : SemanticType) : List Token :=
  dotted gap described.baseName ++ List.replicate described.optionalDepth ⟨.question, "", "?"⟩

def nameToken (reserved : Bool) (gap name : String) : Token :=
  if reserved then ⟨.backticked, gap, inBackticks name⟩ else word gap name

def argument (focus gap name : String) : List Token :=
  nameToken (reservedLabels.contains name) gap name :: ⟨.colon, "", ":"⟩ ::
    if name = focus then [word " " "value"]
    else [word " " "structure", ⟨.dot, "", "."⟩, word "" name]

def arguments (focus : String) : List String → List Token
  | [] => []
  | first :: others =>
    argument focus "" first ++
      others.flatMap fun other => ⟨.comma, "", ","⟩ :: argument focus " " other

def lensType (owner : String) (field : SemanticType) : List Token :=
  [word " " "SimpleLens", ⟨.less, "", "<"⟩, word "" owner, ⟨.comma, "", ","⟩] ++ type " " field ++
    [⟨.greater, "", ">"⟩]

def lens (described : StructureType) (property : Property SemanticType) : List (List Token) :=
  [[word "    " "var", nameToken (isReserved property.name) " " property.name, ⟨.colon, "", ":"⟩] ++
      lensType described.name property.type ++ [⟨.equal, " ", "="⟩] ++
      lensType described.name property.type ++ [⟨.leftParen, "", "("⟩],
   [word "        " "get", ⟨.colon, "", ":"⟩],
   [⟨.leftBrace, "        ", "\x7b"⟩],
   [⟨.leftParen, "            ", "("⟩, word "" "structure", ⟨.colon, "", ":"⟩,
      word " " described.name, ⟨.rightParen, "", ")"⟩, ⟨.arrow, " ", "->"⟩] ++
      type " " property.type ++ [word " " "in"],
   [],
   [word "            " "return", word " " "structure", ⟨.dot, "", "."⟩, word "" property.name],
   [⟨.rightBrace, "        ", "\x7d"⟩, ⟨.comma, "", ","⟩],
   [],
   [word "        " "set", ⟨.colon, "", ":"⟩],
   [⟨.leftBrace, "        ", "\x7b"⟩],
   [⟨.leftParen, "            ", "("⟩, word "" "structure", ⟨.colon, "", ":"⟩,
      word " " described.name, ⟨.comma, "", ","⟩, word " " "value", ⟨.colon, "", ":"⟩] ++
      type " " property.type ++
      [⟨.rightParen, "", ")"⟩, ⟨.arrow, " ", "->"⟩, word " " described.name, word " " "in"],
   [],
   [word "            " "return", word " " described.name, ⟨.leftParen, "", "("⟩] ++
      arguments property.name (described.properties.map (·.name)) ++ [⟨.rightParen, "", ")"⟩],
   [⟨.rightBrace, "        ", "\x7d"⟩],
   [⟨.rightParen, "    ", ")"⟩]]

def lines (package : String) (described : StructureType) : List (List Token) :=
  ["Foundation", "Focus", package].map (fun imported => [word "" "import", word " " imported]) ++
    [[],
     [word "" "public", word " " "class", word " " (described.name ++ "Microscope")],
     [⟨.leftBrace, "", "\x7b"⟩]] ++
    [[]].intercalate (described.properties.map (lens described)) ++
    [[⟨.rightBrace, "", "\x7d"⟩]]

section Source

theorem sourceOf_replicate (count : Nat) :
    sourceOf (List.replicate count ⟨.question, "", "?"⟩) =
      String.ofList (List.replicate count '?') := by
  induction count with
  | zero => rfl
  | succ count ih =>
    rw [List.replicate_succ, sourceOf, ih, List.replicate_succ, ← String.toList_inj]
    simp [Token.source_mk]

theorem sourceOf_dotted (gap name : String) : sourceOf (dotted gap name) = gap ++ name := by
  obtain ⟨first, others, components, joined⟩ := exists_dotComponents name
  rw [dotted_of_components components, sourceOf, Token.sourceOf_flatMap, Token.source_word]
  simpa [sourceOf, Token.source_mk, Token.source_word, String.append_assoc] using joined

theorem sourceOf_type (gap : String) (described : SemanticType) :
    sourceOf (type gap described) = gap ++ described.text := by
  rw [type, Token.sourceOf_append, sourceOf_dotted, sourceOf_replicate, SemanticType.text_eq,
    String.append_assoc]

theorem source_declared (name : String) :
    (nameToken (isReserved name) " " name).source = " " ++ declaredSpelling name := by
  unfold nameToken declaredSpelling
  split <;> rfl

theorem source_label (gap name : String) :
    (nameToken (reservedLabels.contains name) gap name).source = gap ++ labelSpelling name := by
  unfold nameToken labelSpelling
  split <;> rfl

theorem sourceOf_argument (focus gap name : String) :
    sourceOf (argument focus gap name) =
      gap ++ LensArgument.text ⟨name, if name = focus then .newValue else .existing⟩ := by
  rw [argument, LensArgument.text, sourceOf, source_label, ← String.toList_inj]
  by_cases inFocus : name = focus
  · simp [inFocus, sourceOf, Token.source_mk, Token.source_word]
  · simp [inFocus, sourceOf, Token.source_mk, Token.source_word]

theorem sourceOf_arguments (focus : String) (properties : List (Property SemanticType)) :
    sourceOf (arguments focus (properties.map (·.name))) =
      ", ".intercalate ((LensFile.setterArguments properties focus).map LensArgument.text) := by
  induction properties with
  | nil => rfl
  | cons first others ih =>
    cases others with
    | nil => simp [arguments, sourceOf_argument, LensFile.setterArguments]
    | cons second others =>
      have shifted : sourceOf (arguments focus (((first :: second :: others).map (·.name)))) =
          sourceOf (argument focus "" first.name) ++ ", " ++
            sourceOf (arguments focus ((second :: others).map (·.name))) := by
        rw [← String.toList_inj]
        simp [arguments, sourceOf, sourceOf_argument, Token.source_mk]
      rw [shifted, ih, sourceOf_argument]
      simp [LensFile.setterArguments, String.intercalate_cons_cons]

theorem sourceOf_lensType (owner : String) (field : SemanticType) :
    sourceOf (lensType owner field) = " SimpleLens<" ++ owner ++ ", " ++ field.text ++ ">" := by
  rw [← String.toList_inj]
  simp [lensType, sourceOf, sourceOf_type, Token.source_mk, Token.source_word]

theorem map_sourceOf_lens (described : StructureType) (property : Property SemanticType) :
    (lens described property).map sourceOf = (LensFile.lensFor {} described property).lines := by
  simp only [lens, PropertyLens.lines, List.map_cons, List.map_nil, List.cons.injEq, and_true,
    ← String.toList_inj]
  simp [sourceOf, sourceOf_lensType, sourceOf_type, sourceOf_arguments, source_declared,
    Token.source_mk, Token.source_word, PropertyLens.typeText, PropertyLens.argumentsText,
    LensFile.lensFor]

theorem body_lenses (described : StructureType) (properties : List (Property SemanticType)) :
    LensFile.body (properties.map (LensFile.lensFor {} described)) =
      ([[]].intercalate (properties.map (lens described))).map sourceOf := by
  induction properties with
  | nil => rfl
  | cons property rest ih =>
    cases rest with
    | nil => simp [LensFile.body, map_sourceOf_lens]
    | cons next others =>
      rw [List.map_cons] at ih
      simp only [List.map_cons, LensFile.body, List.intercalate_cons_cons, ih, List.map_append,
        map_sourceOf_lens]
      simp [sourceOf]

/-- The lines of a lens file spell out the template. -/
theorem map_sourceOf_lines (package : String) (described : StructureType) :
    (lines package described).map sourceOf = (LensFile.fileFor {} package described).lines := by
  have imported (name : String) :
      sourceOf [word "" "import", word " " name] = "import " ++ name := by
    rw [← String.toList_inj]
    simp [sourceOf, Token.source_word]
  have header : sourceOf [word "" "public", word " " "class",
      word " " (described.name ++ "Microscope")] =
      (LensFile.fileFor {} package described).header := by
    rw [← String.toList_inj]
    simp [sourceOf, Token.source_word, LensFile.header, LensFile.fileFor, LensSettings.className]
  simp only [lines, LensFile.lines, List.map_append, List.map_cons, List.map_nil,
    imported, header]
  simp [LensFile.fileFor, body_lenses, sourceOf, Token.source_mk]

end Source

section Written

open Token (Written Legible StandsOff)

theorem gap_nameToken (reserved : Bool) (gap name : String) :
    (nameToken reserved gap name).gap = gap := by
  unfold nameToken
  split <;> rfl

theorem written_nameToken {gap name : String} (spaces : gap.toList.all (· == ' ') = true)
    (isWord : Lexeme.isWord name = true) (reserved : Bool) {rest : List Token}
    (off : StandsOff rest) (others : Written rest) :
    Written (nameToken reserved gap name :: rest) := by
  have legible : Legible (nameToken reserved gap name).kind (nameToken reserved gap name).text := by
    unfold nameToken
    split
    · exact ⟨name, rfl, Lexeme.continuesBackticked_of_isWord isWord⟩
    · exact isWord
  rw [← gap_nameToken reserved gap name] at spaces
  exact ⟨spaces, legible, fun _ => off, others⟩

theorem written_dotted {gap name : String} (spaces : gap.toList.all (· == ' ') = true)
    (isName : isTypeName name = true) : Written (dotted gap name) := by
  obtain ⟨first, others, components, -⟩ := exists_dotComponents name
  rw [isTypeName, components, List.all_cons, Bool.and_eq_true, List.all_eq_true] at isName
  have firstWord := Lexeme.isWord_of_isPlainName isName.1
  have parts : ∀ part ∈ others, Written [⟨.dot, "", "."⟩, word "" part] ∧
      StandsOff [⟨.dot, "", "."⟩, word "" part] := by
    intro part member
    have isWord := Lexeme.isWord_of_isPlainName (isName.2 part member)
    simp +decide [Written, Legible, word, isWord]
  obtain ⟨later, off⟩ := Written.flatMap parts
  rw [dotted_of_components components]
  exact ⟨spaces, firstWord, fun _ => off, later⟩

theorem written_marks (count : Nat) :
    Written (List.replicate count ⟨.question, "", "?"⟩) ∧
      StandsOff (List.replicate count ⟨.question, "", "?"⟩) := by
  induction count with
  | zero => exact ⟨trivial, Token.standsOff_nil⟩
  | succ count ih =>
    rw [List.replicate_succ]
    simp +decide [Written, Legible, ih.1]

theorem written_type {type : SemanticType} (isName : isTypeName type.baseName = true) :
    Written (LensTemplate.type " " type) := by
  obtain ⟨marks, off⟩ := written_marks type.optionalDepth
  exact (written_dotted (by decide) isName).append marks off

theorem standsOff_type (type : SemanticType) : StandsOff (LensTemplate.type " " type) := by
  obtain ⟨first, others, components, -⟩ := exists_dotComponents type.baseName
  rw [LensTemplate.type, dotted_of_components components]
  simp [word]

theorem written_lensType {owner : String} {field : SemanticType}
    (isWord : Lexeme.isWord owner = true) (isName : isTypeName field.baseName = true) :
    Written (lensType owner field) ∧ StandsOff (lensType owner field) := by
  have opening : Written
      [word " " "SimpleLens", ⟨.less, "", "<"⟩, word "" owner, ⟨.comma, "", ","⟩] := by
    simp +decide [Written, Legible, word, isWord]
  have closing : Written [⟨.greater, "", ">"⟩] := by
    simp +decide [Written, Legible]
  have inside := opening.append (written_type isName) (standsOff_type field)
  exact ⟨inside.append closing (by simp), by simp [lensType, word]⟩

theorem written_argument {gap name : String} (spaces : gap.toList.all (· == ' ') = true)
    (isWord : Lexeme.isWord name = true) (focus : String) : Written (argument focus gap name) := by
  refine written_nameToken spaces isWord _ (by simp) ?_
  split
  · simp +decide [Written, Legible, word]
  · simp +decide [Written, Legible, word, isWord]

theorem written_arguments {names : List String}
    (areWords : ∀ name ∈ names, Lexeme.isWord name = true) (focus : String) :
    Written (arguments focus names) := by
  cases names with
  | nil => exact trivial
  | cons first others =>
    obtain ⟨isWord, areOthers⟩ := List.forall_mem_cons.mp areWords
    have listed : ∀ other ∈ others, Written (⟨.comma, "", ","⟩ :: argument focus " " other) ∧
        StandsOff (⟨.comma, "", ","⟩ :: argument focus " " other) := by
      intro other member
      have passed : Written (argument focus " " other) :=
        written_argument (by decide) (areOthers other member) focus
      simp +decide [Written, Legible, passed]
    obtain ⟨later, off⟩ := Written.flatMap listed
    exact (written_argument (by decide) isWord focus).append later off

theorem written_lens {described : StructureType} (writable : described.Writable)
    {property : Property SemanticType} (member : property ∈ described.properties) :
    ∀ line ∈ lens described property, Written line := by
  have owner := writable.isWord_name
  have focus : Lexeme.isWord property.name = true :=
    Lexeme.isWord_of_isIdentifier (writable.properties property member).name
  have isName := (writable.properties property member).type
  have type := written_type isName
  have typeOff := standsOff_type property.type
  obtain ⟨lensType, lensTypeOff⟩ := written_lensType owner isName
  have names : ∀ name ∈ described.properties.map (·.name), Lexeme.isWord name = true := by
    intro name listed
    obtain ⟨other, otherMember, rfl⟩ := List.mem_map.mp listed
    exact Lexeme.isWord_of_isIdentifier (writable.properties other otherMember).name
  have arguments := written_arguments names property.name
  have colon : Written [⟨.colon, "", ":"⟩] := by simp +decide [Written, Legible]
  have declared : Written
      [nameToken (isReserved property.name) " " property.name, ⟨.colon, "", ":"⟩] :=
    written_nameToken (by decide) focus _ (by simp) colon
  have declaredOff : StandsOff
      [nameToken (isReserved property.name) " " property.name, ⟨.colon, "", ":"⟩] := by
    simp [gap_nameToken]
  simp only [lens, List.forall_mem_cons, List.not_mem_nil, false_implies, implies_true, and_true]
  refine ⟨?declaration, ?_, ?_, ?getter, trivial, ?_, ?_, trivial, ?_, ?_, ?setter, trivial,
    ?rebuilding, ?_, ?_⟩
  case declaration =>
    have opening : Written [word "    " "var"] := by
      simp +decide [Written, Legible, word]
    have upToType := (opening.append declared declaredOff).append lensType lensTypeOff
    have equal : Written [⟨.equal, " ", "="⟩] := by simp +decide [Written, Legible]
    have paren : Written [⟨.leftParen, "", "("⟩] := by simp +decide [Written, Legible]
    have upToLens := (upToType.append equal (by simp)).append lensType lensTypeOff
    exact upToLens.append paren (by simp)
  case getter =>
    refine .append (.append ?_ type typeOff) ?_ ?_ <;>
      simp +decide [Written, Legible, word, owner]
  case setter =>
    refine .append (.append ?_ type typeOff) ?_ ?_ <;>
      simp +decide [Written, Legible, word, owner]
  case rebuilding =>
    -- The first argument touches the parenthesis, so `append` does not apply there.
    have closing : Written [⟨.rightParen, "", ")"⟩] := by simp +decide [Written, Legible]
    have passed := arguments.append closing (by simp)
    simp +decide [Written, Legible, word, owner, passed]
  all_goals
    simp +decide [Written, Legible, word, focus]

theorem written_lines {package : String} {described : StructureType}
    (plain : isPlainName package = true) (writable : described.Writable) :
    ∀ line ∈ lines package described, Written line := by
  have owner := writable.isWord_name
  have className : Lexeme.isWord (described.name ++ "Microscope") = true :=
    Lexeme.isWord_append owner (by decide)
  have packageName := Lexeme.isWord_of_isPlainName plain
  have lenses : ∀ line ∈ [[]].intercalate (described.properties.map (lens described)),
      Written line := by
    apply Written.blocks
    intro block member
    obtain ⟨property, listed, rfl⟩ := List.mem_map.mp member
    exact written_lens writable listed
  simp only [lines, List.forall_mem_append]
  refine ⟨⟨⟨?_, ?_⟩, lenses⟩, ?_⟩ <;>
    simp +decide [Written, Legible, word, className, packageName]

end Written

/-- The kinds and texts of the tokens in a lens file. -/
def signs (package : String) (described : StructureType) : List (Token.Kind × String) :=
  Token.signsOf (lines package described)

end LensTemplate

def reservedNames : StructureType where
  name := "Pattern"
  properties := [⟨"default", .optional (.optional (.named "Outer.Kind"))⟩, ⟨"var", .named "Int"⟩]

end SwiftLens
