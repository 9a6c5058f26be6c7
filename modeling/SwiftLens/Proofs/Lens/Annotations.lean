import SwiftLens.Proofs.Lens.Template
import SwiftLens.Proofs.Printing.Roundtrip

namespace SwiftLens

open SwiftLens.Parser SwiftLens.Token

def typeWords : List String :=
  ["some", "any", "Type", "Protocol"]

/-- No part of the structure's name or of a property's type is such a word. -/
structure Structure.NoTypeWords (described : StructureType) : Prop where
  name : ∀ part ∈ dotComponents described.name, part ∉ typeWords
  types : ∀ property ∈ described.properties,
    ∀ part ∈ dotComponents property.type.baseName, part ∉ typeWords

theorem isName_of_isPlainName {name : String} (plain : isPlainName name = true) : IsName name where
  isWord := Lexeme.isWord_of_isPlainName plain
  noWildcard := by
    rintro rfl
    simp [isPlainName, isIdentifier] at plain

namespace LensTemplate

def pathOf (name : String) : TypePath :=
  (dotComponents name).map fun part => ⟨.plain part, []⟩

def typeExpr : SemanticType → TypeExpr
  | .defined (.optional wrapped) => .optional (typeExpr wrapped)
  | other => .named (pathOf other.baseName)

def lensTypeExpr (owner : String) (field : SemanticType) : TypeExpr :=
  .named [⟨.plain "SimpleLens", [.simple owner, typeExpr field]⟩]

theorem typeExpr_takesMark (field : SemanticType) : (typeExpr field).takesMark = true := by
  unfold typeExpr
  split <;> rfl

structure IsPart (part : String) : Prop where
  plain : isPlainName part = true
  noWord : part ∉ typeWords

theorem IsPart.isTypeName {part : String} (isPart : IsPart part) : IsTypeName part where
  toIsName := isName_of_isPlainName isPart.plain
  noConstraint := by
    constructor
    · rintro rfl
      exact isPart.noWord (by decide)
    · rintro rfl
      exact isPart.noWord (by decide)

theorem joined_parts {parts : List String} (areParts : ∀ part ∈ parts, IsPart part)
    {first : String} (isFirst : IsPart first) (gap : String) :
    joined ⟨.dot, "", "."⟩ "" ((first :: parts).map fun part =>
      TypeExpr.componentTokens ⟨.plain part, []⟩) gap =
        word gap first :: parts.flatMap fun part => [⟨.dot, "", "."⟩, word "" part] := by
  have spelled : ∀ {part : String}, IsPart part → ∀ gap,
      TypeExpr.componentTokens ⟨.plain part, []⟩ gap = [word gap part] := by
    intro part isPart gap
    rw [TypeExpr.componentTokens, Name.spelling, ofSpelling_of_isWord isPart.isTypeName.isWord]
  induction parts generalizing first gap with
  | nil => exact spelled isFirst gap
  | cons second parts ih =>
    obtain ⟨isSecond, others⟩ := List.forall_mem_cons.mp areParts
    have later := ih others isSecond ""
    rw [List.map_cons] at later
    rw [List.map_cons, List.map_cons, joined, later, spelled isFirst]
    rfl

section Field

variable {field : SemanticType} (areParts : ∀ part ∈ dotComponents field.baseName, IsPart part)

include areParts

theorem tokens_typeExpr (gap : String) : (typeExpr field).tokens gap = type gap field := by
  fun_induction typeExpr field with
  | case1 wrapped ih =>
    have same := ih areParts
    rw [TypeExpr.tokens, same, type, type, SemanticType.optionalDepth, List.replicate_succ',
      SemanticType.baseName, List.append_assoc]
  | case2 other noOptional =>
    obtain ⟨first, others, components, -⟩ := exists_dotComponents other.baseName
    have depth : other.optionalDepth = 0 := by
      unfold SemanticType.optionalDepth
      split
      · next wrapped => exact absurd rfl (noOptional wrapped)
      · rfl
    rw [components] at areParts
    obtain ⟨isFirst, areOthers⟩ := List.forall_mem_cons.mp areParts
    have parts := joined_parts areOthers isFirst gap
    rw [type, dotted_of_components components, depth, List.replicate_zero, List.append_nil,
      TypeExpr.tokens, TypeExpr.componentTokensOf_eq_map, pathOf, components, List.map_map]
    exact parts

theorem printable_typeExpr : (typeExpr field).Printable := by
  fun_induction typeExpr field with
  | case1 wrapped ih => exact .optional (typeExpr_takesMark wrapped) (ih areParts)
  | case2 other _ =>
    obtain ⟨first, others, components, -⟩ := exists_dotComponents other.baseName
    rw [components] at areParts
    obtain ⟨isFirst, areOthers⟩ := List.forall_mem_cons.mp areParts
    rw [pathOf, components]
    refine .named ⟨by simp, ?_, ?_⟩ ?_ ?_
    · intro component member
      obtain ⟨part, listed, rfl⟩ := List.mem_map.mp member
      exact (areParts part listed).isTypeName.toIsName
    · intro component member
      obtain ⟨part, listed, rfl⟩ := List.mem_map.mp member
      have noWord := (areOthers part listed).noWord
      rintro (same | same)
      · cases same
        exact noWord (by decide)
      · cases same
        exact noWord (by decide)
    · rintro component ⟨⟩
      simpa using isFirst.isTypeName.noConstraint
    · intro component member
      obtain ⟨part, -, rfl⟩ := List.mem_map.mp member
      simp

theorem printable_lensTypeExpr {owner : String} (isOwner : IsPart owner) :
    (lensTypeExpr owner field).Printable := by
  have isLens : IsName "SimpleLens" := by decide
  refine .named ⟨by simp, List.forall_mem_singleton.mpr isLens, by simp⟩ (by simp) ?_
  refine List.forall_mem_singleton.mpr (List.forall_mem_cons.mpr
    ⟨TypeExpr.printable_simple isOwner.isTypeName, ?_⟩)
  exact List.forall_mem_singleton.mpr (printable_typeExpr areParts)

theorem tokens_lensTypeExpr {owner : String} (isOwner : IsPart owner) :
    (lensTypeExpr owner field).tokens " " = lensType owner field := by
  have isLens : Lexeme.isWord "SimpleLens" = true := by decide
  have spelled : (TypeExpr.simple owner).tokens "" = [word "" owner] := by
    simp [TypeExpr.simple, TypeExpr.tokens, TypeExpr.componentTokensOf, TypeExpr.componentTokens,
      joined, Name.spelling, ofSpelling_of_isWord isOwner.isTypeName.isWord]
  rw [lensTypeExpr, TypeExpr.tokens, TypeExpr.componentTokensOf, TypeExpr.componentTokensOf, joined,
    TypeExpr.componentTokens, TypeExpr.tokensOf, TypeExpr.tokensOf, joined, joined, spelled,
    tokens_typeExpr areParts, Name.spelling, ofSpelling_of_isWord isLens, lensType]
  rfl

end Field

end LensTemplate
end SwiftLens
