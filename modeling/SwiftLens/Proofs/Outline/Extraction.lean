import Mathlib.Data.List.Basic
import SwiftLens.Proofs.Extraction.Meaning
import SwiftLens.Proofs.Outline.Reading

namespace SwiftLens

def CaseOutline.choiceCase (declared : CaseOutline) : ChoiceCase SemanticType :=
  ⟨declared.name, (declared.payload.getD []).map .named⟩

def EnumOutline.choice (declared : EnumOutline) : ChoiceType :=
  ⟨declared.name, declared.cases.map CaseOutline.choiceCase⟩

def MemberOutline.field? : MemberOutline → Option FieldOutline
  | field declared => some declared
  | enumeration _ => none

def MemberOutline.enumeration? : MemberOutline → Option EnumOutline
  | field _ => none
  | enumeration declared => some declared

namespace Outline

def fields (outline : Outline) : List FieldOutline :=
  outline.members.filterMap MemberOutline.field?

def enumerations (outline : Outline) : List EnumOutline :=
  outline.members.filterMap MemberOutline.enumeration?

def fieldType (outline : Outline) (field : FieldOutline) : SemanticType :=
  let type := SemanticType.named
    (if field.type ∈ outline.enumerations.map (·.name) then qualifiedName outline.name field.type
    else field.type)
  if field.isOptional then .optional type else type

def structureType (outline : Outline) : StructureType :=
  ⟨outline.name, outline.fields.map fun field => ⟨field.name, outline.fieldType field⟩⟩

def definitions (outline : Outline) : List TypeDefinition :=
  outline.enumerations.map (.ofChoice ·.choice) ++ [.ofStructure outline.structureType]

inductive States (outline : Outline) : Relation → Prop
  | implements {first : String} {later : List String} : outline.supertypes = first :: later →
      States outline ⟨.implements, .named outline.name, .named first⟩
  | inherits {first supertype : String} {later : List String} :
      outline.supertypes = first :: later → supertype ∈ later →
      States outline ⟨.inherits, .named outline.name, .named supertype⟩
  | encapsulates {nested : EnumOutline} : nested ∈ outline.enumerations →
      States outline ⟨.encapsulates, .named outline.name, .named nested.name⟩

end Outline

theorem CaseOutline.case?_member (declared : CaseOutline) :
    declared.member.case? = some declared.choiceCase := by
  obtain ⟨name, _ | types⟩ := declared
  · rfl
  · apply congrArg (fun types => some (ChoiceCase.mk name types))
    change (types.map TypeExpr.namedElement).filterMap _ = types.map SemanticType.named
    rw [List.filterMap_map]
    exact congrFun (List.filterMap_eq_map (f := SemanticType.named)) types

theorem EnumOutline.choice?_enumeration (declared : EnumOutline) :
    declared.enumeration.choice? = some declared.choice := by
  simp [Enumeration.choice?, enumeration, choice, Name.usable?, List.filterMap_map,
    CaseOutline.case?_member]

theorem FieldOutline.field?_declaration (field : FieldOutline) :
    field.declaration.field? {} = some ⟨field.name, field.typeExpr⟩ := by
  unfold declaration
  split <;> rfl

theorem FieldOutline.enumeration?_declaration (field : FieldOutline) :
    field.declaration.enumeration? = none := by
  unfold declaration
  split <;> rfl

namespace Outline

theorem supertypeNames_composite (outline : Outline) :
    outline.composite.supertypeNames = outline.supertypes := by
  have single : ∀ name, (TypePath.single? (namedPath name)).bind (·.name.usable?) = some name :=
    fun _ => rfl
  unfold Composite.supertypeNames Composite.supertypes composite inheritance
  split
  · next none => simp [none]
  · simp [List.filterMap_map, single]

theorem fields_composite (outline : Outline) :
    outline.composite.fields {} = outline.fields.map fun field => ⟨field.name, field.typeExpr⟩ := by
  unfold Composite.fields fields composite
  rw [List.filterMap_map, List.map_filterMap]
  congr 1
  funext member
  cases member with
  | field declared => exact declared.field?_declaration
  | enumeration declared => rfl

theorem choices_composite (outline : Outline) :
    outline.composite.choices {} = outline.enumerations.map EnumOutline.choice := by
  have nested : outline.composite.enumerations =
      outline.enumerations.map EnumOutline.enumeration := by
    unfold Composite.enumerations enumerations composite
    rw [List.filterMap_map, List.map_filterMap]
    congr 1
    funext member
    cases member with
    | field declared => exact declared.enumeration?_declaration
    | enumeration declared => rfl
  have admitted : outline.composite.enumerations.filter
      (fun nested => ({} : ExtractionOptions).admits nested.specifiers) =
        outline.composite.enumerations := List.filter_eq_self.mpr fun _ _ => rfl
  unfold Composite.choices
  rw [admitted, nested, List.filterMap_map]
  simp [EnumOutline.choice?_enumeration]

theorem visited (outline : Outline) : outline.composite.Visited {} outline.name where
  kind := show Composite.Kind.structType ∈ ({} : ExtractionOptions).kinds by decide
  name := rfl
  isPublic := by simp

end Outline

namespace Finding

theorem definitions_foldl_related (relations : List Relation) (catalog : Catalog) :
    ((relations.map related).foldl enters catalog).definitions = catalog.definitions := by
  induction relations generalizing catalog with
  | nil => rfl
  | cons relation relations ih => exact ih (catalog.relate relation)

theorem definitions_foldl_choice (container : String) (choices : List ChoiceType)
    (catalog : Catalog) :
    ((choices.map (choice container)).foldl enters catalog).definitions =
      (choices.map Definition.ofChoice).foldl OrderedSet.insert catalog.definitions := by
  induction choices generalizing catalog with
  | nil => rfl
  | cons declared choices ih => exact ih _

/-- Of choices with one name, the last one keeps it. -/
theorem find?_foldl_choice (container name : String) (choices : List ChoiceType)
    (catalog : Catalog) :
    ((choices.map (choice container)).foldl enters catalog).find? name =
      ((choices.reverse.find? (·.name = name)).map Definition.ofChoice).or (catalog.find? name) := by
  induction choices generalizing catalog with
  | nil => rfl
  | cons declared choices ih =>
    rw [List.map_cons, List.foldl_cons, ih, List.reverse_cons, List.find?_append]
    cases later : choices.reverse.find? (·.name = name) with
    | some other => rfl
    | none =>
      by_cases same : declared.name = name <;> simp [enters, same]

end Finding

namespace Outline

def earlier (outline : Outline) : List Finding :=
  (Composite.supertypeRelations outline.name outline.supertypes).map .related ++
    (outline.enumerations.map EnumOutline.choice).map (.choice outline.name)

theorem findings_composite (outline : Outline) :
    findingsOf {} [.composite outline.composite] =
      outline.earlier ++ [.composite outline.name (outline.composite.fields {})] := by
  have whole : findingsOf {} [.composite outline.composite] = outline.composite.findings {} := by
    simp [findingsOf, Declaration.findings]
  rw [whole, Composite.findings_of_visited outline.visited, supertypeNames_composite,
    choices_composite, earlier]

theorem states_iff {outline : Outline} {relation : Relation} :
    (∃ finding ∈ outline.earlier, finding.relation? = some relation) ↔ outline.States relation := by
  constructor
  · rintro ⟨finding, found, stated⟩
    simp only [earlier, List.mem_append, List.mem_map] at found
    rcases found with ⟨supertype, listed, rfl⟩ | ⟨choice, ⟨nested, listed, rfl⟩, rfl⟩
    · obtain rfl := Option.some.inj stated
      cases supertypes : outline.supertypes with
      | nil =>
        rw [supertypes] at listed
        cases listed
      | cons first later =>
        simp only [supertypes, Composite.supertypeRelations, List.mem_cons, List.mem_map] at listed
        rcases listed with rfl | ⟨name, inherited, rfl⟩
        · exact .implements supertypes
        · exact .inherits supertypes inherited
    · obtain rfl := Option.some.inj stated
      exact .encapsulates listed
  · intro states
    cases states with
    | implements supertypes =>
      exact ⟨.related _, by simp [earlier, supertypes, Composite.supertypeRelations], rfl⟩
    | inherits supertypes inherited =>
      exact ⟨.related _, by simp [earlier, supertypes, Composite.supertypeRelations, inherited], rfl⟩
    | encapsulates listed =>
      next nested =>
      refine ⟨.choice outline.name nested.choice, ?_, rfl⟩
      simp only [earlier, List.mem_append]
      exact .inr (List.mem_map_of_mem (List.mem_map_of_mem listed))

theorem states_encapsulates_iff {outline : Outline} {container : SemanticType} {member : String} :
    outline.States ⟨.encapsulates, container, .named member⟩ ↔
      container = .named outline.name ∧ member ∈ outline.enumerations.map (·.name) := by
  constructor
  · intro states
    cases states with
    | encapsulates listed => exact ⟨rfl, List.mem_map_of_mem listed⟩
  · rintro ⟨rfl, member⟩
    obtain ⟨nested, listed, rfl⟩ := List.mem_map.mp member
    exact .encapsulates listed

def entered (outline : Outline) : Catalog :=
  outline.earlier.foldl Finding.enters .empty

theorem mem_relations_entered {outline : Outline} {relation : Relation} :
    relation ∈ outline.entered.relations ↔ outline.States relation := by
  rw [entered, Finding.mem_relations_foldl, states_iff]
  simp [Catalog.empty, OrderedSet.empty, OrderedSet.mem_def]

theorem resolve_typeExpr (outline : Outline) (field : FieldOutline) :
    outline.entered.resolve field.typeExpr = some (outline.fieldType field) := by
  have resolved : outline.entered.resolveName field.type =
      some (.named (if field.type ∈ outline.enumerations.map (·.name) then
        qualifiedName outline.name field.type else field.type)) := by
    simp only [Catalog.resolveName_iff, mem_relations_entered, states_encapsulates_iff]
    split
    · next nested => exact .inside fun other => by simp [nested]
    · next apart => exact .outermost fun other => by simp [apart]
  unfold FieldOutline.typeExpr fieldType
  split <;> simp [Catalog.resolve, TypeExpr.simple, TypePath.simpleName?, Name.usable?, resolved]

theorem properties_entered (outline : Outline) :
    outline.entered.properties (outline.composite.fields {}) = outline.structureType.properties := by
  unfold Catalog.properties structureType
  rw [fields_composite, List.filterMap_map]
  simp [resolve_typeExpr]

theorem definitions_entered (outline : Outline) :
    outline.entered.definitions =
      (outline.enumerations.map (.ofChoice ·.choice)).foldl OrderedSet.insert .empty := by
  rw [entered, earlier, List.foldl_append, Finding.definitions_foldl_choice,
    Finding.definitions_foldl_related, List.map_map]
  rfl

theorem find?_entered (outline : Outline) (name : String) :
    outline.entered.find? name =
      (outline.enumerations.reverse.find? (·.name = name)).map (.ofChoice ·.choice) := by
  have unnamed : (((Composite.supertypeRelations outline.name outline.supertypes).map
      Finding.related).foldl Finding.enters .empty).find? name = none := by
    rw [Finding.find?_foldl_of_ne]
    · rfl
    · intro finding found
      obtain ⟨relation, -, rfl⟩ := List.mem_map.mp found
      simp [Finding.name?]
  rw [entered, earlier, List.foldl_append, Finding.find?_foldl_choice, unnamed, Option.or_none,
    ← List.map_reverse, List.find?_map, Option.map_map]
  rfl

theorem catalog_composite (outline : Outline) :
    (Extraction.ofDeclarations {} .empty [.composite outline.composite]).catalog =
      outline.entered.put outline.name (.ofStructure outline.structureType) := by
  have described : outline.structureType =
      ⟨outline.name, outline.entered.properties (outline.composite.fields {})⟩ := by
    rw [properties_entered]
    rfl
  rw [Extraction.catalog_ofDeclarations_free rfl, findings_composite, List.foldl_append, described]
  rfl

end Outline

def lampOutline : Outline where
  name := "Lamp"
  supertypes := ["Light", "Device"]
  members := [.field ⟨true, "mode", "Mode", true⟩, .enumeration ⟨"Mode", [⟨"off", none⟩]⟩,
    .field ⟨false, "any", "Level", false⟩,
    .enumeration ⟨"Mode", [⟨"case", none⟩, ⟨"dimmed", some ["Level", "Color"]⟩]⟩]

end SwiftLens
