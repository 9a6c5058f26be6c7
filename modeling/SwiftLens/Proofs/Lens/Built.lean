import SwiftLens.Lens.Build

namespace SwiftLens

theorem bind_ok_iff {ε α β : Type} {first : Except ε α} {next : α → Except ε β} {result : β} :
    first >>= next = .ok result ↔ ∃ value, first = .ok value ∧ next value = .ok result := by
  cases first with
  | error failure => simp [bind, Except.bind]
  | ok value => simp [bind, Except.bind]

namespace SemanticType

/-- A type is written as it reads if the name under its optionals can be written. -/
theorem render_eq (type : SemanticType) :
    type.render =
      if isTypeName type.baseName then .ok type.text
      else .error ⟨type.baseName, .propertyType⟩ := by
  fun_induction render type with
  | case1 name => rfl
  | case2 described => rfl
  | case3 described => rfl
  | case4 wrapped ih =>
    rw [ih, baseName, text]
    split <;> rfl

end SemanticType

structure Property.Writable (property : Property SemanticType) : Prop where
  name : isIdentifier property.name = true
  type : isTypeName property.type.baseName = true

structure Structure.Writable (described : StructureType) : Prop where
  name : isTypeName described.name = true
  undotted : '.' ∉ described.name.toList
  properties : ∀ property ∈ described.properties, property.Writable

namespace LensFile

variable {settings : LensSettings} {package : String} {described : StructureType}

def lensFor (settings : LensSettings) (described : StructureType)
    (property : Property SemanticType) : PropertyLens where
  lensType := settings.lensType
  structureName := described.name
  property := property.name
  fieldType := property.type.text
  arguments := setterArguments described.properties property.name

def fileFor (settings : LensSettings) (package : String) (described : StructureType) :
    LensFile where
  imports := settings.imports ++ [settings.supportModule, package]
  accessLevel := settings.accessLevel
  className := settings.className described.name
  lenses := described.properties.map (lensFor settings described)

theorem lensOf_ok_iff {property : Property SemanticType} {lens : PropertyLens} :
    lensOf settings described property = .ok lens ↔
      property.Writable ∧ lensFor settings described property = lens := by
  unfold lensOf
  rw [SemanticType.render_eq]
  by_cases name : isIdentifier property.name = true
  · by_cases type : isTypeName property.type.baseName = true
    · have writable : property.Writable := ⟨name, type⟩
      simp [name, type, writable, Except.map, lensFor]
    · have unwritable : ¬ property.Writable := fun writable => type writable.type
      simp [name, type, unwritable, Except.map]
  · have unwritable : ¬ property.Writable := fun writable => name writable.name
    simp [name, unwritable]

theorem mapM_lensOf_ok_iff {properties : List (Property SemanticType)}
    {lenses : List PropertyLens} :
    properties.mapM (lensOf settings described) = .ok lenses ↔
      (∀ property ∈ properties, property.Writable) ∧
        properties.map (lensFor settings described) = lenses := by
  induction properties generalizing lenses with
  | nil => simp [pure, Except.pure]
  | cons property rest ih =>
    rw [List.mapM_cons, List.forall_mem_cons, List.map_cons]
    simp only [bind_ok_iff, lensOf_ok_iff, ih, pure, Except.pure, Except.ok.injEq]
    constructor
    · rintro ⟨lens, ⟨writable, rfl⟩, others, ⟨writables, rfl⟩, rfl⟩
      exact ⟨⟨writable, writables⟩, rfl⟩
    · rintro ⟨⟨writable, writables⟩, rfl⟩
      exact ⟨_, ⟨writable, rfl⟩, _, ⟨writables, rfl⟩, rfl⟩

theorem checkPackage_ok_iff {checked : Unit} :
    checkPackage package = .ok checked ↔ isPlainName package = true := by
  unfold checkPackage
  split <;> simp_all

theorem checkStructureName_ok_iff {name : String} {checked : Unit} :
    checkStructureName name = .ok checked ↔ isTypeName name = true ∧ '.' ∉ name.toList := by
  unfold checkStructureName
  split <;> simp_all

/-- A structure has a lens file exactly if the package and all its names can be written. -/
theorem build_ok_iff {file : LensFile} :
    build settings package described = .ok file ↔
      isPlainName package = true ∧ described.Writable ∧
        fileFor settings package described = file := by
  unfold build
  simp only [bind_ok_iff, checkPackage_ok_iff, checkStructureName_ok_iff, mapM_lensOf_ok_iff, pure,
    Except.pure, Except.ok.injEq]
  constructor
  · rintro ⟨_, plain, _, ⟨name, undotted⟩, lenses, ⟨properties, rfl⟩, rfl⟩
    exact ⟨plain, ⟨name, undotted, properties⟩, rfl⟩
  · rintro ⟨plain, ⟨name, undotted, properties⟩, rfl⟩
    exact ⟨(), plain, (), ⟨name, undotted⟩, _, ⟨properties, rfl⟩, rfl⟩

theorem generate_ok_iff {text : String} :
    generate settings package described = .ok text ↔
      ∃ file, build settings package described = .ok file ∧ file.text = text := by
  unfold generate
  cases built : build settings package described with
  | error unusable => simp [Except.map]
  | ok file => simp [Except.map]

end LensFile
end SwiftLens
