import SwiftLens.Lens.File
import SwiftLens.Lens.Settings
import SwiftLens.SemanticType

namespace SwiftLens

inductive NameUse
  | package
  | structureName
  | propertyOf (structureName : String)
  | propertyType
deriving DecidableEq, Repr

def NameUse.text : NameUse → String
  | package => "package name"
  | structureName => "structure name"
  | propertyOf owner => "property of " ++ owner
  | propertyType => "property type"

structure UnusableName where
  name : String
  use : NameUse
deriving DecidableEq, Repr

def UnusableName.message (unusable : UnusableName) : String :=
  s!"invalid identifier '{unusable.name}' for {unusable.use.text}"

namespace SemanticType

def checkedName (name : String) : Except UnusableName String :=
  if isTypeName name then .ok name else .error ⟨name, .propertyType⟩

def render : SemanticType → Except UnusableName String
  | named name => checkedName name
  | defined (.ofStructure described) => checkedName described.name
  | defined (.ofChoice described) => checkedName described.name
  | defined (.optional wrapped) => (render wrapped).map (· ++ "?")

end SemanticType

namespace LensFile

def checkPackage (package : String) : Except UnusableName Unit :=
  if isPlainName package then .ok () else .error ⟨package, .package⟩

def checkStructureName (name : String) : Except UnusableName Unit :=
  if isTypeName name && !name.toList.contains '.' then .ok () else .error ⟨name, .structureName⟩

/-- The arguments of the setter for `focus`: the new value for every property of that name, the
existing value for the others. -/
def setterArguments (properties : List (Property SemanticType)) (focus : String) :
    List LensArgument :=
  properties.map fun property =>
    ⟨property.name, if property.name = focus then .newValue else .existing⟩

def lensOf (settings : LensSettings) (described : StructureType)
    (property : Property SemanticType) : Except UnusableName PropertyLens :=
  if isIdentifier property.name then
    property.type.render.map fun fieldType =>
      ⟨settings.lensType, described.name, property.name, fieldType,
        setterArguments described.properties property.name⟩
  else .error ⟨property.name, .propertyOf described.name⟩

/-- The lens file of a structure. The first name that cannot be written is reported: the package,
then the structure, then each property before its type. -/
def build (settings : LensSettings) (package : String) (described : StructureType) :
    Except UnusableName LensFile := do
  checkPackage package
  checkStructureName described.name
  let lenses ← described.properties.mapM (lensOf settings described)
  return {
    imports := settings.imports ++ [settings.supportModule, package]
    accessLevel := settings.accessLevel
    className := settings.className described.name
    lenses }

def generate (settings : LensSettings) (package : String) (described : StructureType) :
    Except UnusableName String :=
  (build settings package described).map text

end LensFile
end SwiftLens
