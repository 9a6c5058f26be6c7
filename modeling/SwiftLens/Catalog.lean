import SwiftLens.Collection.OrderedMap
import SwiftLens.Collection.OrderedSet
import SwiftLens.Relation

namespace SwiftLens

structure Catalog where
  definitions : OrderedSet TypeDefinition
  registrations : OrderedMap String TypeDefinition
  relations : OrderedSet Relation

structure NameConflict where
  name : String
deriving DecidableEq, Repr

def NameConflict.message (conflict : NameConflict) : String :=
  s!"type name '{conflict.name}' is already registered with a different definition"

namespace Catalog

def empty : Catalog := ⟨.empty, .empty, .empty⟩

def isEmpty (catalog : Catalog) : Bool :=
  catalog.definitions.toList.isEmpty && catalog.registrations.entries.isEmpty &&
    catalog.relations.toList.isEmpty

def addDefinition (catalog : Catalog) (definition : TypeDefinition) : Catalog :=
  { catalog with definitions := catalog.definitions.insert definition }

def register (catalog : Catalog) (name : String) (definition : TypeDefinition) : Catalog :=
  { catalog with registrations := catalog.registrations.insert name definition }

def find? (catalog : Catalog) (name : String) : Option TypeDefinition :=
  catalog.registrations.find? name

def registerNew (catalog : Catalog) (name : String) (definition : TypeDefinition) :
    Except NameConflict Catalog :=
  match catalog.find? name with
  | none => .ok (catalog.register name definition)
  | some current => if current = definition then .ok catalog else .error ⟨name⟩

def relate (catalog : Catalog) (relation : Relation) : Catalog :=
  { catalog with relations := catalog.relations.insert relation }

def sources (catalog : Catalog) (kind : Relation.Kind) (right : SemanticType) :
    List SemanticType :=
  (catalog.relations.toList.filter fun relation =>
    relation.kind = kind && relation.right = right).map (·.left)

def targets (catalog : Catalog) (kind : Relation.Kind) (left : SemanticType) :
    List SemanticType :=
  (catalog.relations.toList.filter fun relation =>
    relation.kind = kind && relation.left = left).map (·.right)

def structures (catalog : Catalog) : List StructureType :=
  catalog.definitions.toList.filterMap Definition.structure?

def choices (catalog : Catalog) : List ChoiceType :=
  catalog.definitions.toList.filterMap Definition.choice?

def isSuperseded (catalog : Catalog) (definition : TypeDefinition) : Bool :=
  match definition.name?.bind catalog.find? with
  | some current => current ≠ definition
  | none => false

def currentDefinitions (catalog : Catalog) : List TypeDefinition :=
  catalog.definitions.toList.filter fun definition => !catalog.isSuperseded definition

def currentTypes (catalog : Catalog) : List SemanticType :=
  catalog.currentDefinitions.map .defined

end Catalog
end SwiftLens
