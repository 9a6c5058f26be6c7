import SwiftLens.Catalog

namespace SwiftLens

namespace SemanticType

mutual

def key : SemanticType → String
  | named name => "N:" ++ name
  | defined (.ofStructure ⟨name, properties⟩) =>
    "S:" ++ name ++ "(" ++ ",".intercalate (propertyKeys properties) ++ ")"
  | defined (.ofChoice ⟨name, cases⟩) =>
    "C:" ++ name ++ "(" ++ ",".intercalate (caseKeys cases) ++ ")"
  | defined (.optional wrapped) => "O:" ++ key wrapped

def propertyKeys : List (Property SemanticType) → List String
  | [] => []
  | ⟨name, type⟩ :: rest => (name ++ "=" ++ key type) :: propertyKeys rest

def caseKeys : List (ChoiceCase SemanticType) → List String
  | [] => []
  | ⟨name, payload⟩ :: rest =>
    (name ++ "(" ++ ",".intercalate (keys payload) ++ ")") :: caseKeys rest

def keys : List SemanticType → List String
  | [] => []
  | type :: rest => key type :: keys rest

end

end SemanticType

def Relation.key (relation : Relation) : String :=
  s!"{relation.kind.word} {relation.left.key} {relation.right.key}"

def sortByText {α : Type} (text : α → String) (items : List α) : List α :=
  items.mergeSort fun left right => !decide (text right < text left)

theorem sortByText_perm {α : Type} (text : α → String) (items : List α) :
    (sortByText text items).Perm items :=
  List.mergeSort_perm items _

namespace Catalog

def listedRelations (catalog : Catalog) : List Relation :=
  sortByText Relation.key catalog.relations.toList

def listedSources (catalog : Catalog) (kind : Relation.Kind) (right : SemanticType) :
    List SemanticType :=
  sortByText SemanticType.key (catalog.sources kind right)

def listedTargets (catalog : Catalog) (kind : Relation.Kind) (left : SemanticType) :
    List SemanticType :=
  sortByText SemanticType.key (catalog.targets kind left)

end Catalog
end SwiftLens
