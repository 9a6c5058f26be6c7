import SwiftLens.Catalog

namespace SwiftLens

inductive CatalogCommand
  | addDefinition (definition : TypeDefinition)
  | register (name : String) (definition : TypeDefinition)
  | registerNew (name : String) (definition : TypeDefinition)
  | relate (relation : Relation)

inductive CatalogAnswer
  | added (isNew : Bool)
  | replaced (previous : Option TypeDefinition)
  | accepted
  | refused (conflict : NameConflict)
deriving DecidableEq

namespace Catalog

def perform (catalog : Catalog) : CatalogCommand → Catalog × CatalogAnswer
  | .addDefinition definition =>
    (catalog.addDefinition definition, .added (decide (definition ∉ catalog.definitions)))
  | .register name definition =>
    (catalog.register name definition, .replaced (catalog.find? name))
  | .registerNew name definition =>
    match catalog.registerNew name definition with
    | .ok registered => (registered, .accepted)
    | .error conflict => (catalog, .refused conflict)
  | .relate relation =>
    (catalog.relate relation, .added (decide (relation ∉ catalog.relations)))

def performAll (catalog : Catalog) (commands : List CatalogCommand) : Catalog :=
  commands.foldl (fun current command => (current.perform command).1) catalog

end Catalog
end SwiftLens
