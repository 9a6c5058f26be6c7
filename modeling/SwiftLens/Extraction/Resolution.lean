import SwiftLens.Catalog
import SwiftLens.TypeExpr

namespace SwiftLens

def TypePath.simpleName? : TypePath → Option String
  | [⟨name, []⟩] => name.usable?
  | _ => none

namespace Catalog

/-- The type that a simple name refers to. One container qualifies the name, several leave it
unresolved. -/
def resolveName (catalog : Catalog) (name : String) : Option SemanticType :=
  match catalog.sources .encapsulates (.named name) with
  | [] => some (.named name)
  | [.named container] => some (.named (qualifiedName container name))
  | _ => none

def resolve (catalog : Catalog) : TypeExpr → Option SemanticType
  | .named path => (TypePath.simpleName? path).bind catalog.resolveName
  | .optional (.named path) =>
    ((TypePath.simpleName? path).bind catalog.resolveName).map SemanticType.optional
  | _ => none

end Catalog
end SwiftLens
