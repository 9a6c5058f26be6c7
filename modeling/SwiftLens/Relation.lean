import SwiftLens.SemanticType

namespace SwiftLens

inductive Relation.Kind
  /-- The first type that a declaration lists after its colon. -/
  | implements
  /-- A later type of that list. -/
  | inherits
  | encapsulates
deriving DecidableEq, Repr

def Relation.Kind.word : Relation.Kind → String
  | implements => "implements"
  | inherits => "inherits"
  | encapsulates => "encapsulates"

structure Relation where
  kind : Relation.Kind
  left : SemanticType
  right : SemanticType
deriving DecidableEq, Repr

def Relation.text (relation : Relation) : String :=
  s!"{relation.left.text} {relation.kind.word} {relation.right.text}"

end SwiftLens
