import SwiftLens.Extraction.Options
import SwiftLens.Extraction.Resolution

namespace SwiftLens

inductive SkipReason
  | kindNotSelected (kind : Composite.Kind) (name : Name)
  | unnamed (kind : Composite.Kind)
  | notPublic (kind : Composite.Kind) (name : String)
deriving DecidableEq, Repr

structure Field where
  name : String
  type : TypeExpr

inductive Finding
  | skipped (reason : SkipReason)
  | related (relation : Relation)
  | choice (container : String) (choice : ChoiceType)
  | composite (name : String) (fields : List Field)

def CaseClause.case? (clause : CaseClause) : Option (ChoiceCase SemanticType) :=
  match clause.cases with
  | [declared] => declared.name.usable?.map fun name =>
      ⟨name, (declared.payload.getD []).filterMap fun element =>
        match element.type with
        | .named path => (TypePath.simpleName? path).map .named
        | _ => none⟩
  | _ => none

def EnumMember.case? : EnumMember Declaration → Option (ChoiceCase SemanticType)
  | .cases clause => clause.case?
  | .declaration _ => none

def Enumeration.choice? (declared : Enumeration Declaration) : Option ChoiceType :=
  declared.name.usable?.map fun name => ⟨name, declared.members.filterMap EnumMember.case?⟩

def Binding.field? : List Binding → Option Field
  | [⟨.identifier name (some type), _⟩] => name.usable?.map fun usable => ⟨usable, type⟩
  | _ => none

def Declaration.field? (options : ExtractionOptions) : Declaration → Option Field
  | .letDeclaration specifiers bindings =>
    if options.admitsField specifiers.modifiers then Binding.field? bindings else none
  | .varDeclaration specifiers (.stored bindings) =>
    if options.admitsField specifiers.modifiers then Binding.field? bindings else none
  | _ => none

namespace Composite

def supertypeNames (declared : Composite Declaration) : List String :=
  declared.supertypes.filterMap fun path => (TypePath.single? path).bind (·.name.usable?)

def supertypeRelations (name : String) : List String → List Relation
  | [] => []
  | first :: later =>
    ⟨.implements, .named name, .named first⟩ ::
      later.map fun supertype => ⟨.inherits, .named name, .named supertype⟩

def choices (options : ExtractionOptions) (declared : Composite Declaration) : List ChoiceType :=
  (declared.enumerations.filter fun nested => options.admits nested.specifiers).filterMap
    Enumeration.choice?

def fields (options : ExtractionOptions) (declared : Composite Declaration) : List Field :=
  declared.members.filterMap (Declaration.field? options)

/-- The nested choices come before the composite, so that its fields can refer to them. -/
def findings (options : ExtractionOptions) (declared : Composite Declaration) : List Finding :=
  if options.visits declared.kind then
    match declared.name.usable? with
    | none => [.skipped (.unnamed declared.kind)]
    | some name =>
      if options.admits declared.specifiers then
        (supertypeRelations name declared.supertypeNames).map .related ++
          (declared.choices options).map (.choice name) ++
            [.composite name (declared.fields options)]
      else [.skipped (.notPublic declared.kind name)]
  else [.skipped (.kindNotSelected declared.kind declared.name)]

end Composite

def Declaration.findings (options : ExtractionOptions) : Declaration → List Finding
  | .composite declared => declared.findings options
  | _ => []

def findingsOf (options : ExtractionOptions) (declarations : List Declaration) : List Finding :=
  declarations.flatMap (Declaration.findings options)

end SwiftLens
