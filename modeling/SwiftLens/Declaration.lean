import SwiftLens.Modifier
import SwiftLens.TypeExpr

namespace SwiftLens

structure Specifiers where
  attributes : List Attribute
  modifiers : List Modifier
deriving DecidableEq, Repr

namespace Specifiers

def none : Specifiers := ⟨[], []⟩

def access? (specifiers : Specifiers) : Option AccessLevel :=
  Modifier.declaredAccess specifiers.modifiers

def isPublic (specifiers : Specifiers) : Bool :=
  specifiers.access?.any AccessLevel.isPublic

end Specifiers

inductive Pattern
  | identifier (name : Name) (typing : Option TypeExpr)
  | tuple (elements : List Pattern) (typing : Option TypeExpr)
  | wildcard (typing : Option TypeExpr)

structure Binding where
  pattern : Pattern
  initializer : Option String

inductive Storage
  | stored (bindings : List Binding)
  | computed (name : Name) (typing : TypeExpr)
  | observed (name : Name) (typing : Option TypeExpr) (initializer : Option String)

structure EnumCase where
  name : Name
  payload : Option TupleType
  rawValue : Option String

structure CaseClause where
  indirect : Bool
  cases : List EnumCase

inductive EnumMember (δ : Type)
  | cases (clause : CaseClause)
  | declaration (declaration : δ)

inductive Composite.Kind
  | classType
  | structType
  | actorType
deriving DecidableEq, Repr

namespace Composite.Kind

def keyword : Composite.Kind → String
  | classType => "class"
  | structType => "struct"
  | actorType => "actor"

def ofKeyword? (word : String) : Option Composite.Kind :=
  match word with
  | "class" => some classType
  | "struct" => some structType
  | "actor" => some actorType
  | _ => none

theorem ofKeyword?_keyword (kind : Composite.Kind) : ofKeyword? kind.keyword = some kind := by
  cases kind <;> rfl

end Composite.Kind

structure Composite (δ : Type) where
  kind : Composite.Kind
  specifiers : Specifiers
  name : Name
  genericParameters : List String
  inheritance : Option (List TypePath)
  members : List δ

structure Enumeration (δ : Type) where
  specifiers : Specifiers
  name : Name
  genericParameters : List String
  inheritance : Option (List TypePath)
  members : List (EnumMember δ)

structure ProtocolType (δ : Type) where
  specifiers : Specifiers
  name : Name
  inheritance : Option (List TypePath)
  members : List δ

structure TypeExtension (δ : Type) where
  specifiers : Specifiers
  extended : TypePath
  inheritance : Option (List TypePath)
  members : List δ

inductive Declaration
  | importPath (kind : Option String) (path : List String)
  | composite (composite : Composite Declaration)
  | enumeration (enumeration : Enumeration Declaration)
  | protocol (protocol : ProtocolType Declaration)
  | extension (extension : TypeExtension Declaration)
  | letDeclaration (specifiers : Specifiers) (bindings : List Binding)
  | varDeclaration (specifiers : Specifiers) (storage : Storage)
  | function (specifiers : Specifiers) (name : String) (hasBody : Bool)
  | initializer (specifiers : Specifiers) (failable : Bool)
  | deinitializer
  | subscript (specifiers : Specifiers)
  | typeAlias (modifiers : List Modifier) (name : Name) (type : TypeExpr)
  | associatedType (name : Name)
  | operator (text : String)
  | compilerControl (directive : String) (condition : Option String)

namespace Declaration

def withSpecifiers (specifiers : Specifiers) : Declaration → Declaration
  | composite declared => composite { declared with specifiers }
  | enumeration declared => enumeration { declared with specifiers }
  | protocol declared => protocol { declared with specifiers }
  | extension declared => extension { declared with specifiers }
  | letDeclaration _ bindings => letDeclaration specifiers bindings
  | varDeclaration _ storage => varDeclaration specifiers storage
  | function _ name hasBody => function specifiers name hasBody
  | initializer _ failable => initializer specifiers failable
  | subscript _ => subscript specifiers
  | typeAlias _ name type => typeAlias specifiers.modifiers name type
  | importPath kind path => importPath kind path
  | deinitializer => deinitializer
  | associatedType name => associatedType name
  | operator text => operator text
  | compilerControl directive condition => compilerControl directive condition

def composite? : Declaration → Option (Composite Declaration)
  | composite declared => some declared
  | _ => none

def enumeration? : Declaration → Option (Enumeration Declaration)
  | enumeration declared => some declared
  | _ => none

end Declaration

def Composite.supertypes {δ : Type} (declared : Composite δ) : List TypePath :=
  declared.inheritance.getD []

def Composite.enumerations (declared : Composite Declaration) : List (Enumeration Declaration) :=
  declared.members.filterMap Declaration.enumeration?

end SwiftLens
