import Mathlib.Data.List.Infix
import SwiftLens.Declaration.Parser
import SwiftLens.Proofs.Tokens.Spelling

namespace SwiftLens

def Name.WellFormed : Name → Prop
  | plain text => IsName text
  | quoted text => '\x60' ∉ text.toList ∧ '\n' ∉ text.toList
  | wildcard => True

def TypeComponent.IsMetatype {τ : Type} (component : TypeComponent τ) : Prop :=
  component.name = .plain "Type" ∨ component.name = .plain "Protocol"

structure TypePath.Dotted (path : TypePath) : Prop where
  filled : path ≠ []
  names : ∀ component ∈ path, component.name.WellFormed
  later : ∀ component ∈ path.tail, ¬component.IsMetatype

inductive TypeExpr.WellFormed : TypeExpr → Prop
  | named {path : TypePath} (dotted : path.Dotted)
      (arguments : ∀ component ∈ path, ∀ argument ∈ component.arguments, WellFormed argument) :
      WellFormed (.named path)
  | optional {wrapped : TypeExpr} (wellFormed : WellFormed wrapped) : WellFormed (.optional wrapped)
  | implicitlyUnwrapped {wrapped : TypeExpr} (wellFormed : WellFormed wrapped) :
      WellFormed (.implicitlyUnwrapped wrapped)
  | array {element : TypeExpr} (wellFormed : WellFormed element) : WellFormed (.array element)
  | dictionary {key value : TypeExpr} (wellFormedKey : WellFormed key)
      (wellFormedValue : WellFormed value) : WellFormed (.dictionary key value)
  | tuple {elements : TupleType} (noParentheses : ∀ type, elements ≠ [⟨none, type⟩])
      (types : ∀ element ∈ elements, WellFormed element.type) : WellFormed (.tuple elements)
  | function {parameters : TupleType} {result : TypeExpr} {isAsync throws : Bool}
      (types : ∀ parameter ∈ parameters, WellFormed parameter.type)
      (wellFormed : WellFormed result) : WellFormed (.function parameters result isAsync throws)
  | metatype {base : TypeExpr} {kind : Metatype} (wellFormed : WellFormed base) :
      WellFormed (.metatype base kind)
  | composition {parts : List TypeExpr} (joined : 2 ≤ parts.length)
      (types : ∀ part ∈ parts, WellFormed part) : WellFormed (.composition parts)
  | someOf {constraint : TypeExpr} (wellFormed : WellFormed constraint) :
      WellFormed (.someOf constraint)
  | anyOf {constraint : TypeExpr} (wellFormed : WellFormed constraint) : WellFormed (.anyOf constraint)

def TypePath.WellFormed (path : TypePath) : Prop :=
  (TypeExpr.named path).WellFormed

def TupleType.WellFormed (elements : TupleType) : Prop :=
  ∀ element ∈ elements, element.type.WellFormed

inductive Pattern.WellFormed : Pattern → Prop
  | identifier {name : Name} {typing : Option TypeExpr} (named : name.WellFormed)
      (binds : name ≠ .wildcard) (typed : ∀ type ∈ typing, type.WellFormed) :
      WellFormed (.identifier name typing)
  | tuple {elements : List Pattern} {typing : Option TypeExpr}
      (nested : ∀ element ∈ elements, WellFormed element)
      (typed : ∀ type ∈ typing, type.WellFormed) : WellFormed (.tuple elements typing)
  | wildcard {typing : Option TypeExpr} (typed : ∀ type ∈ typing, type.WellFormed) :
      WellFormed (.wildcard typing)

def Excerpt (source text : String) : Prop :=
  text.toList <:+: source.toList

structure ExpressionText (source text : String) : Prop where
  excerpt : Excerpt source text
  tight : Tight text.toList

section Source

variable (source : String)

structure Binding.WellFormed (binding : Binding) : Prop where
  pattern : binding.pattern.WellFormed
  initializer : ∀ text ∈ binding.initializer, ExpressionText source text

inductive Storage.WellFormed : Storage → Prop
  | stored {bindings : List Binding} (filled : bindings ≠ [])
      (wellFormed : ∀ binding ∈ bindings, binding.WellFormed source) : WellFormed (.stored bindings)
  | computed {name : Name} {typing : TypeExpr} (named : name.WellFormed) (binds : name ≠ .wildcard)
      (typed : typing.WellFormed) : WellFormed (.computed name typing)
  | observed {name : Name} {typing : Option TypeExpr} {initializer : Option String}
      (named : name.WellFormed) (binds : name ≠ .wildcard)
      (typed : ∀ type ∈ typing, type.WellFormed)
      (initialized : ∀ text ∈ initializer, ExpressionText source text) :
      WellFormed (.observed name typing initializer)

structure EnumCase.WellFormed (declared : EnumCase) : Prop where
  name : declared.name.WellFormed
  payload : ∀ types ∈ declared.payload, types.WellFormed
  rawValue : ∀ text ∈ declared.rawValue, ExpressionText source text

structure CaseClause.WellFormed (clause : CaseClause) : Prop where
  filled : clause.cases ≠ []
  cases : ∀ declared ∈ clause.cases, declared.WellFormed source

def Attribute.WellFormed (written : Attribute) : Prop :=
  ∀ text ∈ written.arguments, Excerpt source text

def Specifiers.WellFormed (specifiers : Specifiers) : Prop :=
  ∀ written ∈ specifiers.attributes, written.WellFormed source

inductive Declaration.WellFormed : Declaration → Prop
  | importPath {kind : Option String} {path : List String} (filled : path ≠ []) :
      WellFormed (.importPath kind path)
  | composite {declared : Composite Declaration} (specifiers : declared.specifiers.WellFormed source)
      (name : declared.name.WellFormed)
      (inheritance : ∀ supertype ∈ declared.inheritance.getD [], supertype.WellFormed)
      (members : ∀ member ∈ declared.members, WellFormed member) : WellFormed (.composite declared)
  | enumeration {declared : Enumeration Declaration}
      (specifiers : declared.specifiers.WellFormed source) (name : declared.name.WellFormed)
      (inheritance : ∀ supertype ∈ declared.inheritance.getD [], supertype.WellFormed)
      (clauses : ∀ clause, .cases clause ∈ declared.members → clause.WellFormed source)
      (members : ∀ member, .declaration member ∈ declared.members → WellFormed member) :
      WellFormed (.enumeration declared)
  | protocol {declared : ProtocolType Declaration}
      (specifiers : declared.specifiers.WellFormed source) (name : declared.name.WellFormed)
      (inheritance : ∀ supertype ∈ declared.inheritance.getD [], supertype.WellFormed)
      (members : ∀ member ∈ declared.members, WellFormed member) : WellFormed (.protocol declared)
  | extension {declared : TypeExtension Declaration}
      (specifiers : declared.specifiers.WellFormed source) (extended : declared.extended.WellFormed)
      (inheritance : ∀ supertype ∈ declared.inheritance.getD [], supertype.WellFormed)
      (members : ∀ member ∈ declared.members, WellFormed member) : WellFormed (.extension declared)
  | letDeclaration {specifiers : Specifiers} {bindings : List Binding}
      (wellFormed : specifiers.WellFormed source) (filled : bindings ≠ [])
      (bound : ∀ binding ∈ bindings, binding.WellFormed source) :
      WellFormed (.letDeclaration specifiers bindings)
  | varDeclaration {specifiers : Specifiers} {storage : Storage}
      (wellFormed : specifiers.WellFormed source) (stored : storage.WellFormed source) :
      WellFormed (.varDeclaration specifiers storage)
  | function {specifiers : Specifiers} {name : String} {hasBody : Bool}
      (wellFormed : specifiers.WellFormed source) : WellFormed (.function specifiers name hasBody)
  | initializer {specifiers : Specifiers} {failable : Bool}
      (wellFormed : specifiers.WellFormed source) : WellFormed (.initializer specifiers failable)
  | deinitializer : WellFormed .deinitializer
  | subscript {specifiers : Specifiers} (wellFormed : specifiers.WellFormed source) :
      WellFormed (.subscript specifiers)
  | typeAlias {modifiers : List Modifier} {name : Name} {type : TypeExpr} (named : name.WellFormed)
      (wellFormed : type.WellFormed) : WellFormed (.typeAlias modifiers name type)
  | associatedType {name : Name} (named : name.WellFormed) : WellFormed (.associatedType name)
  | operator {text : String} : WellFormed (.operator text)
  | compilerControl {directive : String} {condition : Option String}
      (conditioned : ∀ text ∈ condition, text ≠ "" ∧ Excerpt source text) :
      WellFormed (.compilerControl directive condition)

def EnumMember.WellFormed : EnumMember Declaration → Prop
  | cases clause => clause.WellFormed source
  | declaration declared => declared.WellFormed source

end Source

theorem TypeExpr.wellFormed_ofElements {elements : TupleType} (types : elements.WellFormed) :
    (ofElements elements).WellFormed := by
  unfold ofElements
  split
  · next type => exact types _ List.mem_cons_self
  · next several => exact .tuple several types

end SwiftLens
