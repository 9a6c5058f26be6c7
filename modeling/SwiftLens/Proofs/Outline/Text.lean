import SwiftLens.Token.Lexer

namespace SwiftLens

def Lexeme.isWord (text : String) : Bool :=
  match text.toList with
  | [] => false
  | first :: rest => startsIdentifier first && rest.all continuesIdentifier

structure FieldOutline where
  isVariable : Bool
  name : String
  type : String
  isOptional : Bool
deriving DecidableEq, Repr

structure CaseOutline where
  name : String
  payload : Option (List String)
deriving DecidableEq, Repr

structure EnumOutline where
  name : String
  cases : List CaseOutline
deriving DecidableEq, Repr

inductive MemberOutline
  | field (field : FieldOutline)
  | enumeration (enumeration : EnumOutline)
deriving DecidableEq, Repr

structure Outline where
  name : String
  supertypes : List String
  members : List MemberOutline
deriving DecidableEq, Repr

def FieldOutline.keyword (field : FieldOutline) : String :=
  if field.isVariable then "var" else "let"

def FieldOutline.line (field : FieldOutline) : String :=
  field.keyword ++ " " ++ field.name ++ ": " ++ field.type ++ if field.isOptional then "?" else ""

def CaseOutline.line (declared : CaseOutline) : String :=
  "case " ++ declared.name ++
    match declared.payload with
    | none => ""
    | some types => "(" ++ ", ".intercalate types ++ ")"

def EnumOutline.lines (declared : EnumOutline) : List String :=
  ("enum " ++ declared.name ++ " \x7b") :: declared.cases.map CaseOutline.line ++ ["\x7d"]

def MemberOutline.lines : MemberOutline → List String
  | field declared => [declared.line]
  | enumeration declared => declared.lines

namespace Outline

def header (outline : Outline) : String :=
  "struct " ++ outline.name ++
    (match outline.supertypes with
      | [] => ""
      | supertypes => ": " ++ ", ".intercalate supertypes) ++ " \x7b"

def text (outline : Outline) : String :=
  "\n".intercalate (outline.header :: outline.members.flatMap MemberOutline.lines ++ ["\x7d"])

end Outline

example :
    (Outline.mk "Lamp" ["Light", "Device"]
      [.field ⟨true, "mode", "Mode", true⟩,
        .enumeration ⟨"Mode", [⟨"off", none⟩, ⟨"on", some ["Level", "Color"]⟩]⟩]).text =
      "struct Lamp: Light, Device \x7b\nvar mode: Mode?\nenum Mode \x7b\ncase off\n" ++
        "case on(Level, Color)\n\x7d\n\x7d" := by
  decide

structure IsName (text : String) : Prop where
  isWord : Lexeme.isWord text = true
  noWildcard : text ≠ "_"

structure IsTypeName (text : String) : Prop extends IsName text where
  noConstraint : text ≠ "some" ∧ text ≠ "any"

structure FieldOutline.Lexable (field : FieldOutline) : Prop where
  name : IsName field.name
  type : IsTypeName field.type

structure CaseOutline.Lexable (declared : CaseOutline) : Prop where
  name : IsName declared.name
  payload : ∀ type ∈ declared.payload.getD [], IsTypeName type

structure EnumOutline.Lexable (declared : EnumOutline) : Prop where
  name : IsName declared.name
  cases : ∀ listed ∈ declared.cases, listed.Lexable

def MemberOutline.Lexable : MemberOutline → Prop
  | field declared => declared.Lexable
  | enumeration declared => declared.Lexable

/-- All names of the outline are identifiers. -/
structure Outline.Lexable (outline : Outline) : Prop where
  name : IsName outline.name
  supertypes : ∀ supertype ∈ outline.supertypes, IsTypeName supertype
  members : ∀ member ∈ outline.members, member.Lexable

instance (text : String) : Decidable (IsName text) :=
  decidable_of_iff (Lexeme.isWord text = true ∧ text ≠ "_")
    ⟨fun ⟨isWord, noWildcard⟩ => ⟨isWord, noWildcard⟩, fun name => ⟨name.isWord, name.noWildcard⟩⟩

instance (text : String) : Decidable (IsTypeName text) :=
  decidable_of_iff (IsName text ∧ text ≠ "some" ∧ text ≠ "any")
    ⟨fun ⟨name, noConstraint⟩ => ⟨name, noConstraint⟩, fun type => ⟨type.toIsName, type.noConstraint⟩⟩

instance (field : FieldOutline) : Decidable field.Lexable :=
  decidable_of_iff (IsName field.name ∧ IsTypeName field.type)
    ⟨fun ⟨name, type⟩ => ⟨name, type⟩, fun lexable => ⟨lexable.name, lexable.type⟩⟩

instance (declared : CaseOutline) : Decidable declared.Lexable :=
  decidable_of_iff (IsName declared.name ∧ ∀ type ∈ declared.payload.getD [], IsTypeName type)
    ⟨fun ⟨name, payload⟩ => ⟨name, payload⟩, fun lexable => ⟨lexable.name, lexable.payload⟩⟩

instance (declared : EnumOutline) : Decidable declared.Lexable :=
  decidable_of_iff (IsName declared.name ∧ ∀ listed ∈ declared.cases, listed.Lexable)
    ⟨fun ⟨name, cases⟩ => ⟨name, cases⟩, fun lexable => ⟨lexable.name, lexable.cases⟩⟩

instance : (member : MemberOutline) → Decidable member.Lexable
  | .field declared => inferInstanceAs (Decidable declared.Lexable)
  | .enumeration declared => inferInstanceAs (Decidable declared.Lexable)

instance (outline : Outline) : Decidable outline.Lexable :=
  decidable_of_iff (IsName outline.name ∧ (∀ supertype ∈ outline.supertypes, IsTypeName supertype) ∧
      ∀ member ∈ outline.members, member.Lexable)
    ⟨fun ⟨name, supertypes, members⟩ => ⟨name, supertypes, members⟩,
      fun lexable => ⟨lexable.name, lexable.supertypes, lexable.members⟩⟩

end SwiftLens
