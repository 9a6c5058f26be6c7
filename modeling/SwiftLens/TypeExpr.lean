import SwiftLens.Name

namespace SwiftLens

structure TypeComponent (τ : Type) where
  name : Name
  arguments : List τ

structure TupleElement (τ : Type) where
  label : Option String
  type : τ

inductive Metatype
  | type
  | protocol
deriving DecidableEq, Repr

inductive TypeExpr
  | named (path : List (TypeComponent TypeExpr))
  | optional (wrapped : TypeExpr)
  | implicitlyUnwrapped (wrapped : TypeExpr)
  | array (element : TypeExpr)
  | dictionary (key value : TypeExpr)
  | tuple (elements : List (TupleElement TypeExpr))
  | function (parameters : List (TupleElement TypeExpr)) (result : TypeExpr)
      (isAsync throws : Bool)
  | metatype (base : TypeExpr) (kind : Metatype)
  | composition (parts : List TypeExpr)
  | someOf (constraint : TypeExpr)
  | anyOf (constraint : TypeExpr)

abbrev TypePath : Type := List (TypeComponent TypeExpr)

abbrev TupleType : Type := List (TupleElement TypeExpr)

def Metatype.keyword : Metatype → String
  | type => "Type"
  | protocol => "Protocol"

def Metatype.ofKeyword? (word : String) : Option Metatype :=
  match word with
  | "Type" => some type
  | "Protocol" => some protocol
  | _ => none

namespace TypeExpr

def simple (name : String) : TypeExpr :=
  named [⟨.plain name, []⟩]

mutual

def text : TypeExpr → String
  | named path => ".".intercalate (componentTexts path)
  | optional wrapped => text wrapped ++ "?"
  | implicitlyUnwrapped wrapped => text wrapped ++ "!"
  | array element => "[" ++ text element ++ "]"
  | dictionary key value => "[" ++ text key ++ ": " ++ text value ++ "]"
  | tuple elements => "(" ++ ", ".intercalate (elementTexts elements) ++ ")"
  | function parameters result isAsync throws =>
    "(" ++ ", ".intercalate (elementTexts parameters) ++ ")" ++ (if isAsync then " async" else "") ++
      (if throws then " throws" else "") ++ " -> " ++ text result
  | metatype base kind => text base ++ "." ++ kind.keyword
  | composition parts => " & ".intercalate (texts parts)
  | someOf constraint => "some " ++ text constraint
  | anyOf constraint => "any " ++ text constraint

def texts : List TypeExpr → List String
  | [] => []
  | type :: rest => text type :: texts rest

def componentText : TypeComponent TypeExpr → String
  | ⟨name, []⟩ => name.spelling
  | ⟨name, argument :: others⟩ =>
    name.spelling ++ "<" ++ ", ".intercalate (text argument :: texts others) ++ ">"

def componentTexts : List (TypeComponent TypeExpr) → List String
  | [] => []
  | component :: rest => componentText component :: componentTexts rest

def elementText : TupleElement TypeExpr → String
  | ⟨some label, type⟩ => label ++ ": " ++ text type
  | ⟨none, type⟩ => text type

def elementTexts : List (TupleElement TypeExpr) → List String
  | [] => []
  | element :: rest => elementText element :: elementTexts rest

end

theorem texts_eq_map (types : List TypeExpr) : texts types = types.map text := by
  induction types with
  | nil => rfl
  | cons type rest ih => simp [texts, ih]

theorem componentTexts_eq_map (path : TypePath) : componentTexts path = path.map componentText := by
  induction path with
  | nil => rfl
  | cons component rest ih => simp [componentTexts, ih]

theorem elementTexts_eq_map (elements : TupleType) :
    elementTexts elements = elements.map elementText := by
  induction elements with
  | nil => rfl
  | cons element rest ih => simp [elementTexts, ih]

end TypeExpr

namespace TypePath

def text (path : TypePath) : String :=
  (TypeExpr.named path).text

def single? : TypePath → Option (TypeComponent TypeExpr)
  | [component] => some component
  | _ => none

end TypePath

def TupleType.text (elements : TupleType) : String :=
  (TypeExpr.tuple elements).text

end SwiftLens
