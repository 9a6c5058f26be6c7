namespace SwiftLens

structure Record (α : Type) where
  typeName : String
  fields : List (String × α)
deriving DecidableEq, Repr

namespace Record

variable {α : Type}

def field? (record : Record α) (name : String) : Option α :=
  (record.fields.find? (·.1 == name)).map (·.2)

end Record

inductive ArgumentOrigin
  | newValue
  | existing
deriving DecidableEq, Repr

structure LensArgument where
  label : String
  origin : ArgumentOrigin
deriving DecidableEq, Repr

structure PropertyLens where
  lensType : String
  structureName : String
  property : String
  fieldType : String
  arguments : List LensArgument
deriving DecidableEq, Repr

def LensArgument.fieldFrom {α : Type} (record : Record α) (value : α) (argument : LensArgument) :
    Option (String × α) :=
  match argument.origin with
  | .newValue => some (argument.label, value)
  | .existing => (record.field? argument.label).map fun existing => (argument.label, existing)

namespace PropertyLens

variable {α : Type}

def get (lens : PropertyLens) (record : Record α) : Option α :=
  if record.typeName = lens.structureName then record.field? lens.property else none

/-- The record with another value in focus; a record of another type, or one that lacks a field
that is passed on, gives none. -/
def set (lens : PropertyLens) (record : Record α) (value : α) : Option (Record α) :=
  if record.typeName = lens.structureName then
    (lens.arguments.mapM (LensArgument.fieldFrom record value)).map fun fields =>
      ⟨lens.structureName, fields⟩
  else none

end PropertyLens
end SwiftLens
