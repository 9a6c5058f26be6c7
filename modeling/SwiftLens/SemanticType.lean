namespace SwiftLens

structure Property (τ : Type) where
  name : String
  type : τ
deriving DecidableEq, Repr

structure Structure (τ : Type) where
  name : String
  properties : List (Property τ)
deriving DecidableEq, Repr

structure ChoiceCase (τ : Type) where
  name : String
  payload : List τ
deriving DecidableEq, Repr

structure Choice (τ : Type) where
  name : String
  cases : List (ChoiceCase τ)
deriving DecidableEq, Repr

inductive Definition (τ : Type)
  | ofStructure (described : Structure τ)
  | ofChoice (described : Choice τ)
  | optional (wrapped : τ)
deriving DecidableEq, Repr

inductive SemanticType
  | named (name : String)
  | defined (definition : Definition SemanticType)
deriving Repr

abbrev TypeDefinition : Type := Definition SemanticType

abbrev StructureType : Type := Structure SemanticType

abbrev ChoiceType : Type := Choice SemanticType

def qualifiedName (container member : String) : String :=
  container ++ "." ++ member

namespace Structure

variable {τ : Type}

def property? (described : Structure τ) (name : String) : Option (Property τ) :=
  described.properties.find? (·.name == name)

end Structure

namespace Choice

variable {τ : Type}

def unitCases (described : Choice τ) : List String :=
  (described.cases.filter (·.payload.isEmpty)).map (·.name)

end Choice

namespace Definition

variable {τ : Type}

def name? : Definition τ → Option String
  | ofStructure described => some described.name
  | ofChoice described => some described.name
  | optional _ => none

def structure? : Definition τ → Option (Structure τ)
  | ofStructure described => some described
  | _ => none

def choice? : Definition τ → Option (Choice τ)
  | ofChoice described => some described
  | _ => none

end Definition

namespace SemanticType

mutual

protected def decEq : (left right : SemanticType) → Decidable (left = right)
  | named name, named other => decidable_of_iff (name = other) (by simp)
  | defined definition, defined other =>
    match decEqDefinition definition other with
    | isTrue same => isTrue (by rw [same])
    | isFalse differs => isFalse (by simpa using differs)
  | named _, defined _ => isFalse (by simp)
  | defined _, named _ => isFalse (by simp)
termination_by structural left => left

def decEqDefinition : (left right : Definition SemanticType) → Decidable (left = right)
  | .ofStructure ⟨name, properties⟩, .ofStructure ⟨other, others⟩ =>
    match decEqProperties properties others with
    | isTrue same => decidable_of_iff (name = other) (by simp [same])
    | isFalse differs => isFalse (by simp [differs])
  | .ofChoice ⟨name, cases⟩, .ofChoice ⟨other, others⟩ =>
    match decEqCases cases others with
    | isTrue same => decidable_of_iff (name = other) (by simp [same])
    | isFalse differs => isFalse (by simp [differs])
  | .optional wrapped, .optional other =>
    match SemanticType.decEq wrapped other with
    | isTrue same => isTrue (by rw [same])
    | isFalse differs => isFalse (by simpa using differs)
  | .ofStructure _, .ofChoice _ => isFalse (by simp)
  | .ofStructure _, .optional _ => isFalse (by simp)
  | .ofChoice _, .ofStructure _ => isFalse (by simp)
  | .ofChoice _, .optional _ => isFalse (by simp)
  | .optional _, .ofStructure _ => isFalse (by simp)
  | .optional _, .ofChoice _ => isFalse (by simp)
termination_by structural left => left

def decEqProperties :
    (left right : List (Property SemanticType)) → Decidable (left = right)
  | [], [] => isTrue rfl
  | ⟨name, type⟩ :: rest, ⟨other, otherType⟩ :: others =>
    match SemanticType.decEq type otherType, decEqProperties rest others with
    | isTrue same, isTrue sameRest => decidable_of_iff (name = other) (by simp [same, sameRest])
    | isFalse differs, _ => isFalse (by simp [differs])
    | _, isFalse differs => isFalse (by simp [differs])
  | [], _ :: _ => isFalse (by simp)
  | _ :: _, [] => isFalse (by simp)
termination_by structural left => left

def decEqCases :
    (left right : List (ChoiceCase SemanticType)) → Decidable (left = right)
  | [], [] => isTrue rfl
  | ⟨name, payload⟩ :: rest, ⟨other, otherPayload⟩ :: others =>
    match decEqTypes payload otherPayload, decEqCases rest others with
    | isTrue same, isTrue sameRest => decidable_of_iff (name = other) (by simp [same, sameRest])
    | isFalse differs, _ => isFalse (by simp [differs])
    | _, isFalse differs => isFalse (by simp [differs])
  | [], _ :: _ => isFalse (by simp)
  | _ :: _, [] => isFalse (by simp)
termination_by structural left => left

def decEqTypes : (left right : List SemanticType) → Decidable (left = right)
  | [], [] => isTrue rfl
  | type :: rest, other :: others =>
    match SemanticType.decEq type other, decEqTypes rest others with
    | isTrue same, isTrue sameRest => isTrue (by rw [same, sameRest])
    | isFalse differs, _ => isFalse (by simp [differs])
    | _, isFalse differs => isFalse (by simp [differs])
  | [], _ :: _ => isFalse (by simp)
  | _ :: _, [] => isFalse (by simp)
termination_by structural left => left

end

instance : DecidableEq SemanticType := SemanticType.decEq

def optional (wrapped : SemanticType) : SemanticType :=
  defined (.optional wrapped)

def reference? : SemanticType → Option String
  | named name => some name
  | defined _ => none

def definition? : SemanticType → Option TypeDefinition
  | named _ => none
  | defined definition => some definition

def structure? (type : SemanticType) : Option StructureType :=
  type.definition?.bind Definition.structure?

def text : SemanticType → String
  | named name => name
  | defined (.ofStructure described) => described.name
  | defined (.ofChoice described) => described.name
  | defined (.optional wrapped) => text wrapped ++ "?"

def baseName : SemanticType → String
  | named name => name
  | defined (.ofStructure described) => described.name
  | defined (.ofChoice described) => described.name
  | defined (.optional wrapped) => baseName wrapped

end SemanticType
end SwiftLens
