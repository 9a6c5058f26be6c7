import SwiftLens.Extraction
import SwiftLens.SourceFile

namespace SwiftLens

def erased (text : Option String) : Option String :=
  text.map fun _ => ""

def namedByWord (name : String) : Bool :=
  name.toList.head?.any fun c => Lexeme.startsIdentifier c || c == '\x60'

def nameSkeleton (name : String) : String :=
  if namedByWord name then name else ""

def Attribute.skeleton (declared : Attribute) : Attribute :=
  { declared with arguments := erased declared.arguments }

def Specifiers.skeleton (specifiers : Specifiers) : Specifiers :=
  { specifiers with attributes := specifiers.attributes.map Attribute.skeleton }

def Binding.skeleton (binding : Binding) : Binding :=
  { binding with initializer := erased binding.initializer }

def Storage.skeleton : Storage → Storage
  | stored bindings => stored (bindings.map Binding.skeleton)
  | computed name typing => computed name typing
  | observed name typing initializer => observed name typing (erased initializer)

def EnumCase.skeleton (declared : EnumCase) : EnumCase :=
  { declared with rawValue := erased declared.rawValue }

def CaseClause.skeleton (clause : CaseClause) : CaseClause :=
  { clause with cases := clause.cases.map EnumCase.skeleton }

namespace Declaration

mutual

/-- The declaration without initializers, raw values, arguments of attributes, conditions, and the
texts of operators. -/
def skeleton : Declaration → Declaration
  | importPath kind path => importPath kind path
  | composite ⟨kind, specifiers, name, genericParameters, inheritance, members⟩ =>
    composite ⟨kind, specifiers.skeleton, name, genericParameters, inheritance, skeletons members⟩
  | enumeration ⟨specifiers, name, genericParameters, inheritance, members⟩ =>
    enumeration
      ⟨specifiers.skeleton, name, genericParameters, inheritance, memberSkeletons members⟩
  | protocol ⟨specifiers, name, inheritance, members⟩ =>
    protocol ⟨specifiers.skeleton, name, inheritance, skeletons members⟩
  | extension ⟨specifiers, extended, inheritance, members⟩ =>
    extension ⟨specifiers.skeleton, extended, inheritance, skeletons members⟩
  | letDeclaration specifiers bindings =>
    letDeclaration specifiers.skeleton (bindings.map Binding.skeleton)
  | varDeclaration specifiers storage => varDeclaration specifiers.skeleton storage.skeleton
  | function specifiers name hasBody =>
    function specifiers.skeleton (nameSkeleton name) hasBody
  | initializer specifiers failable => initializer specifiers.skeleton failable
  | deinitializer => deinitializer
  | subscript specifiers => subscript specifiers.skeleton
  | typeAlias modifiers name type => typeAlias modifiers name type
  | associatedType name => associatedType name
  | operator _ => operator ""
  | compilerControl directive condition => compilerControl directive (erased condition)

def skeletons : List Declaration → List Declaration
  | [] => []
  | declaration :: rest => skeleton declaration :: skeletons rest

def memberSkeletons : List (EnumMember Declaration) → List (EnumMember Declaration)
  | [] => []
  | .cases clause :: rest => .cases clause.skeleton :: memberSkeletons rest
  | .declaration declared :: rest => .declaration (skeleton declared) :: memberSkeletons rest

end

def memberSkeleton : EnumMember Declaration → EnumMember Declaration
  | .cases clause => .cases clause.skeleton
  | .declaration declared => .declaration declared.skeleton

theorem skeletons_eq_map (declarations : List Declaration) :
    skeletons declarations = declarations.map skeleton := by
  induction declarations with
  | nil => rfl
  | cons declaration rest ih => rw [skeletons, ih, List.map_cons]

theorem memberSkeletons_eq_map (members : List (EnumMember Declaration)) :
    memberSkeletons members = members.map memberSkeleton := by
  induction members with
  | nil => rfl
  | cons member rest ih =>
    cases member with
    | cases clause => rw [memberSkeletons, ih, List.map_cons, memberSkeleton]
    | declaration declared => rw [memberSkeletons, ih, List.map_cons, memberSkeleton]

theorem skeleton_withSpecifiers (specifiers : Specifiers) (declaration : Declaration) :
    (declaration.withSpecifiers specifiers).skeleton =
      declaration.skeleton.withSpecifiers specifiers.skeleton := by
  cases declaration <;> rfl

end Declaration

theorem Binding.field?_skeleton (bindings : List Binding) :
    field? (bindings.map Binding.skeleton) = field? bindings := by
  rcases bindings with _ | ⟨⟨pattern, initializer⟩, _ | ⟨second, more⟩⟩
  · rfl
  · cases pattern with
    | identifier name typing => cases typing <;> rfl
    | _ => rfl
  · cases pattern with
    | identifier name typing => cases typing <;> rfl
    | _ => rfl

theorem Declaration.field?_skeleton (options : ExtractionOptions) (declaration : Declaration) :
    declaration.skeleton.field? options = declaration.field? options := by
  cases declaration with
  | letDeclaration specifiers bindings =>
    simp only [skeleton, field?, Binding.field?_skeleton]
    rfl
  | varDeclaration specifiers storage =>
    cases storage with
    | stored bindings =>
      simp only [skeleton, Storage.skeleton, field?, Binding.field?_skeleton]
      rfl
    | _ => rfl
  | _ => rfl

theorem CaseClause.case?_skeleton (clause : CaseClause) : clause.skeleton.case? = clause.case? := by
  obtain ⟨indirect, _ | ⟨first, _ | ⟨second, more⟩⟩⟩ := clause <;> rfl

def Enumeration.skeleton (declared : Enumeration Declaration) : Enumeration Declaration :=
  { declared with
    specifiers := declared.specifiers.skeleton
    members := declared.members.map Declaration.memberSkeleton }

theorem Declaration.enumeration?_skeleton (declaration : Declaration) :
    declaration.skeleton.enumeration? = declaration.enumeration?.map Enumeration.skeleton := by
  cases declaration with
  | enumeration declared =>
    simp only [skeleton, enumeration?, memberSkeletons_eq_map, Option.map_some]
    rfl
  | _ => rfl

theorem Enumeration.choice?_skeleton (declared : Enumeration Declaration) :
    declared.skeleton.choice? = declared.choice? := by
  have caseOf : ∀ member : EnumMember Declaration,
      (Declaration.memberSkeleton member).case? = member.case? := by
    intro member
    cases member with
    | cases clause => exact clause.case?_skeleton
    | declaration declared => rfl
  simp only [choice?, skeleton, List.filterMap_map, Function.comp_def, caseOf]

namespace Composite

def skeleton (declared : Composite Declaration) : Composite Declaration :=
  { declared with
    specifiers := declared.specifiers.skeleton
    members := declared.members.map Declaration.skeleton }

theorem choices_skeleton (options : ExtractionOptions) (declared : Composite Declaration) :
    declared.skeleton.choices options = declared.choices options := by
  have nested : declared.skeleton.enumerations = declared.enumerations.map Enumeration.skeleton := by
    simp only [enumerations, skeleton, List.filterMap_map, List.map_filterMap, Function.comp_def,
      Declaration.enumeration?_skeleton]
  have admitted : ((fun nested => options.admits nested.specifiers) ∘ Enumeration.skeleton) =
      fun nested => options.admits nested.specifiers := rfl
  rw [choices, nested, List.filter_map, admitted, List.filterMap_map]
  congr 1
  funext nested
  exact nested.choice?_skeleton

theorem fields_skeleton (options : ExtractionOptions) (declared : Composite Declaration) :
    declared.skeleton.fields options = declared.fields options := by
  simp only [fields, skeleton, List.filterMap_map, Function.comp_def, Declaration.field?_skeleton]

theorem findings_skeleton (options : ExtractionOptions) (declared : Composite Declaration) :
    declared.skeleton.findings options = declared.findings options := by
  unfold findings
  rw [choices_skeleton, fields_skeleton]
  rfl

end Composite

theorem Declaration.findings_skeleton (options : ExtractionOptions) (declaration : Declaration) :
    declaration.skeleton.findings options = declaration.findings options := by
  cases declaration with
  | composite declared =>
    have shape : (composite declared).skeleton = composite declared.skeleton := by
      simp only [skeleton, skeletons_eq_map]
      rfl
    rw [shape]
    exact declared.findings_skeleton options
  | _ => rfl

/-- An extraction sees the skeletons of the declarations only. -/
theorem Extraction.ofDeclarations_skeleton (options : ExtractionOptions) (catalog : Catalog)
    (declarations : List Declaration) :
    ofDeclarations options catalog (declarations.map Declaration.skeleton) =
      ofDeclarations options catalog declarations := by
  have found : findingsOf options (declarations.map Declaration.skeleton) =
      findingsOf options declarations := by
    simp only [findingsOf, List.flatMap_map, Declaration.findings_skeleton]
  rw [ofDeclarations, found, ofDeclarations]

end SwiftLens
