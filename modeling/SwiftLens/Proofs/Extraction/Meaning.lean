import SwiftLens.Proofs.Extraction.Steps
import SwiftLens.SourceFile

namespace SwiftLens

/-- `images` holds, in order, the image of each element of a list that has one. -/
inductive Selects {α β : Type} (Image : α → β → Prop) : List α → List β → Prop
  | nil : Selects Image [] []
  | keep {element : α} {image : β} {elements : List α} {images : List β} :
      Image element image → Selects Image elements images →
        Selects Image (element :: elements) (image :: images)
  | drop {element : α} {elements : List α} {images : List β} :
      (∀ image, ¬ Image element image) → Selects Image elements images →
        Selects Image (element :: elements) images

theorem selects_filterMap {α β : Type} {Image : α → β → Prop} {image? : α → Option β}
    (spec : ∀ element image, image? element = some image ↔ Image element image)
    (elements : List α) : Selects Image elements (elements.filterMap image?) := by
  induction elements with
  | nil => exact .nil
  | cons element rest ih =>
    cases found : image? element with
    | none =>
      rw [List.filterMap_cons_none found]
      refine .drop ?_ ih
      intro image holds
      rw [(spec element image).mpr holds] at found
      cases found
    | some image =>
      rw [List.filterMap_cons_some found]
      exact .keep ((spec element image).mp found) ih

structure Composite.Visited (options : ExtractionOptions) (declared : Composite Declaration)
    (name : String) : Prop where
  kind : declared.kind ∈ options.kinds
  name : declared.name.usable? = some name
  isPublic : options.publicOnly = true → declared.specifiers.isPublic = true

def Composite.Encloses (options : ExtractionOptions) (declared : Composite Declaration)
    (member : String) : Prop :=
  ∃ nested, .enumeration nested ∈ declared.members ∧ nested.name.usable? = some member ∧
    (options.publicOnly = true → nested.specifiers.isPublic = true)

def IsContainer (options : ExtractionOptions) (catalog : Catalog) (declarations : List Declaration)
    (member : String) (container : SemanticType) : Prop :=
  ⟨.encapsulates, container, .named member⟩ ∈ catalog.relations ∨
    ∃ outer name, .composite outer ∈ declarations ∧ outer.Visited options name ∧
      outer.Encloses options member ∧ container = .named name

inductive Qualified (Contains : SemanticType → Prop) (word : String) : SemanticType → Prop
  | outermost : (∀ container, ¬ Contains container) → Qualified Contains word (.named word)
  | inside {container : String} : (∀ other, Contains other ↔ other = .named container) →
      Qualified Contains word (.named (qualifiedName container word))

/-- The types that annotations of fields stand for: a simple name or an optional of one. -/
inductive TypeExpr.Means (Contains : String → SemanticType → Prop) :
    TypeExpr → SemanticType → Prop
  | simple {name : Name} {word : String} {type : SemanticType} : name.usable? = some word →
      Qualified (Contains word) word type → Means Contains (.named [⟨name, []⟩]) type
  | optional {name : Name} {word : String} {type : SemanticType} : name.usable? = some word →
      Qualified (Contains word) word type →
        Means Contains (.optional (.named [⟨name, []⟩])) (.optional type)

structure FieldModifiers (options : ExtractionOptions) (modifiers : List Modifier) : Prop where
  ofValues : .staticMember ∉ modifiers ∧ .classMember ∉ modifiers
  isPublic : options.publicOnly = true → modifiers ≠ [] ∧
    ∀ modifier ∈ modifiers, modifier = .access .publicLevel ∨ modifier = .access .openLevel

inductive Declaration.DeclaresField (options : ExtractionOptions) :
    Declaration → String → TypeExpr → Prop
  | ofLet {specifiers : Specifiers} {name : Name} {word : String} {type : TypeExpr}
      {initializer : Option String} : FieldModifiers options specifiers.modifiers →
      name.usable? = some word →
      DeclaresField options
        (.letDeclaration specifiers [⟨.identifier name (some type), initializer⟩]) word type
  | ofVar {specifiers : Specifiers} {name : Name} {word : String} {type : TypeExpr}
      {initializer : Option String} : FieldModifiers options specifiers.modifiers →
      name.usable? = some word →
      DeclaresField options
        (.varDeclaration specifiers (.stored [⟨.identifier name (some type), initializer⟩])) word type

def DeclaresProperty (options : ExtractionOptions) (Contains : String → SemanticType → Prop)
    (member : Declaration) (property : Property SemanticType) : Prop :=
  ∃ type, member.DeclaresField options property.name type ∧ type.Means Contains property.type

theorem admits_iff {options : ExtractionOptions} {specifiers : Specifiers} :
    options.admits specifiers = true ↔
      (options.publicOnly = true → specifiers.isPublic = true) := by
  cases kept : options.publicOnly <;> simp [ExtractionOptions.admits, kept]

theorem admitsField_iff {options : ExtractionOptions} {modifiers : List Modifier} :
    options.admitsField modifiers = true ↔ FieldModifiers options modifiers := by
  have typeLevel : modifiers.any Modifier.isTypeLevel = false ↔
      .staticMember ∉ modifiers ∧ .classMember ∉ modifiers := by
    constructor
    · intro none
      rw [List.any_eq_false] at none
      exact ⟨fun member => none _ member rfl, fun member => none _ member rfl⟩
    · rintro ⟨noStatic, noClass⟩
      rw [List.any_eq_false]
      intro modifier member
      cases modifier <;> simp_all [Modifier.isTypeLevel]
  have isPublic : ∀ modifier : Modifier, (modifier.accessLevel?.any AccessLevel.isPublic) = true ↔
      modifier = .access .publicLevel ∨ modifier = .access .openLevel := by
    intro modifier
    cases modifier with
    | access level => cases level <;> decide
    | _ => simp [Modifier.accessLevel?]
  unfold ExtractionOptions.admitsField
  simp only [Bool.and_eq_true, Bool.not_eq_true', typeLevel, Bool.or_eq_true, List.isEmpty_eq_false_iff,
    List.all_eq_true, isPublic]
  constructor
  · rintro ⟨ofValues, visible⟩
    refine ⟨ofValues, ?_⟩
    intro kept
    rcases visible with skipped | visible
    · rw [kept] at skipped
      cases skipped
    · exact visible
  · rintro ⟨ofValues, visible⟩
    refine ⟨ofValues, ?_⟩
    cases kept : options.publicOnly with
    | false => exact .inl rfl
    | true => exact .inr (visible kept)

theorem binding_field?_iff {bindings : List Binding} {field : Field} :
    Binding.field? bindings = some field ↔
      ∃ name initializer, bindings = [⟨.identifier name (some field.type), initializer⟩] ∧
        name.usable? = some field.name := by
  obtain ⟨word, type⟩ := field
  unfold Binding.field?
  split
  · next name found initializer =>
    simp only [Option.map_eq_some_iff, Field.mk.injEq, List.cons.injEq, Binding.mk.injEq,
      Pattern.identifier.injEq, Option.some.injEq, and_true]
    constructor
    · rintro ⟨usable, isUsable, rfl, rfl⟩
      exact ⟨name, initializer, ⟨⟨rfl, rfl⟩, rfl⟩, isUsable⟩
    · rintro ⟨_, _, ⟨⟨rfl, rfl⟩, rfl⟩, isUsable⟩
      exact ⟨word, isUsable, rfl, rfl⟩
  · next shape =>
    simp only [reduceCtorEq, false_iff]
    rintro ⟨name, initializer, rfl, _⟩
    exact shape name type initializer rfl

theorem field?_iff {options : ExtractionOptions} {member : Declaration} {field : Field} :
    member.field? options = some field ↔ member.DeclaresField options field.name field.type := by
  constructor
  · intro found
    cases member with
    | letDeclaration specifiers bindings =>
      simp only [Declaration.field?, Option.ite_none_right_eq_some, binding_field?_iff,
        admitsField_iff] at found
      obtain ⟨visible, name, initializer, rfl, usable⟩ := found
      exact .ofLet visible usable
    | varDeclaration specifiers storage =>
      cases storage with
      | stored bindings =>
        simp only [Declaration.field?, Option.ite_none_right_eq_some, binding_field?_iff,
          admitsField_iff] at found
        obtain ⟨visible, name, initializer, rfl, usable⟩ := found
        exact .ofVar visible usable
      | computed name typing => simp [Declaration.field?] at found
      | observed name typing initializer => simp [Declaration.field?] at found
    | _ => simp [Declaration.field?] at found
  · intro declares
    obtain ⟨word, type⟩ := field
    cases declares with
    | ofLet visible usable =>
      simp [Declaration.field?, admitsField_iff.mpr visible, Binding.field?, usable]
    | ofVar visible usable =>
      simp [Declaration.field?, admitsField_iff.mpr visible, Binding.field?, usable]

namespace Catalog

theorem mem_sources_iff {catalog : Catalog} {kind : Relation.Kind} {left right : SemanticType} :
    left ∈ catalog.sources kind right ↔ ⟨kind, left, right⟩ ∈ catalog.relations := by
  simp only [sources, List.mem_map, List.mem_filter, Bool.and_eq_true, decide_eq_true_eq]
  constructor
  · rintro ⟨relation, ⟨listed, rfl, rfl⟩, rfl⟩
    exact listed
  · intro listed
    exact ⟨⟨kind, left, right⟩, ⟨listed, rfl, rfl⟩, rfl⟩

theorem sources_nodup (catalog : Catalog) (kind : Relation.Kind) (right : SemanticType) :
    (catalog.sources kind right).Nodup := by
  unfold sources
  rw [List.Nodup, List.pairwise_map]
  refine List.Pairwise.imp_of_mem ?_ (catalog.relations.nodup.sublist List.filter_sublist)
  rintro ⟨kind, left, right⟩ ⟨otherKind, otherLeft, otherRight⟩ first second differs sameLeft
  simp only [List.mem_filter, Bool.and_eq_true, decide_eq_true_eq] at first second
  obtain ⟨-, rfl, rfl⟩ := first
  obtain ⟨-, rfl, rfl⟩ := second
  exact differs (by simpa using sameLeft)

theorem resolveName_iff {catalog : Catalog} {word : String} {type : SemanticType} :
    catalog.resolveName word = some type ↔
      Qualified (fun container => ⟨.encapsulates, container, .named word⟩ ∈ catalog.relations) word
        type := by
  have containers : ∀ container, container ∈ catalog.sources .encapsulates (.named word) ↔
      ⟨.encapsulates, container, .named word⟩ ∈ catalog.relations := fun _ => mem_sources_iff
  have apart := catalog.sources_nodup .encapsulates (.named word)
  unfold resolveName
  simp only [← containers]
  generalize catalog.sources .encapsulates (.named word) = sources at apart
  constructor
  · intro resolved
    match sources, resolved with
    | [], resolved =>
      cases resolved
      exact .outermost (by simp)
    | [.named container], resolved =>
      cases resolved
      exact .inside (by simp)
  · intro qualified
    cases qualified with
    | outermost none =>
      cases sources with
      | nil => rfl
      | cons first rest => exact absurd List.mem_cons_self (none first)
    | inside only =>
      next container =>
      match sources, apart, only with
      | [], _, only => exact absurd ((only (.named container)).mpr rfl) (by simp)
      | [single], _, only =>
        obtain rfl := (only single).mp List.mem_cons_self
        rfl
      | first :: second :: rest, apart, only =>
        have same : first = second :=
          ((only first).mp (by simp)).trans ((only second).mp (by simp)).symm
        simp [same] at apart

theorem resolve_iff {catalog : Catalog} {written : TypeExpr} {type : SemanticType} :
    catalog.resolve written = some type ↔
      written.Means (fun word container =>
        ⟨.encapsulates, container, .named word⟩ ∈ catalog.relations) type := by
  constructor
  · intro resolved
    unfold resolve at resolved
    split at resolved
    · next path =>
      obtain ⟨word, simple, found⟩ := Option.bind_eq_some_iff.mp resolved
      unfold TypePath.simpleName? at simple
      split at simple
      · exact .simple simple (resolveName_iff.mp found)
      · cases simple
    · next path =>
      obtain ⟨inner, bound, rfl⟩ := Option.map_eq_some_iff.mp resolved
      obtain ⟨word, simple, found⟩ := Option.bind_eq_some_iff.mp bound
      unfold TypePath.simpleName? at simple
      split at simple
      · exact .optional simple (resolveName_iff.mp found)
      · cases simple
    · cases resolved
  · intro means
    cases means with
    | simple usable qualified =>
      simp [resolve, TypePath.simpleName?, usable, resolveName_iff.mpr qualified]
    | optional usable qualified =>
      simp [resolve, TypePath.simpleName?, usable, resolveName_iff.mpr qualified]

/-- A catalog resolves the fields of a composite to what its members declare. -/
theorem selects_properties (options : ExtractionOptions) (catalog : Catalog)
    (declared : Composite Declaration) :
    Selects (DeclaresProperty options fun word container =>
        ⟨.encapsulates, container, .named word⟩ ∈ catalog.relations)
      declared.members (catalog.properties (declared.fields options)) := by
  unfold properties Composite.fields
  rw [List.filterMap_filterMap]
  apply selects_filterMap
  rintro member ⟨name, type⟩
  simp only [Option.bind_eq_some_iff, Option.map_eq_some_iff, Property.mk.injEq, field?_iff,
    resolve_iff, DeclaresProperty]
  constructor
  · rintro ⟨⟨word, written⟩, declares, found, means, rfl, rfl⟩
    exact ⟨written, declares, means⟩
  · rintro ⟨written, declares, means⟩
    exact ⟨⟨name, written⟩, declares, type, means, rfl, rfl⟩

end Catalog

theorem Composite.mem_choices_iff {options : ExtractionOptions} {declared : Composite Declaration}
    {member : String} :
    (∃ choice ∈ declared.choices options, choice.name = member) ↔
      declared.Encloses options member := by
  simp only [choices, enumerations, List.mem_filterMap, List.mem_filter, Encloses]
  constructor
  · rintro ⟨choice, ⟨nested, ⟨⟨outer, listed, isNested⟩, accepted⟩, found⟩, rfl⟩
    cases outer <;> simp only [Declaration.enumeration?, Option.some.injEq, reduceCtorEq] at isNested
    subst isNested
    obtain ⟨word, usable, rfl⟩ := Option.map_eq_some_iff.mp found
    exact ⟨_, listed, usable, admits_iff.mp accepted⟩
  · rintro ⟨nested, listed, usable, isPublic⟩
    exact ⟨⟨member, nested.members.filterMap EnumMember.case?⟩,
      ⟨nested, ⟨⟨.enumeration nested, listed, rfl⟩, admits_iff.mpr isPublic⟩,
        by simp [Enumeration.choice?, usable]⟩, rfl⟩

theorem Composite.findings_of_visited {options : ExtractionOptions} {declared : Composite Declaration}
    {name : String} (visited : declared.Visited options name) :
    declared.findings options =
      (supertypeRelations name declared.supertypeNames).map .related ++
        (declared.choices options).map (.choice name) ++
          [.composite name (declared.fields options)] := by
  have selected : options.visits declared.kind = true := by
    simpa [ExtractionOptions.visits] using visited.kind
  simp [findings, selected, visited.name, admits_iff.mpr visited.isPublic]

theorem Composite.findings_cases (options : ExtractionOptions) (declared : Composite Declaration) :
    (∃ name, declared.Visited options name) ∨ ∃ reason, declared.findings options = [.skipped reason] := by
  unfold findings
  split
  · next selected =>
    cases usable : declared.name.usable? with
    | none => exact .inr ⟨_, rfl⟩
    | some name =>
      by_cases admitted : options.admits declared.specifiers = true
      · exact .inl ⟨name, by simpa [ExtractionOptions.visits] using selected, usable,
          admits_iff.mp admitted⟩
      · exact .inr ⟨.notPublic declared.kind name, by simp [admitted]⟩
  · exact .inr ⟨_, rfl⟩

theorem mem_findingsOf_iff {options : ExtractionOptions} {declarations : List Declaration}
    {finding : Finding} (entered : ∀ reason, finding ≠ .skipped reason) :
    finding ∈ findingsOf options declarations ↔
      ∃ outer name, .composite outer ∈ declarations ∧ outer.Visited options name ∧
        finding ∈ outer.findings options := by
  unfold findingsOf
  rw [List.mem_flatMap]
  constructor
  · rintro ⟨declaration, listed, found⟩
    cases declaration with
    | composite outer =>
      rcases outer.findings_cases options with ⟨name, visited⟩ | ⟨reason, skipped⟩
      · exact ⟨outer, name, listed, visited, found⟩
      · simp only [Declaration.findings, skipped, List.mem_singleton] at found
        exact absurd found (entered reason)
    | _ => simp [Declaration.findings] at found
  · rintro ⟨outer, name, listed, -, found⟩
    exact ⟨.composite outer, listed, found⟩

/-- The enclosing types that a list of declarations states are those of its visited composites. -/
theorem states_encapsulates_iff {options : ExtractionOptions} {declarations : List Declaration}
    {member : String} {container : SemanticType} :
    (∃ finding ∈ findingsOf options declarations,
        finding.relation? = some ⟨.encapsulates, container, .named member⟩) ↔
      ∃ outer name, .composite outer ∈ declarations ∧ outer.Visited options name ∧
        outer.Encloses options member ∧ container = .named name := by
  constructor
  · rintro ⟨finding, found, stated⟩
    have entered : ∀ reason, finding ≠ .skipped reason := by
      rintro reason rfl
      cases stated
    obtain ⟨outer, name, listed, visited, found⟩ := (mem_findingsOf_iff entered).mp found
    refine ⟨outer, name, listed, visited, ?_⟩
    rw [Composite.findings_of_visited visited] at found
    simp only [List.mem_append, List.mem_map, List.mem_singleton] at found
    rcases found with (⟨relation, isSupertype, rfl⟩ | ⟨choice, chosen, rfl⟩) | rfl
    · obtain rfl := Option.some.inj stated
      generalize outer.supertypeNames = supertypes at isSupertype
      cases supertypes with
      | nil => cases isSupertype
      | cons first later => simp [Composite.supertypeRelations] at isSupertype
    · simp only [Finding.relation?, Option.some.injEq, Relation.mk.injEq, SemanticType.named.injEq,
        true_and] at stated
      obtain ⟨rfl, rfl⟩ := stated
      exact ⟨Composite.mem_choices_iff.mp ⟨choice, chosen, rfl⟩, rfl⟩
    · cases stated
  · rintro ⟨outer, name, listed, visited, encloses, rfl⟩
    obtain ⟨choice, chosen, rfl⟩ := Composite.mem_choices_iff.mpr encloses
    refine ⟨.choice name choice, ?_, rfl⟩
    refine (mem_findingsOf_iff (by simp)).mpr ⟨outer, name, listed, visited, ?_⟩
    rw [Composite.findings_of_visited visited]
    simp [chosen]

/-- The catalog after declarations knows the containers that they and the first catalog state. -/
theorem isContainer_iff {options : ExtractionOptions} {catalog : Catalog}
    {declarations : List Declaration} {member : String} {container : SemanticType} :
    ⟨.encapsulates, container, .named member⟩ ∈
        ((findingsOf options declarations).foldl Finding.enters catalog).relations ↔
      IsContainer options catalog declarations member container := by
  rw [Finding.mem_relations_foldl, states_encapsulates_iff]
  rfl

/-- The names that a list of declarations registers. -/
theorem registers_iff {options : ExtractionOptions} {declarations : List Declaration}
    {word : String} :
    (∃ finding ∈ findingsOf options declarations, finding.name? = some word) ↔
      ∃ outer name, .composite outer ∈ declarations ∧ outer.Visited options name ∧
        (name = word ∨ outer.Encloses options word) := by
  constructor
  · rintro ⟨finding, found, registers⟩
    have entered : ∀ reason, finding ≠ .skipped reason := by
      rintro reason rfl
      cases registers
    obtain ⟨outer, name, listed, visited, found⟩ := (mem_findingsOf_iff entered).mp found
    refine ⟨outer, name, listed, visited, ?_⟩
    rw [Composite.findings_of_visited visited] at found
    simp only [List.mem_append, List.mem_map, List.mem_singleton] at found
    rcases found with (⟨relation, -, rfl⟩ | ⟨choice, chosen, rfl⟩) | rfl
    · cases registers
    · exact .inr (Composite.mem_choices_iff.mp ⟨choice, chosen, Option.some.inj registers⟩)
    · exact .inl (Option.some.inj registers)
  · rintro ⟨outer, name, listed, visited, rfl | encloses⟩
    · refine ⟨.composite name (outer.fields options), ?_, rfl⟩
      refine (mem_findingsOf_iff (by simp)).mpr ⟨outer, name, listed, visited, ?_⟩
      rw [Composite.findings_of_visited visited]
      simp
    · obtain ⟨choice, chosen, rfl⟩ := Composite.mem_choices_iff.mpr encloses
      refine ⟨.choice name choice, ?_, rfl⟩
      refine (mem_findingsOf_iff (by simp)).mpr ⟨outer, name, listed, visited, ?_⟩
      rw [Composite.findings_of_visited visited]
      simp [chosen]

theorem findingsOf_append (options : ExtractionOptions) (front back : List Declaration) :
    findingsOf options (front ++ back) = findingsOf options front ++ findingsOf options back :=
  List.flatMap_append

/-- A visited composite registers the properties that its members declare. -/
theorem find?_after_composite {options : ExtractionOptions} (catalog : Catalog)
    (before : List Declaration) {declared : Composite Declaration} {name : String}
    (visited : declared.Visited options name) :
    ∃ properties,
      Selects (DeclaresProperty options
          (IsContainer options catalog (before ++ [.composite declared])))
        declared.members properties ∧
      ((findingsOf options (before ++ [.composite declared])).foldl Finding.enters catalog).find? name =
        some (.ofStructure ⟨name, properties⟩) ∧
      .ofStructure ⟨name, properties⟩ ∈
        ((findingsOf options (before ++ [.composite declared])).foldl Finding.enters
          catalog).definitions := by
  let entered := (findingsOf options before ++
    (Composite.supertypeRelations name declared.supertypeNames).map Finding.related ++
      (declared.choices options).map (Finding.choice name)).foldl Finding.enters catalog
  have reached : (findingsOf options (before ++ [.composite declared])).foldl Finding.enters catalog =
      entered.put name (.ofStructure ⟨name, entered.properties (declared.fields options)⟩) := by
    have last : findingsOf options [.composite declared] = declared.findings options := by
      simp [findingsOf, Declaration.findings]
    rw [findingsOf_append, last, Composite.findings_of_visited visited, ← List.append_assoc,
      ← List.append_assoc, List.foldl_append]
    rfl
  -- The composite itself states no container, so its fields see those of the whole prefix.
  have containers : (fun (word : String) (container : SemanticType) =>
      (⟨.encapsulates, container, .named word⟩ : Relation) ∈ entered.relations) =
        IsContainer options catalog (before ++ [.composite declared]) := by
    funext word container
    rw [← isContainer_iff, reached]
    rfl
  refine ⟨entered.properties (declared.fields options), ?_, ?_, ?_⟩
  · rw [← containers]
    exact entered.selects_properties options declared
  · rw [reached]
    simp
  · rw [reached]
    simp

/-- The structure that a file's visited composite registers has the properties that its members
declare, seen with the containers of the first catalog and of the composites up to this one. It
stays among the definitions, and the name stands for it unless something later takes it over. -/
theorem structure_of_visited {options : ExtractionOptions} (free : options.strictNames = false)
    (catalog : Catalog) (file : SourceFile) {before after : List Declaration}
    {declared : Composite Declaration} {name : String}
    (split : file.declarations = before ++ .composite declared :: after)
    (visited : declared.Visited options name) :
    ∃ properties,
      Selects (DeclaresProperty options
          (IsContainer options catalog (before ++ [.composite declared])))
        declared.members properties ∧
      (Extraction.ofDeclarations options catalog (before ++ [.composite declared])).catalog.find? name =
        some (.ofStructure ⟨name, properties⟩) ∧
      (Extraction.ofDeclarations options catalog file.declarations).catalog =
        (Extraction.ofDeclarations options
          (Extraction.ofDeclarations options catalog (before ++ [.composite declared])).catalog
          after).catalog ∧
      .ofStructure ⟨name, properties⟩ ∈
        (Extraction.ofDeclarations options catalog file.declarations).catalog.definitions ∧
      ((∀ outer other, .composite outer ∈ after → outer.Visited options other →
          other ≠ name ∧ ¬ outer.Encloses options name) →
        (Extraction.ofDeclarations options catalog file.declarations).catalog.find? name =
          some (.ofStructure ⟨name, properties⟩)) := by
  obtain ⟨properties, declares, stands, listed⟩ := find?_after_composite catalog before visited
  have whole : file.declarations = (before ++ [.composite declared]) ++ after := by
    rw [split, List.append_assoc]
    rfl
  have continued : (findingsOf options file.declarations).foldl Finding.enters catalog =
      (findingsOf options after).foldl Finding.enters
        ((findingsOf options (before ++ [.composite declared])).foldl Finding.enters catalog) := by
    rw [whole, findingsOf_append, List.foldl_append]
  simp only [Extraction.catalog_ofDeclarations_free free, continued]
  refine ⟨properties, declares, stands, trivial, Finding.mem_definitions_foldl listed, ?_⟩
  intro untouched
  rw [Finding.find?_foldl_of_ne, stands]
  intro finding found registers
  obtain ⟨outer, other, member, otherVisited, names⟩ := registers_iff.mp ⟨finding, found, registers⟩
  obtain ⟨otherName, encloses⟩ := untouched outer other member otherVisited
  rcases names with same | within
  · exact otherName same
  · exact encloses within

def lampDeclaration : Composite Declaration :=
  ⟨.structType, .none, .plain "Lamp", [], none,
    [.letDeclaration .none
        [⟨.identifier (.plain "mode") (some (.optional (.simple "Mode"))), none⟩],
      .enumeration ⟨.none, .plain "Mode", [], none,
        [.cases ⟨false, [⟨.plain "dimmed", none, none⟩]⟩]⟩]⟩

theorem lampDeclaration_visited : lampDeclaration.Visited {} "Lamp" where
  kind := by decide
  name := rfl
  isPublic := by decide

theorem structure_of_visited_lamp :
    ∃ properties,
      Selects (DeclaresProperty {} (IsContainer {} .empty [.composite lampDeclaration]))
        lampDeclaration.members properties ∧
      (Extraction.ofDeclarations {} .empty [.composite lampDeclaration]).catalog.find? "Lamp" =
        some (.ofStructure ⟨"Lamp", properties⟩) := by
  have free : ({} : ExtractionOptions).strictNames = false := rfl
  have split : [Declaration.composite lampDeclaration] = [] ++ .composite lampDeclaration :: [] := rfl
  obtain ⟨properties, declares, stands, -⟩ :=
    structure_of_visited free .empty ⟨[.composite lampDeclaration]⟩ split lampDeclaration_visited
  exact ⟨properties, declares, stands⟩

example :
    (Extraction.ofDeclarations {} .empty [.composite lampDeclaration]).catalog.find? "Lamp" =
      some (.ofStructure ⟨"Lamp", [⟨"mode", .optional (.named "Lamp.Mode")⟩]⟩) := by
  decide

end SwiftLens
