import SwiftLens.Proofs.Extraction.Independence

namespace SwiftLens

section Selects

variable {α β γ : Type} {Image : α → β → Prop}

/-- There is only one selection by a function. -/
theorem selects_iff {image? : α → Option β}
    (spec : ∀ element image, image? element = some image ↔ Image element image)
    {elements : List α} {images : List β} :
    Selects Image elements images ↔ images = elements.filterMap image? := by
  constructor
  · intro selects
    induction selects with
    | nil => rfl
    | keep holds _ ih => rw [List.filterMap_cons_some ((spec _ _).mpr holds), ih]
    | drop none _ ih =>
      rw [List.filterMap_cons_none, ih]
      exact Option.eq_none_iff_forall_not_mem.mpr fun image found =>
        none image ((spec _ _).mp found)
  · rintro rfl
    exact selects_filterMap spec elements

theorem Selects.append {elements others : List α} {images more : List β}
    (front : Selects Image elements images) (back : Selects Image others more) :
    Selects Image (elements ++ others) (images ++ more) := by
  induction front with
  | nil => exact back
  | keep holds _ ih => exact .keep holds ih
  | drop none _ ih => exact .drop none ih

theorem Selects.map {place : γ → α} {elements : List γ} {images : List β}
    (selects : Selects (fun element => Image (place element)) elements images) :
    Selects Image (elements.map place) images := by
  induction selects with
  | nil => exact .nil
  | keep holds _ ih => exact .keep holds ih
  | drop none _ ih => exact .drop none ih

/-- Selections from parts make a selection from the whole. -/
theorem selects_flatMap {parts : γ → List α} {images : γ → List β}
    (each : ∀ whole, Selects Image (parts whole) (images whole)) (wholes : List γ) :
    Selects Image (wholes.flatMap parts) (wholes.flatMap images) := by
  induction wholes with
  | nil => exact .nil
  | cons whole rest ih => exact (each whole).append ih

theorem selects_nil {elements : List α} (none : ∀ element ∈ elements, ∀ image, ¬ Image element image) :
    Selects Image elements [] := by
  induction elements with
  | nil => exact .nil
  | cons element rest ih =>
    refine .drop (none element List.mem_cons_self) (ih ?_)
    exact fun other member => none other (List.mem_cons_of_mem _ member)

end Selects

inductive TypePath.KnownAs : TypePath → String → Prop
  | single {name : Name} {arguments : List TypeExpr} {word : String}
      (usable : name.usable? = some word) : KnownAs [⟨name, arguments⟩] word

inductive Composite.States (options : ExtractionOptions) (declared : Composite Declaration)
    (name : String) : Relation → Prop
  | implements {first : String} {later : List String}
      (listed : Selects TypePath.KnownAs declared.supertypes (first :: later)) :
      States options declared name ⟨.implements, .named name, .named first⟩
  | inherits {first supertype : String} {later : List String}
      (listed : Selects TypePath.KnownAs declared.supertypes (first :: later))
      (isLater : supertype ∈ later) :
      States options declared name ⟨.inherits, .named name, .named supertype⟩
  | encapsulates {member : String} (encloses : declared.Encloses options member) :
      States options declared name ⟨.encapsulates, .named name, .named member⟩

namespace Declaration

def VisitedAs (options : ExtractionOptions) (declaration : Declaration) (name : String) : Prop :=
  ∃ declared, declaration = .composite declared ∧ declared.Visited options name

def places : Declaration → List (Composite Declaration × Declaration)
  | .composite declared => declared.members.map (declared, ·)
  | _ => []

def ChosenAs (options : ExtractionOptions) (place : Composite Declaration × Declaration)
    (word : String) : Prop :=
  (∃ name, place.1.Visited options name) ∧ ∃ nested, place.2 = .enumeration nested ∧
    nested.name.usable? = some word ∧
      (options.publicOnly = true → nested.specifiers.isPublic = true)

theorem enumeration?_iff {declaration : Declaration} {nested : Enumeration Declaration} :
    declaration.enumeration? = some nested ↔ declaration = .enumeration nested := by
  cases declaration <;> simp [enumeration?]

end Declaration

/-- What a run from `start` has told and left behind is what its declarations say. -/
structure ExtractionTally.Accounts (options : ExtractionOptions) (start : Catalog)
    (declarations : List Declaration) (tally : ExtractionTally) (final : Catalog) : Prop where
  relations : ∀ relation, relation ∈ final.relations ↔ relation ∈ start.relations ∨
    ∃ declared name, .composite declared ∈ declarations ∧ declared.Visited options name ∧
      declared.States options name relation
  structures : Selects (Declaration.VisitedAs options) declarations tally.structures
  choices : Selects (Declaration.ChosenAs options) (declarations.flatMap Declaration.places)
    tally.choices
  newRelations : tally.newRelations =
    (final.relations.toList.filter fun relation => relation ∉ start.relations).length
  names : ∀ name, name ∈ final.registrations.keys ↔
    name ∈ start.registrations.keys ∨ name ∈ tally.structures ∨ name ∈ tally.choices

namespace Composite

variable {options : ExtractionOptions} {declared : Composite Declaration} {name : String}

theorem selects_supertypeNames {names : List String} :
    Selects TypePath.KnownAs declared.supertypes names ↔ names = declared.supertypeNames := by
  apply selects_iff
  intro path word
  constructor
  · intro found
    obtain ⟨component, single, usable⟩ := Option.bind_eq_some_iff.mp found
    unfold TypePath.single? at single
    split at single
    · cases single
      exact .single usable
    · cases single
  · rintro ⟨usable⟩
    exact usable

theorem states_of_supertype {relation : Relation}
    (isSupertype : relation ∈ supertypeRelations name declared.supertypeNames) :
    declared.States options name relation := by
  cases names : declared.supertypeNames with
  | nil =>
    rw [names] at isSupertype
    cases isSupertype
  | cons first later =>
    have listed := selects_supertypeNames.mpr names.symm
    rw [names] at isSupertype
    rcases List.mem_cons.mp isSupertype with rfl | isLater
    · exact .implements listed
    · obtain ⟨supertype, member, rfl⟩ := List.mem_map.mp isLater
      exact .inherits listed member

/-- The relations among the findings of a visited composite are those that it states. -/
theorem states_iff (visited : declared.Visited options name) {relation : Relation} :
    (∃ finding ∈ declared.findings options, finding.relation? = some relation) ↔
      declared.States options name relation := by
  rw [findings_of_visited visited]
  constructor
  · rintro ⟨finding, found, stated⟩
    simp only [List.mem_append, List.mem_map, List.mem_singleton] at found
    rcases found with (⟨other, isSupertype, rfl⟩ | ⟨choice, chosen, rfl⟩) | rfl
    · obtain rfl := Option.some.inj stated
      exact states_of_supertype isSupertype
    · obtain rfl := Option.some.inj stated
      exact .encapsulates (mem_choices_iff.mp ⟨choice, chosen, rfl⟩)
    · cases stated
  · intro states
    cases states with
    | implements listed =>
      refine ⟨.related _, ?_, rfl⟩
      simp [← selects_supertypeNames.mp listed, supertypeRelations]
    | inherits listed isLater =>
      refine ⟨.related _, ?_, rfl⟩
      simp [← selects_supertypeNames.mp listed, supertypeRelations, isLater]
    | encapsulates encloses =>
      obtain ⟨choice, chosen, rfl⟩ := mem_choices_iff.mpr encloses
      exact ⟨.choice name choice, by simp [chosen], rfl⟩

/-- The names of the choices are those of the accepted enumerations, in their order. -/
theorem selects_choices (visited : declared.Visited options name) :
    Selects (Declaration.ChosenAs options) (declared.members.map (declared, ·))
      ((declared.choices options).map (·.name)) := by
  have names : (declared.choices options).map (·.name) = declared.members.filterMap fun member =>
      ((member.enumeration?.filter fun nested => options.admits nested.specifiers).bind
        Enumeration.choice?).map (·.name) := by
    simp only [choices, enumerations, List.filter_filterMap, List.filterMap_filterMap,
      List.map_filterMap]
  rw [names]
  apply Selects.map
  apply selects_filterMap
  intro member word
  simp only [Option.map_eq_some_iff, Option.bind_eq_some_iff, Option.filter_eq_some_iff,
    Declaration.enumeration?_iff, Enumeration.choice?, admits_iff, Declaration.ChosenAs]
  constructor
  · rintro ⟨_, ⟨nested, ⟨isNested, isPublic⟩, usableName, usable, rfl⟩, rfl⟩
    exact ⟨⟨name, visited⟩, nested, isNested, usable, isPublic⟩
  · rintro ⟨-, nested, isNested, usable, isPublic⟩
    exact ⟨_, ⟨nested, ⟨isNested, isPublic⟩, word, usable, rfl⟩, rfl⟩

theorem structureNames_findings (visited : declared.Visited options name) :
    (declared.findings options).filterMap Finding.structureName? = [name] := by
  rw [findings_of_visited visited]
  simp [List.filterMap_append, List.filterMap_map, Function.comp_def, Finding.structureName?]

theorem choiceNames_findings (visited : declared.Visited options name) :
    (declared.findings options).filterMap Finding.choiceName? =
      (declared.choices options).map (·.name) := by
  rw [findings_of_visited visited]
  simp [List.filterMap_append, List.filterMap_map, Function.comp_def, Finding.choiceName?]

end Composite

/-- The relations that a list of declarations states are those of its visited composites. -/
theorem states_findingsOf_iff {options : ExtractionOptions} {declarations : List Declaration}
    {relation : Relation} :
    (∃ finding ∈ findingsOf options declarations, finding.relation? = some relation) ↔
      ∃ declared name, .composite declared ∈ declarations ∧ declared.Visited options name ∧
        declared.States options name relation := by
  constructor
  · rintro ⟨finding, found, stated⟩
    have entered : ∀ reason, finding ≠ .skipped reason := by
      rintro reason rfl
      cases stated
    obtain ⟨declared, name, listed, visited, found⟩ := (mem_findingsOf_iff entered).mp found
    exact ⟨declared, name, listed, visited, (declared.states_iff visited).mp ⟨finding, found, stated⟩⟩
  · rintro ⟨declared, name, listed, visited, states⟩
    obtain ⟨finding, found, stated⟩ := (declared.states_iff visited).mpr states
    exact ⟨finding, List.mem_flatMap.mpr ⟨_, listed, found⟩, stated⟩

namespace Declaration

variable {options : ExtractionOptions}

theorem not_visited {declared : Composite Declaration} {reason : SkipReason}
    (skipped : declared.findings options = [.skipped reason]) (name : String) :
    ¬ declared.Visited options name := by
  intro visited
  rw [Composite.findings_of_visited visited] at skipped
  have last := congrArg List.getLast? skipped
  simp at last

theorem selects_structureNames (options : ExtractionOptions) (declaration : Declaration) :
    Selects (VisitedAs options) [declaration]
      ((declaration.findings options).filterMap Finding.structureName?) := by
  cases declaration with
  | composite declared =>
    rcases declared.findings_cases options with ⟨name, visited⟩ | ⟨reason, skipped⟩
    · rw [findings, Composite.structureNames_findings visited]
      exact .keep ⟨declared, rfl, visited⟩ .nil
    · rw [findings, skipped]
      refine .drop ?_ .nil
      rintro name ⟨other, same, visited⟩
      obtain rfl := composite.inj same
      exact not_visited skipped name visited
  | _ =>
    refine .drop ?_ .nil
    rintro name ⟨other, same, -⟩
    cases same

theorem selects_choiceNames (options : ExtractionOptions) (declaration : Declaration) :
    Selects (ChosenAs options) declaration.places
      ((declaration.findings options).filterMap Finding.choiceName?) := by
  cases declaration with
  | composite declared =>
    rcases declared.findings_cases options with ⟨name, visited⟩ | ⟨reason, skipped⟩
    · rw [findings, Composite.choiceNames_findings visited]
      exact Composite.selects_choices visited
    · rw [findings, skipped]
      apply selects_nil
      rintro place listed word ⟨⟨name, visited⟩, -⟩
      obtain ⟨member, -, rfl⟩ := List.mem_map.mp listed
      exact not_visited skipped name visited
  | _ => exact .nil

end Declaration

namespace Extraction

variable {options : ExtractionOptions} {catalog : Catalog} {declarations : List Declaration}
  {tally : ExtractionTally}

/-- A run that is not stopped does what it does without strict names. -/
theorem eq_free_of_ok
    (succeeded : (ofDeclarations options catalog declarations).result = .ok tally) :
    ofDeclarations options catalog declarations =
      ofDeclarations { options with strictNames := false } catalog declarations := by
  obtain ⟨publicOnly, strictNames, kinds⟩ := options
  cases strictNames with
  | false => rfl
  | true =>
    exact strict_eq_free ((strict_succeeds_iff ⟨publicOnly, true, kinds⟩ catalog declarations).mp
      ⟨tally, succeeded⟩)

/-- What a run that is not stopped tells and leaves behind. -/
theorem tally_of_ok
    (succeeded : (ofDeclarations options catalog declarations).result = .ok tally) :
    tally = ⟨(findingsOf options declarations).filterMap Finding.structureName?,
        (findingsOf options declarations).filterMap Finding.choiceName?,
        catalog.relations.countNew (statedRelations (findingsOf options declarations))⟩ ∧
      (ofDeclarations options catalog declarations).catalog =
        (findingsOf options declarations).foldl Finding.enters catalog := by
  have free : ({ options with strictNames := false } : ExtractionOptions).strictNames = false := rfl
  have same := eq_free_of_ok succeeded
  rw [same, result_free free] at succeeded
  exact ⟨(Except.ok.inj succeeded).symm, same ▸ catalog_ofDeclarations_free free catalog declarations⟩

/-- A run that is not stopped adds the relations that its visited composites state, and tells them
once however often they are stated. -/
theorem accounts_of_ok {file : SourceFile}
    (succeeded : (ofDeclarations options catalog file.declarations).result = .ok tally) :
    tally.Accounts options catalog file.declarations
      (ofDeclarations options catalog file.declarations).catalog := by
  obtain ⟨rfl, final⟩ := tally_of_ok succeeded
  rw [final]
  constructor
  · intro relation
    rw [Finding.mem_relations_foldl, states_findingsOf_iff]
  · have selected := selects_flatMap (Declaration.selects_structureNames options) file.declarations
    rw [List.flatMap_singleton', ← List.filterMap_flatMap] at selected
    exact selected
  · have selected := selects_flatMap (Declaration.selects_choiceNames options) file.declarations
    rw [← List.filterMap_flatMap] at selected
    exact selected
  · rw [Finding.relations_foldl]
    exact OrderedSet.countNew_eq_length _ _
  · intro name
    rw [Finding.foldl_enters_eq, OrderedMap.mem_keys_insertAll, Catalog.names_journal]
    simp only [List.mem_filterMap, Finding.name?_iff, and_or_left, exists_or]

def wiredLamp : Declaration :=
  .composite ⟨.structType, .none, .plain "Lamp", [],
    some [[⟨.plain "Core", []⟩, ⟨.plain "Item", []⟩], [⟨.plain "Device", []⟩],
      [⟨.plain "Wire", []⟩], [⟨.plain "Wire", [.simple "Int"]⟩]],
    [.enumeration ⟨.none, .plain "Mode", [], none, []⟩]⟩

/-- The lamp is declared twice, and one of its relations is known before. -/
theorem accounts_of_ok_lamp :
    (⟨["Lamp", "Lamp"], ["Mode", "Mode"], 2⟩ : ExtractionTally).Accounts {}
      (Catalog.empty.relate ⟨.inherits, .named "Lamp", .named "Wire"⟩) [wiredLamp, wiredLamp]
      (ofDeclarations {} (Catalog.empty.relate ⟨.inherits, .named "Lamp", .named "Wire"⟩)
        [wiredLamp, wiredLamp]).catalog := by
  have succeeded : (ofDeclarations {}
      (Catalog.empty.relate ⟨.inherits, .named "Lamp", .named "Wire"⟩)
      (SourceFile.mk [wiredLamp, wiredLamp]).declarations).result =
        .ok ⟨["Lamp", "Lamp"], ["Mode", "Mode"], 2⟩ := by decide
  exact accounts_of_ok succeeded

end Extraction
end SwiftLens
