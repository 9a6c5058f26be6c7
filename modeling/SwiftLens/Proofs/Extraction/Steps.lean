import SwiftLens.Extraction

namespace SwiftLens

namespace Catalog

def put (catalog : Catalog) (name : String) (definition : TypeDefinition) : Catalog :=
  (catalog.register name definition).addDefinition definition

@[simp]
theorem put_definitions (catalog : Catalog) (name : String) (definition : TypeDefinition) :
    (catalog.put name definition).definitions = catalog.definitions.insert definition :=
  rfl

@[simp]
theorem put_relations (catalog : Catalog) (name : String) (definition : TypeDefinition) :
    (catalog.put name definition).relations = catalog.relations :=
  rfl

@[simp]
theorem find?_put (catalog : Catalog) (name other : String) (definition : TypeDefinition) :
    (catalog.put name definition).find? other =
      if name = other then some definition else catalog.find? other :=
  OrderedMap.find?_insert catalog.registrations name other definition

@[simp]
theorem relate_definitions (catalog : Catalog) (relation : Relation) :
    (catalog.relate relation).definitions = catalog.definitions :=
  rfl

@[simp]
theorem relate_relations (catalog : Catalog) (relation : Relation) :
    (catalog.relate relation).relations = catalog.relations.insert relation :=
  rfl

@[simp]
theorem find?_relate (catalog : Catalog) (relation : Relation) (name : String) :
    (catalog.relate relation).find? name = catalog.find? name :=
  rfl

theorem relate_of_mem {catalog : Catalog} {relation : Relation}
    (present : relation ∈ catalog.relations) : catalog.relate relation = catalog := by
  unfold relate
  rw [OrderedSet.insert_of_mem present]

theorem holdsOther_eq_false_iff {catalog : Catalog} {name : String} {definition : TypeDefinition} :
    catalog.holdsOther name definition = false ↔
      ∀ current, catalog.find? name = some current → current = definition := by
  unfold holdsOther
  cases catalog.find? name with
  | none => simp
  | some current => simp

/-- Entering a definition puts it under its name; it is refused only with strict names, and then
exactly when the name stands for something else. -/
theorem enter_eq (catalog : Catalog) (strictNames : Bool) (name : String)
    (definition : TypeDefinition) :
    catalog.enter strictNames name definition =
      if strictNames && catalog.holdsOther name definition then .error ⟨name, ⟨name⟩⟩
      else .ok (catalog.put name definition) := by
  cases strictNames with
  | false => simp [enter, put]
  | true =>
    simp only [enter, registerNew, holdsOther, Bool.true_and, if_true]
    cases found : catalog.find? name with
    | none => simp [put]
    | some current =>
      by_cases same : current = definition
      · subst same
        have kept : catalog.register name current = catalog := by
          unfold register
          rw [OrderedMap.insert_of_find? found]
        simp [put, kept]
      · simp [same]

end Catalog

def Finding.enters (catalog : Catalog) : Finding → Catalog
  | .skipped _ => catalog
  | .related relation => catalog.relate relation
  | .choice container declared =>
    (catalog.put declared.name (.ofChoice declared)).relate
      ⟨.encapsulates, .named container, .named declared.name⟩
  | .composite name fields =>
    catalog.put name (.ofStructure ⟨name, catalog.properties fields⟩)

def Finding.registration? (catalog : Catalog) : Finding → Option (String × TypeDefinition)
  | .skipped _ => none
  | .related _ => none
  | .choice _ declared => some (declared.name, .ofChoice declared)
  | .composite name fields => some (name, .ofStructure ⟨name, catalog.properties fields⟩)

def Finding.relation? : Finding → Option Relation
  | .skipped _ => none
  | .related relation => some relation
  | .choice container declared => some ⟨.encapsulates, .named container, .named declared.name⟩
  | .composite _ _ => none

def Finding.name? : Finding → Option String
  | .skipped _ => none
  | .related _ => none
  | .choice _ declared => some declared.name
  | .composite name _ => some name

def Finding.conflicts (catalog : Catalog) (finding : Finding) : Bool :=
  (finding.registration? catalog).any fun (name, definition) => catalog.holdsOther name definition

namespace Finding

@[simp]
theorem conflicts_skipped (catalog : Catalog) (reason : SkipReason) :
    (skipped reason).conflicts catalog = false :=
  rfl

@[simp]
theorem conflicts_related (catalog : Catalog) (relation : Relation) :
    (related relation).conflicts catalog = false :=
  rfl

@[simp]
theorem conflicts_choice (catalog : Catalog) (container : String) (declared : ChoiceType) :
    (choice container declared).conflicts catalog =
      catalog.holdsOther declared.name (.ofChoice declared) :=
  rfl

@[simp]
theorem conflicts_composite (catalog : Catalog) (name : String) (fields : List Field) :
    (composite name fields).conflicts catalog =
      catalog.holdsOther name (.ofStructure ⟨name, catalog.properties fields⟩) :=
  rfl

theorem mem_relations_enters {catalog : Catalog} {finding : Finding} {relation : Relation} :
    relation ∈ (finding.enters catalog).relations ↔
      relation ∈ catalog.relations ∨ finding.relation? = some relation := by
  cases finding with
  | skipped reason => simp [enters, relation?]
  | related stated => simp [enters, relation?, eq_comm]
  | choice container declared => simp [enters, relation?, eq_comm]
  | composite name fields => simp [enters, relation?]

theorem mem_relations_foldl {findings : List Finding} {catalog : Catalog} {relation : Relation} :
    relation ∈ (findings.foldl enters catalog).relations ↔
      relation ∈ catalog.relations ∨ ∃ finding ∈ findings, finding.relation? = some relation := by
  induction findings generalizing catalog with
  | nil => simp
  | cons finding rest ih =>
    rw [List.foldl_cons, ih, mem_relations_enters]
    simp [or_assoc]

theorem mem_definitions_enters {catalog : Catalog} {finding : Finding} {definition : TypeDefinition}
    (member : definition ∈ catalog.definitions) :
    definition ∈ (finding.enters catalog).definitions := by
  cases finding with
  | skipped reason => exact member
  | related relation => exact member
  | choice container declared => exact OrderedSet.mem_insert.mpr (.inl member)
  | composite name fields => exact OrderedSet.mem_insert.mpr (.inl member)

/-- No definition is ever lost. -/
theorem mem_definitions_foldl {findings : List Finding} {catalog : Catalog}
    {definition : TypeDefinition} (member : definition ∈ catalog.definitions) :
    definition ∈ (findings.foldl enters catalog).definitions := by
  induction findings generalizing catalog with
  | nil => exact member
  | cons finding rest ih => exact ih (mem_definitions_enters member)

theorem find?_enters_of_ne {catalog : Catalog} {finding : Finding} {name : String}
    (other : finding.name? ≠ some name) :
    (finding.enters catalog).find? name = catalog.find? name := by
  cases finding with
  | skipped reason => rfl
  | related relation => rfl
  | choice container declared =>
    have differs : declared.name ≠ name := fun same => other (by rw [name?, same])
    simp [enters, differs]
  | composite own fields =>
    have differs : own ≠ name := fun same => other (by rw [name?, same])
    simp [enters, differs]

/-- A name keeps its meaning as long as no finding registers it. -/
theorem find?_foldl_of_ne {findings : List Finding} {catalog : Catalog} {name : String}
    (others : ∀ finding ∈ findings, finding.name? ≠ some name) :
    (findings.foldl enters catalog).find? name = catalog.find? name := by
  induction findings generalizing catalog with
  | nil => rfl
  | cons finding rest ih =>
    rw [List.foldl_cons, ih fun later member => others later (List.mem_cons_of_mem _ member)]
    exact find?_enters_of_ne (others finding List.mem_cons_self)

end Finding

namespace ExtractionRun

theorem relate_catalog (run : ExtractionRun) (relation : Relation) :
    (run.relate relation).catalog = run.catalog.relate relation := by
  unfold relate
  split
  · next present => exact (Catalog.relate_of_mem present).symm
  · rfl

theorem enter_ok {run next : ExtractionRun} {strictNames : Bool} {name : String}
    {definition : TypeDefinition} (entered : run.enter strictNames name definition = .ok next) :
    next.catalog = run.catalog.put name definition ∧
      (strictNames && run.catalog.holdsOther name definition) = false := by
  unfold enter at entered
  rw [Catalog.enter_eq] at entered
  cases refused : strictNames && run.catalog.holdsOther name definition with
  | true => simp [refused] at entered
  | false =>
    simp only [refused, Bool.false_eq_true, if_false, Except.ok.injEq] at entered
    refine ⟨?_, rfl⟩
    rw [← entered]
    split <;> rfl

theorem enter_error {run : ExtractionRun} {strictNames : Bool} {name : String}
    {definition : TypeDefinition} {fault : RegistrationFault}
    (refused : run.enter strictNames name definition = .error fault) : strictNames = true := by
  unfold enter at refused
  rw [Catalog.enter_eq] at refused
  cases strictNames with
  | true => rfl
  | false => simp at refused

/-- A finding that is accepted makes its change, and with strict names it is no conflict. -/
theorem record_ok {run next : ExtractionRun} {strictNames : Bool} {finding : Finding}
    (recorded : run.record strictNames finding = .ok next) :
    next.catalog = finding.enters run.catalog ∧
      (strictNames && finding.conflicts run.catalog) = false := by
  cases finding with
  | skipped reason =>
    cases recorded
    simp [note, Finding.enters]
  | related relation =>
    cases recorded
    simp [relate_catalog, Finding.enters]
  | choice container choice =>
    simp only [record] at recorded
    cases entered : run.enter strictNames choice.name (.ofChoice choice) with
    | error fault => simp [entered] at recorded
    | ok between =>
      simp only [entered, Except.ok.injEq] at recorded
      obtain ⟨put, accepted⟩ := enter_ok entered
      subst recorded
      constructor
      · simp only [enterChoice, note, relate_catalog, put, Finding.enters]
      · simpa using accepted
  | composite name fields =>
    simp only [record] at recorded
    split at recorded
    · next between entered =>
      obtain ⟨put, accepted⟩ := enter_ok entered
      cases recorded
      constructor
      · simp only [enterStructure, note, put, Finding.enters]
      · simpa using accepted
    · cases recorded

theorem record_error {run : ExtractionRun} {strictNames : Bool} {finding : Finding}
    {fault : RegistrationFault} (refused : run.record strictNames finding = .error fault) :
    strictNames = true := by
  cases finding with
  | skipped reason => cases refused
  | related relation => cases refused
  | choice container choice =>
    simp only [record] at refused
    split at refused
    · cases refused
    · next failed => exact enter_error failed
  | composite name fields =>
    simp only [record] at refused
    split at refused
    · cases refused
    · next failed => exact enter_error failed

/-- What every accepted change keeps, a whole run keeps, whether it is stopped or not. -/
theorem follow_keeps {strictNames : Bool} (Holds : Catalog → Prop) {findings : List Finding}
    (step : ∀ finding ∈ findings, ∀ catalog, Holds catalog →
      (strictNames && finding.conflicts catalog) = false → Holds (finding.enters catalog))
    {run : ExtractionRun} (holds : Holds run.catalog) :
    Holds (run.follow strictNames findings).1.catalog := by
  induction findings generalizing run with
  | nil => exact holds
  | cons finding rest ih =>
    simp only [follow]
    split
    · next next recorded =>
      obtain ⟨change, accepted⟩ := record_ok recorded
      apply ih (fun later member => step later (List.mem_cons_of_mem _ member))
      rw [change]
      exact step finding List.mem_cons_self _ holds accepted
    · exact holds

/-- Without strict names nothing is refused, and the changes follow one another. -/
theorem follow_free (run : ExtractionRun) (findings : List Finding) :
    (run.follow false findings).2 = none ∧
      (run.follow false findings).1.catalog = findings.foldl Finding.enters run.catalog := by
  induction findings generalizing run with
  | nil => exact ⟨rfl, rfl⟩
  | cons finding rest ih =>
    simp only [follow]
    split
    · next next recorded =>
      rw [List.foldl_cons, ← (record_ok recorded).1]
      exact ih next
    · next fault refused => exact absurd (record_error refused) (by decide)

end ExtractionRun

namespace Extraction

theorem catalog_ofRun (outcome : ExtractionRun × Option RegistrationFault) :
    (ofRun outcome).catalog = outcome.1.catalog := by
  obtain ⟨run, fault⟩ := outcome
  cases fault <;> rfl

/-- The catalog after a run without strict names. -/
theorem catalog_ofDeclarations_free {options : ExtractionOptions} (free : options.strictNames = false)
    (catalog : Catalog) (declarations : List Declaration) :
    (ofDeclarations options catalog declarations).catalog =
      (findingsOf options declarations).foldl Finding.enters catalog := by
  unfold ofDeclarations
  rw [catalog_ofRun, free]
  exact (ExtractionRun.follow_free { catalog } _).2

theorem result_ofDeclarations_free {options : ExtractionOptions} (free : options.strictNames = false)
    (catalog : Catalog) (declarations : List Declaration) :
    ∃ tally, (ofDeclarations options catalog declarations).result = .ok tally := by
  have faultless := (ExtractionRun.follow_free { catalog } (findingsOf options declarations)).1
  unfold ofDeclarations
  rw [free]
  generalize ExtractionRun.follow false { catalog } (findingsOf options declarations) = outcome
    at faultless
  obtain ⟨run, fault⟩ := outcome
  obtain rfl : fault = none := faultless
  exact ⟨run.tally, rfl⟩

end Extraction
end SwiftLens
