import SwiftLens.Proofs.Extraction.Coherence
import SwiftLens.Proofs.Extraction.Journal

namespace SwiftLens

namespace Extraction

def names (extraction : Extraction) : List String :=
  match extraction.result with
  | .ok tally => tally.structures ++ tally.choices
  | .error _ => []

def choiceNames (extraction : Extraction) : List String :=
  match extraction.result with
  | .ok tally => tally.choices
  | .error _ => []

end Extraction

def fieldWords (options : ExtractionOptions) (declarations : List Declaration) : List String :=
  (findingsOf options declarations).flatMap Finding.fieldWords

namespace Finding

theorem name?_iff {finding : Finding} {name : String} :
    finding.name? = some name ↔
      finding.structureName? = some name ∨ finding.choiceName? = some name := by
  cases finding <;> simp [name?, structureName?, choiceName?]

theorem name?_of_mem_journal {findings : List Finding} {catalog : Catalog}
    {entry : String × TypeDefinition} (written : entry ∈ catalog.journal findings) :
    ∃ finding ∈ findings, finding.name? = some entry.1 := by
  have listed : entry.1 ∈ (catalog.journal findings).map Prod.fst := List.mem_map_of_mem written
  rw [catalog.names_journal] at listed
  exact List.mem_filterMap.mp listed

theorem find?_journal_of_ne {findings : List Finding} {name : String}
    (unregistered : ∀ finding ∈ findings, finding.name? ≠ some name) (catalog : Catalog) :
    Entries.find? name (catalog.journal findings).reverse = none := by
  apply Entries.find?_of_not_mem
  intro listed
  obtain ⟨entry, written, rfl⟩ := List.mem_map.mp listed
  obtain ⟨finding, member, named⟩ := name?_of_mem_journal (List.mem_reverse.mp written)
  exact unregistered finding member named

section Commuting

variable {left right : List Finding} {catalog : Catalog}
  (leftAlike : SeenAlike left (right.foldl enters catalog) catalog)
  (rightAlike : SeenAlike right (left.foldl enters catalog) catalog)

include leftAlike rightAlike

theorem definitions_foldl_comm {definition : TypeDefinition} :
    definition ∈ (right.foldl enters (left.foldl enters catalog)).definitions ↔
      definition ∈ (left.foldl enters (right.foldl enters catalog)).definitions := by
  rw [definitions_foldl, definitions_foldl, definitions_foldl, definitions_foldl,
    Catalog.journal_congr leftAlike, Catalog.journal_congr rightAlike]
  simp only [OrderedSet.mem_insertAll]
  exact or_right_comm

theorem find?_foldl_comm (apart : ∀ first ∈ left, ∀ second ∈ right, ∀ name,
      first.name? = some name → second.name? ≠ some name) (name : String) :
    (right.foldl enters (left.foldl enters catalog)).find? name =
      (left.foldl enters (right.foldl enters catalog)).find? name := by
  rw [find?_foldl, find?_foldl, find?_foldl, find?_foldl, Catalog.journal_congr leftAlike,
    Catalog.journal_congr rightAlike]
  by_cases registered : ∃ first ∈ left, first.name? = some name
  · obtain ⟨first, member, named⟩ := registered
    have unregistered : ∀ second ∈ right, second.name? ≠ some name :=
      fun second other => apart first member second other name named
    rw [find?_journal_of_ne unregistered, Option.none_or, Option.none_or]
  · have unregistered : ∀ first ∈ left, first.name? ≠ some name :=
      fun first member named => registered ⟨first, member, named⟩
    rw [find?_journal_of_ne unregistered, Option.none_or, Option.none_or]

end Commuting

theorem relations_foldl_comm {left right : List Finding} {catalog : Catalog} {relation : Relation} :
    relation ∈ (right.foldl enters (left.foldl enters catalog)).relations ↔
      relation ∈ (left.foldl enters (right.foldl enters catalog)).relations := by
  simp only [mem_relations_foldl]
  exact or_right_comm

end Finding

theorem mem_names_free {options : ExtractionOptions} (free : options.strictNames = false)
    {catalog : Catalog} {declarations : List Declaration} {name : String} :
    name ∈ (Extraction.ofDeclarations options catalog declarations).names ↔
      ∃ finding ∈ findingsOf options declarations, finding.name? = some name := by
  simp only [Extraction.names, Extraction.result_free free, List.mem_append, List.mem_filterMap,
    Finding.name?_iff, and_or_left, exists_or]

theorem mem_choiceNames_free {options : ExtractionOptions} (free : options.strictNames = false)
    {catalog : Catalog} {declarations : List Declaration} {name : String} :
    name ∈ (Extraction.ofDeclarations options catalog declarations).choiceNames ↔
      ∃ finding ∈ findingsOf options declarations, finding.choiceName? = some name := by
  simp only [Extraction.choiceNames, Extraction.result_free free, List.mem_filterMap]

/-- A stated relation leaves a composite that the same declarations register. -/
theorem statedRelations_left {options : ExtractionOptions} {declarations : List Declaration}
    {relation : Relation} (stated : relation ∈ statedRelations (findingsOf options declarations)) :
    ∃ name, relation.left = .named name ∧
      ∃ finding ∈ findingsOf options declarations, finding.name? = some name := by
  obtain ⟨finding, found, states⟩ := mem_statedRelations.mp stated
  have entered : ∀ reason, finding ≠ .skipped reason := by
    intro reason isSkipped
    rw [isSkipped] at states
    cases states
  obtain ⟨outer, name, listed, visited, inside⟩ := (mem_findingsOf_iff entered).mp found
  have leaves : relation.left = .named name := by
    rw [Composite.findings_of_visited visited] at inside
    simp only [List.mem_append, List.mem_map, List.mem_singleton] at inside
    rcases inside with (⟨supertype, isSupertype, rfl⟩ | ⟨choice, -, rfl⟩) | rfl
    · obtain rfl := Option.some.inj states
      generalize outer.supertypeNames = supertypes at isSupertype
      cases supertypes with
      | nil => cases isSupertype
      | cons first later =>
        simp only [Composite.supertypeRelations, List.mem_cons, List.mem_map] at isSupertype
        rcases isSupertype with rfl | ⟨other, -, rfl⟩
        · rfl
        · rfl
    · obtain rfl := Option.some.inj states
      rfl
    · cases states
  have registered := registers_iff.mpr ⟨outer, name, listed, visited, .inl rfl⟩
  exact ⟨name, leaves, registered⟩

namespace Extraction

section Two

variable {options : ExtractionOptions} (free : options.strictNames = false) {catalog : Catalog}
  {left right : List Declaration}

include free

/-- A run is not concerned by one that registers other names. -/
theorem result_after
    (apart : ∀ name ∈ (ofDeclarations options catalog left).names,
      name ∉ (ofDeclarations options catalog right).names) :
    (ofDeclarations options (ofDeclarations options catalog right).catalog left).result =
      (ofDeclarations options catalog left).result := by
  have unstated : ∀ relation ∈ statedRelations (findingsOf options left),
      relation ∉ statedRelations (findingsOf options right) := by
    intro relation here there
    obtain ⟨name, leaves, registered⟩ := statedRelations_left here
    obtain ⟨other, leavesToo, registeredToo⟩ := statedRelations_left there
    obtain rfl : name = other := SemanticType.named.inj (leaves.symm.trans leavesToo)
    exact apart name ((mem_names_free free).mpr registered) ((mem_names_free free).mpr registeredToo)
  have count : ((findingsOf options right).foldl Finding.enters catalog).relations.countNew
      (statedRelations (findingsOf options left)) =
        catalog.relations.countNew (statedRelations (findingsOf options left)) := by
    apply OrderedSet.countNew_congr
    intro relation stated
    rw [Finding.relations_foldl, OrderedSet.mem_insertAll, or_iff_left (unstated relation stated)]
  rw [result_free free, result_free free, catalog_ofDeclarations_free free, count]

theorem seenAlike_after
    (unread : ∀ word ∈ fieldWords options left,
      word ∉ (ofDeclarations options catalog right).choiceNames) :
    SeenAlike (findingsOf options left)
      ((findingsOf options right).foldl Finding.enters catalog) catalog := by
  intro finding found word read container
  rw [Finding.mem_relations_foldl]
  apply or_iff_left
  intro stated
  obtain ⟨other, foundToo, states⟩ := stated
  have enclosed : other.choiceName? = some word := by
    cases other with
    | skipped reason => cases states
    | related relation =>
      have plain := plain_of_mem_findingsOf foundToo
      obtain rfl := Option.some.inj states
      exact absurd rfl plain.1
    | choice outer declared =>
      have same := congrArg Relation.right (Option.some.inj states)
      exact congrArg some (SemanticType.named.inj same)
    | composite name fields => cases states
  have listed : word ∈ fieldWords options left := List.mem_flatMap.mpr ⟨finding, found, read⟩
  exact unread word listed ((mem_choiceNames_free free).mpr ⟨other, foundToo, enclosed⟩)

end Two

/-- The order of two files does not show if they register different names and no field of one is
declared with a choice of the other. -/
theorem independent_files_commute {options : ExtractionOptions} (free : options.strictNames = false)
    (catalog : Catalog) (left right : SourceFile)
    (apart : ∀ name ∈ (ofDeclarations options catalog left.declarations).names,
      name ∉ (ofDeclarations options catalog right.declarations).names)
    (leftUnread : ∀ word ∈ fieldWords options left.declarations,
      word ∉ (ofDeclarations options catalog right.declarations).choiceNames)
    (rightUnread : ∀ word ∈ fieldWords options right.declarations,
      word ∉ (ofDeclarations options catalog left.declarations).choiceNames) :
    let leftFirst := ofDeclarations options catalog left.declarations
    let rightSecond := ofDeclarations options leftFirst.catalog right.declarations
    let rightFirst := ofDeclarations options catalog right.declarations
    let leftSecond := ofDeclarations options rightFirst.catalog left.declarations
    (∀ name, rightSecond.catalog.find? name = leftSecond.catalog.find? name) ∧
      (∀ relation, relation ∈ rightSecond.catalog.relations ↔
        relation ∈ leftSecond.catalog.relations) ∧
      (∀ definition, definition ∈ rightSecond.catalog.definitions ↔
        definition ∈ leftSecond.catalog.definitions) ∧
      leftSecond.result = leftFirst.result ∧ rightSecond.result = rightFirst.result := by
  intro leftFirst rightSecond rightFirst leftSecond
  have leftAlike := seenAlike_after free leftUnread
  have rightAlike := seenAlike_after free rightUnread
  have apartToo : ∀ name ∈ rightFirst.names, name ∉ leftFirst.names :=
    fun name there here => apart name here there
  have names : ∀ first ∈ findingsOf options left.declarations,
      ∀ second ∈ findingsOf options right.declarations, ∀ name,
        first.name? = some name → second.name? ≠ some name := by
    intro first here second there name named namedToo
    exact apart name ((mem_names_free free).mpr ⟨first, here, named⟩)
      ((mem_names_free free).mpr ⟨second, there, namedToo⟩)
  have leftThenRight : rightSecond.catalog = (findingsOf options right.declarations).foldl
      Finding.enters ((findingsOf options left.declarations).foldl Finding.enters catalog) := by
    rw [catalog_ofDeclarations_free free, catalog_ofDeclarations_free free]
  have rightThenLeft : leftSecond.catalog = (findingsOf options left.declarations).foldl
      Finding.enters ((findingsOf options right.declarations).foldl Finding.enters catalog) := by
    rw [catalog_ofDeclarations_free free, catalog_ofDeclarations_free free]
  rw [leftThenRight, rightThenLeft]
  exact ⟨Finding.find?_foldl_comm leftAlike rightAlike names,
    fun _ => Finding.relations_foldl_comm,
    fun _ => Finding.definitions_foldl_comm leftAlike rightAlike,
    result_after free apart, result_after free apartToo⟩

def lampFile : SourceFile :=
  ⟨[.composite ⟨.structType, .none, .plain "Lamp", [], some [[⟨.plain "Device", []⟩]],
    [.letDeclaration .none
        [⟨.identifier (.plain "mode") (some (.optional (.simple "Mode"))), none⟩],
      .enumeration ⟨.none, .plain "Mode", [], none, []⟩]⟩]⟩

def meterFile : SourceFile :=
  ⟨[.composite ⟨.classType, .none, .plain "Meter", [], some [[⟨.plain "Device", []⟩]],
    [.letDeclaration .none [⟨.identifier (.plain "unit") (some (.simple "Unit")), none⟩]]⟩]⟩

theorem independent_files_commute_lamp :
    (∀ name,
        (ofDeclarations {} (ofDeclarations {} .empty lampFile.declarations).catalog
          meterFile.declarations).catalog.find? name =
        (ofDeclarations {} (ofDeclarations {} .empty meterFile.declarations).catalog
          lampFile.declarations).catalog.find? name) ∧
      (ofDeclarations {} (ofDeclarations {} .empty meterFile.declarations).catalog
        lampFile.declarations).result = .ok ⟨["Lamp"], ["Mode"], 2⟩ := by
  have free : ({} : ExtractionOptions).strictNames = false := rfl
  have apart : ∀ name ∈ (ofDeclarations {} .empty lampFile.declarations).names,
      name ∉ (ofDeclarations {} .empty meterFile.declarations).names := by decide
  have lampUnread : ∀ word ∈ fieldWords {} lampFile.declarations,
      word ∉ (ofDeclarations {} .empty meterFile.declarations).choiceNames := by decide
  have meterUnread : ∀ word ∈ fieldWords {} meterFile.declarations,
      word ∉ (ofDeclarations {} .empty lampFile.declarations).choiceNames := by decide
  obtain ⟨found, -, -, result, -⟩ :=
    independent_files_commute free .empty lampFile meterFile apart lampUnread meterUnread
  have alone : (ofDeclarations {} .empty lampFile.declarations).result =
      .ok ⟨["Lamp"], ["Mode"], 2⟩ := by decide
  exact ⟨found, result.trans alone⟩

end Extraction
end SwiftLens
