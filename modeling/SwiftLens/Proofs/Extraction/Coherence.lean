import SwiftLens.Proofs.Extraction.Steps
import SwiftLens.SourceFile

namespace SwiftLens

inductive ExtractionCall
  | convert (options : ExtractionOptions) (file : SourceFile)
  | visit (options : ExtractionOptions) (declaration : Declaration)

namespace ExtractionCall

def options : ExtractionCall → ExtractionOptions
  | convert options _ => options
  | visit options _ => options

def declarations : ExtractionCall → List Declaration
  | convert _ file => file.declarations
  | visit _ declaration => [declaration]

def run (call : ExtractionCall) (catalog : Catalog) : Extraction :=
  Extraction.ofDeclarations call.options catalog call.declarations

end ExtractionCall

namespace Catalog

def afterCalls (catalog : Catalog) (calls : List ExtractionCall) : Catalog :=
  calls.foldl (fun current call => (call.run current).catalog) catalog

/-- Definitions, registrations and relations speak of the same types. -/
structure Coherent (catalog : Catalog) : Prop where
  definitions_nodup : catalog.definitions.toList.Nodup
  declared : ∀ definition ∈ catalog.definitions,
    (∃ described, definition = .ofStructure described) ∨ ∃ described, definition = .ofChoice described
  registered : ∀ name definition, catalog.find? name = some definition →
    definition.name? = some name ∧ definition ∈ catalog.definitions
  named : ∀ definition ∈ catalog.definitions,
    ∃ name ∈ catalog.registrations.keys, definition.name? = some name
  endpoints : ∀ relation ∈ catalog.relations,
    ∃ left right, relation.left = .named left ∧ relation.right = .named right
  members : ∀ container member, ⟨.encapsulates, container, .named member⟩ ∈ catalog.relations →
    ∃ described : ChoiceType, described.name = member ∧ .ofChoice described ∈ catalog.definitions

structure ListsRegistered (catalog : Catalog) : Prop where
  nodup : catalog.currentTypes.Nodup
  values : catalog.currentTypes.Perm (catalog.registrations.values.map .defined)
  names : (catalog.currentTypes.map SemanticType.text).Perm catalog.registrations.keys

def NamesApart (catalog : Catalog) : Prop :=
  ∀ first ∈ catalog.definitions, ∀ second ∈ catalog.definitions,
    first.name? = second.name? → first = second

structure Unambiguous (catalog : Catalog) : Prop where
  registered_iff : ∀ definition,
    definition ∈ catalog.definitions ↔ definition ∈ catalog.registrations.values
  namesApart : catalog.NamesApart

theorem coherent_empty : Coherent empty where
  definitions_nodup := List.nodup_nil
  declared _ member := nomatch member
  registered _ _ found := nomatch found
  named _ member := nomatch member
  endpoints _ member := nomatch member
  members _ _ member := nomatch member

theorem declared_of_name? {definition : TypeDefinition} {name : String}
    (named : definition.name? = some name) :
    (∃ described, definition = .ofStructure described) ∨
      ∃ described, definition = .ofChoice described := by
  cases definition with
  | ofStructure described => exact .inl ⟨described, rfl⟩
  | ofChoice described => exact .inr ⟨described, rfl⟩
  | optional wrapped => simp [Definition.name?] at named

theorem Coherent.put {catalog : Catalog} (coherent : catalog.Coherent) {name : String}
    {definition : TypeDefinition} (named : definition.name? = some name) :
    (catalog.put name definition).Coherent where
  definitions_nodup := (catalog.put name definition).definitions.nodup
  declared other member := by
    rcases OrderedSet.mem_insert.mp member with member | rfl
    · exact coherent.declared other member
    · exact declared_of_name? named
  registered other found stands := by
    rw [find?_put] at stands
    split at stands
    · next same =>
      subst same
      obtain rfl := Option.some.inj stands
      exact ⟨named, OrderedSet.mem_insert.mpr (.inr rfl)⟩
    · obtain ⟨ownName, member⟩ := coherent.registered other found stands
      exact ⟨ownName, OrderedSet.mem_insert.mpr (.inl member)⟩
  named other member := by
    have kept : ∀ key, key ∈ catalog.registrations.keys ∨ key = name →
        key ∈ (catalog.registrations.insert name definition).keys := by
      intro key present
      rw [OrderedMap.keys_insert]
      split <;> grind
    rcases OrderedSet.mem_insert.mp member with member | rfl
    · obtain ⟨key, present, ownName⟩ := coherent.named other member
      exact ⟨key, kept key (.inl present), ownName⟩
    · exact ⟨name, kept name (.inr rfl), named⟩
  endpoints := coherent.endpoints
  members container member related := by
    obtain ⟨described, ownName, found⟩ := coherent.members container member related
    exact ⟨described, ownName, OrderedSet.mem_insert.mpr (.inl found)⟩

theorem Coherent.relate {catalog : Catalog} (coherent : catalog.Coherent) {relation : Relation}
    (endpoints : ∃ left right, relation.left = .named left ∧ relation.right = .named right)
    (members : ∀ container member, relation = ⟨.encapsulates, container, .named member⟩ →
      ∃ described : ChoiceType, described.name = member ∧
        .ofChoice described ∈ catalog.definitions) :
    (catalog.relate relation).Coherent where
  definitions_nodup := coherent.definitions_nodup
  declared := coherent.declared
  registered := coherent.registered
  named := coherent.named
  endpoints other member := by
    rcases OrderedSet.mem_insert.mp member with member | rfl
    · exact coherent.endpoints other member
    · exact endpoints
  members container member related := by
    rcases OrderedSet.mem_insert.mp related with related | same
    · exact coherent.members container member related
    · exact members container member same.symm

section Consequences

variable {catalog : Catalog} (coherent : catalog.Coherent)

include coherent

theorem Coherent.isSuperseded_eq_false_iff {definition : TypeDefinition}
    (member : definition ∈ catalog.definitions) :
    catalog.isSuperseded definition = false ↔ ∃ name, catalog.find? name = some definition := by
  obtain ⟨name, present, ownName⟩ := coherent.named definition member
  obtain ⟨current, stands⟩ := OrderedMap.mem_keys_iff.mp present
  have looked : definition.name?.bind catalog.find? = some current := by
    rw [ownName]
    exact stands
  have exact_iff : catalog.isSuperseded definition = false ↔ current = definition := by
    simp [isSuperseded, looked]
  rw [exact_iff]
  constructor
  · rintro rfl
    exact ⟨name, stands⟩
  · rintro ⟨other, found⟩
    have sameName : some other = some name :=
      (coherent.registered other definition found).1.symm.trans ownName
    obtain rfl := Option.some.inj sameName
    exact Option.some.inj (stands.symm.trans found)

theorem Coherent.mem_currentDefinitions_iff {definition : TypeDefinition} :
    definition ∈ catalog.currentDefinitions ↔ definition ∈ catalog.registrations.values := by
  simp only [currentDefinitions, List.mem_filter, Bool.not_eq_true', OrderedMap.mem_values_iff]
  constructor
  · rintro ⟨member, current⟩
    exact (coherent.isSuperseded_eq_false_iff member).mp current
  · rintro ⟨name, found⟩
    have member := (coherent.registered name definition found).2
    exact ⟨member, (coherent.isSuperseded_eq_false_iff member).mpr ⟨name, found⟩⟩

theorem Coherent.text_of_entry {entry : String × TypeDefinition}
    (listed : entry ∈ catalog.registrations.entries) :
    SemanticType.text (.defined entry.2) = entry.1 := by
  have found : catalog.find? entry.1 = some entry.2 := OrderedMap.find?_eq_some_iff_mem.mpr listed
  have ownName := (coherent.registered entry.1 entry.2 found).1
  cases described : entry.2 <;> simp_all [Definition.name?, SemanticType.text]

theorem Coherent.texts_of_values :
    (catalog.registrations.values.map SemanticType.defined).map SemanticType.text =
      catalog.registrations.keys := by
  simp only [OrderedMap.values, OrderedMap.keys, List.map_map]
  exact List.map_congr_left fun entry listed => coherent.text_of_entry listed

theorem Coherent.values_nodup : catalog.registrations.values.Nodup := by
  have keys : (catalog.registrations.values.map fun definition =>
      SemanticType.text (.defined definition)).Nodup := by
    have texts := coherent.texts_of_values
    rw [List.map_map] at texts
    exact texts ▸ catalog.registrations.nodup
  exact List.Pairwise.imp (fun differs same => differs (by rw [same])) (List.pairwise_map.mp keys)

theorem Coherent.listsRegistered : catalog.ListsRegistered := by
  have current : catalog.currentDefinitions.Nodup :=
    coherent.definitions_nodup.sublist List.filter_sublist
  have values : catalog.currentDefinitions.Perm catalog.registrations.values :=
    (List.perm_ext_iff_of_nodup current coherent.values_nodup).mpr fun _ =>
      coherent.mem_currentDefinitions_iff
  refine ⟨?_, values.map _, ?_⟩
  · exact List.pairwise_map.mpr (current.imp fun differs same => differs (by cases same; rfl))
  · rw [← coherent.texts_of_values]
    exact (values.map _).map _

/-- Putting a definition whose name is free or its own keeps names apart. -/
theorem Coherent.namesApart_put (apart : catalog.NamesApart) {name : String}
    {definition : TypeDefinition} (named : definition.name? = some name)
    (free : catalog.holdsOther name definition = false) :
    (catalog.put name definition).NamesApart := by
  have only : ∀ other ∈ catalog.definitions, other.name? = some name → other = definition := by
    intro other member ownName
    obtain ⟨key, present, keyName⟩ := coherent.named other member
    obtain rfl := Option.some.inj (keyName.symm.trans ownName)
    obtain ⟨current, stands⟩ := OrderedMap.mem_keys_iff.mp present
    obtain ⟨currentName, currentMember⟩ := coherent.registered key current stands
    rw [apart other member current currentMember (ownName.trans currentName.symm)]
    exact holdsOther_eq_false_iff.mp free current stands
  intro first firstMember second secondMember sameName
  rcases OrderedSet.mem_insert.mp firstMember with firstMember | rfl
  · rcases OrderedSet.mem_insert.mp secondMember with secondMember | rfl
    · exact apart first firstMember second secondMember sameName
    · exact only first firstMember (sameName.trans named)
  · rcases OrderedSet.mem_insert.mp secondMember with secondMember | rfl
    · exact (only second secondMember (sameName.symm.trans named)).symm
    · rfl

theorem Coherent.unambiguous (apart : catalog.NamesApart) : catalog.Unambiguous where
  registered_iff definition := by
    rw [OrderedMap.mem_values_iff]
    constructor
    · intro member
      obtain ⟨name, present, ownName⟩ := coherent.named definition member
      obtain ⟨current, stands⟩ := OrderedMap.mem_keys_iff.mp present
      obtain ⟨currentName, currentMember⟩ := coherent.registered name current stands
      obtain rfl := apart current currentMember definition member (currentName.trans ownName.symm)
      exact ⟨name, stands⟩
    · rintro ⟨name, found⟩
      exact (coherent.registered name definition found).2
  namesApart := apart

end Consequences
end Catalog

/-- A relation that a finding states on its own names both sides and encloses nothing. -/
def Finding.Plain : Finding → Prop
  | .related relation => relation.kind ≠ .encapsulates ∧
      ∃ left right, relation.left = .named left ∧ relation.right = .named right
  | _ => True

theorem Composite.plain_of_mem_findings {options : ExtractionOptions}
    {declared : Composite Declaration} {finding : Finding}
    (found : finding ∈ declared.findings options) : finding.Plain := by
  unfold Composite.findings at found
  cases finding with
  | skipped reason => exact trivial
  | choice container described => exact trivial
  | composite name fields => exact trivial
  | related relation =>
    split at found
    · split at found
      · simp at found
      · split at found
        · next name _ _ =>
          simp only [List.mem_append, List.mem_map, List.mem_singleton, Finding.related.injEq,
            reduceCtorEq, and_false, exists_false, or_false, exists_eq_right] at found
          generalize declared.supertypeNames = supertypes at found
          cases supertypes with
          | nil => simp [supertypeRelations] at found
          | cons first later =>
            simp only [supertypeRelations, List.mem_cons, List.mem_map] at found
            rcases found with rfl | ⟨supertype, _, rfl⟩ <;> simp [Finding.Plain]
        · simp at found
    · simp at found

theorem plain_of_mem_findingsOf {options : ExtractionOptions} {declarations : List Declaration}
    {finding : Finding} (found : finding ∈ findingsOf options declarations) : finding.Plain := by
  obtain ⟨declaration, _, found⟩ := List.mem_flatMap.mp found
  cases declaration with
  | composite declared => exact Composite.plain_of_mem_findings found
  | _ => simp [Declaration.findings] at found

theorem Catalog.Coherent.enters {catalog : Catalog} (coherent : catalog.Coherent) {finding : Finding}
    (plain : finding.Plain) : (finding.enters catalog).Coherent := by
  cases finding with
  | skipped reason => exact coherent
  | related relation =>
    obtain ⟨outside, endpoints⟩ := plain
    refine coherent.relate endpoints ?_
    rintro container member rfl
    exact absurd rfl outside
  | choice container described =>
    have put : (catalog.put described.name (.ofChoice described)).Coherent := coherent.put rfl
    refine put.relate ⟨container, described.name, rfl, rfl⟩ ?_
    intro _ member same
    obtain rfl : described.name = member := by simpa using congrArg Relation.right same
    exact ⟨described, rfl, OrderedSet.mem_insert.mpr (.inr rfl)⟩
  | composite name fields => exact coherent.put rfl

theorem Catalog.Coherent.namesApart_enters {catalog : Catalog} (coherent : catalog.Coherent)
    (apart : catalog.NamesApart) {finding : Finding} (free : finding.conflicts catalog = false) :
    (finding.enters catalog).NamesApart := by
  cases finding with
  | skipped reason => exact apart
  | related relation => exact apart
  | choice container described =>
    rw [Finding.conflicts_choice] at free
    exact coherent.namesApart_put apart rfl free
  | composite name fields =>
    rw [Finding.conflicts_composite] at free
    exact coherent.namesApart_put apart rfl free

namespace ExtractionCall

theorem run_coherent (call : ExtractionCall) {catalog : Catalog} (coherent : catalog.Coherent) :
    (call.run catalog).catalog.Coherent := by
  unfold run Extraction.ofDeclarations
  rw [Extraction.catalog_ofRun]
  refine ExtractionRun.follow_keeps Catalog.Coherent ?_ coherent
  intro finding found current coherent _
  exact coherent.enters (plain_of_mem_findingsOf found)

theorem run_namesApart {call : ExtractionCall} (strict : call.options.strictNames = true)
    {catalog : Catalog} (coherent : catalog.Coherent) (apart : catalog.NamesApart) :
    (call.run catalog).catalog.NamesApart := by
  unfold run Extraction.ofDeclarations
  rw [Extraction.catalog_ofRun, strict]
  refine (ExtractionRun.follow_keeps (fun current => current.Coherent ∧ current.NamesApart) ?_
    ⟨coherent, apart⟩).2
  rintro finding found current ⟨coherent, apart⟩ accepted
  exact ⟨coherent.enters (plain_of_mem_findingsOf found),
    coherent.namesApart_enters apart (by simpa using accepted)⟩

end ExtractionCall

namespace Catalog

theorem Coherent.afterCalls {catalog : Catalog} (coherent : catalog.Coherent)
    (calls : List ExtractionCall) : (catalog.afterCalls calls).Coherent := by
  induction calls generalizing catalog with
  | nil => exact coherent
  | cons call rest ih => exact ih (call.run_coherent coherent)

theorem Coherent.namesApart_afterCalls {catalog : Catalog} (coherent : catalog.Coherent)
    (apart : catalog.NamesApart) {calls : List ExtractionCall}
    (strict : ∀ call ∈ calls, call.options.strictNames = true) :
    (catalog.afterCalls calls).NamesApart := by
  induction calls generalizing catalog with
  | nil => exact apart
  | cons call rest ih =>
    have strictHere := strict call List.mem_cons_self
    exact ih (call.run_coherent coherent) (ExtractionCall.run_namesApart strictHere coherent apart)
      fun later member => strict later (List.mem_cons_of_mem _ member)

/-- Calls of any kind on one catalog leave it coherent, and calls with strict names only leave one
definition for each name. -/
theorem afterCalls_coherent (calls : List ExtractionCall) :
    (empty.afterCalls calls).Coherent ∧ (empty.afterCalls calls).ListsRegistered ∧
      ((∀ call ∈ calls, call.options.strictNames = true) →
        (empty.afterCalls calls).Unambiguous) := by
  have coherent : (empty.afterCalls calls).Coherent := coherent_empty.afterCalls calls
  refine ⟨coherent, coherent.listsRegistered, ?_⟩
  intro strict
  have apart : (empty.afterCalls calls).NamesApart :=
    coherent_empty.namesApart_afterCalls (fun _ member => nomatch member) strict
  exact coherent.unambiguous apart

end Catalog
end SwiftLens
