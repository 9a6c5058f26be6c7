import SwiftLens.Proofs.Extraction.Journal

namespace SwiftLens

theorem Catalog.put_of_find? {catalog : Catalog} {name : String} {definition : TypeDefinition}
    (stands : catalog.find? name = some definition) (listed : definition ∈ catalog.definitions) :
    catalog.put name definition = catalog := by
  apply ext_fields
  · exact OrderedSet.insert_of_mem listed
  · exact OrderedMap.insert_of_find? stands
  · rfl

namespace Finding

theorem relations_foldl_again (findings : List Finding) (catalog : Catalog) :
    (findings.foldl enters (findings.foldl enters catalog)).relations =
      (findings.foldl enters catalog).relations := by
  rw [relations_foldl]
  apply OrderedSet.insertAll_of_mem
  intro relation stated
  rw [relations_foldl]
  exact OrderedSet.mem_insertAll.mpr (.inr stated)

/-- Once the relations are there, entering the findings twice is entering them once. -/
theorem foldl_enters_twice {findings : List Finding} {catalog : Catalog}
    (related : (findings.foldl enters catalog).relations = catalog.relations) :
    findings.foldl enters (findings.foldl enters catalog) = findings.foldl enters catalog := by
  have alike : SeenAlike findings (findings.foldl enters catalog) catalog := by
    intro finding _ word _ container
    rw [related]
  have journal : (findings.foldl enters catalog).journal findings = catalog.journal findings :=
    Catalog.journal_congr alike
  apply Catalog.ext_fields
  · rw [definitions_foldl, journal]
    apply OrderedSet.insertAll_of_mem
    intro definition written
    rw [definitions_foldl]
    exact OrderedSet.mem_insertAll.mpr (.inr written)
  · have entered : ∀ start : Catalog, (findings.foldl enters start).registrations =
        start.registrations.insertAll (start.journal findings) := by
      intro start
      rw [foldl_enters_eq]
    rw [entered, journal, entered]
    exact OrderedMap.insertAll_insertAll _ _
  · exact relations_foldl_again findings catalog

/-- What a finding enters is in the catalog, though a name may stand for something else. -/
structure Settled (catalog : Catalog) (finding : Finding) : Prop where
  related : ∀ relation, finding.relation? = some relation → relation ∈ catalog.relations
  registered : ∀ name, finding.name? = some name →
    ∃ definition, catalog.find? name = some definition ∧ definition ∈ catalog.definitions

theorem settled_enters (catalog : Catalog) (finding : Finding) :
    finding.Settled (finding.enters catalog) := by
  have related : ∀ relation, finding.relation? = some relation →
      relation ∈ (finding.enters catalog).relations :=
    fun relation stated => mem_relations_enters.mpr (.inr stated)
  have registered : ∀ name, finding.name? = some name → ∃ definition,
      (finding.enters catalog).find? name = some definition ∧
        definition ∈ (finding.enters catalog).definitions := by
    intro name named
    cases finding with
    | skipped reason => cases named
    | related relation => cases named
    | choice container declared =>
      obtain rfl := Option.some.inj named
      exact ⟨.ofChoice declared, by simp [enters], by simp [enters]⟩
    | composite own fields =>
      obtain rfl := Option.some.inj named
      exact ⟨.ofStructure ⟨own, catalog.properties fields⟩, by simp [enters], by simp [enters]⟩
  exact ⟨related, registered⟩

theorem Settled.enters {catalog : Catalog} {finding : Finding} (settled : finding.Settled catalog)
    (next : Finding) : finding.Settled (next.enters catalog) := by
  have related : ∀ relation, finding.relation? = some relation →
      relation ∈ (next.enters catalog).relations :=
    fun relation stated => mem_relations_enters.mpr (.inl (settled.related relation stated))
  have registered : ∀ name, finding.name? = some name → ∃ definition,
      (next.enters catalog).find? name = some definition ∧
        definition ∈ (next.enters catalog).definitions := by
    intro name named
    by_cases taken : next.name? = some name
    · exact (settled_enters catalog next).registered name taken
    · obtain ⟨definition, stands, listed⟩ := settled.registered name named
      rw [find?_enters_of_ne taken]
      exact ⟨definition, stands, mem_definitions_enters listed⟩
  exact ⟨related, registered⟩

theorem Settled.foldl {findings : List Finding} {catalog : Catalog} {finding : Finding}
    (settled : finding.Settled catalog) : finding.Settled (findings.foldl Finding.enters catalog) := by
  induction findings generalizing catalog with
  | nil => exact settled
  | cons next rest ih => exact ih (settled.enters next)

theorem settled_foldl (findings : List Finding) (catalog : Catalog) :
    ∀ finding ∈ findings, finding.Settled (findings.foldl enters catalog) := by
  induction findings generalizing catalog with
  | nil =>
    intro finding member
    cases member
  | cons first rest ih =>
    intro finding member
    rcases List.mem_cons.mp member with rfl | member
    · rw [List.foldl_cons]
      exact (settled_enters catalog finding).foldl
    · exact ih (first.enters catalog) finding member

theorem Settled.enters_eq {catalog : Catalog} {finding : Finding} (settled : finding.Settled catalog)
    (harmless : finding.conflicts catalog = false) : finding.enters catalog = catalog := by
  have put : ∀ name definition, finding.registration? catalog = some (name, definition) →
      finding.name? = some name → catalog.put name definition = catalog := by
    intro name definition registers named
    obtain ⟨current, stands, listed⟩ := settled.registered name named
    have free : catalog.holdsOther name definition = false := by
      simpa [conflicts, registers] using harmless
    have same := Catalog.holdsOther_eq_false_iff.mp free current stands
    rw [same] at stands listed
    exact Catalog.put_of_find? stands listed
  cases finding with
  | skipped reason => rfl
  | related relation => exact Catalog.relate_of_mem (settled.related relation rfl)
  | choice container declared =>
    have unchanged := put _ _ rfl rfl
    have present := settled.related _ rfl
    simp only [Finding.enters, unchanged]
    exact Catalog.relate_of_mem present
  | composite name fields => exact put _ _ rfl rfl

end Finding

namespace ExtractionRun

/-- A strict run that finds everything in place changes nothing, wherever it stops. -/
theorem follow_settled {front rest : List Finding} (run : ExtractionRun)
    (settled : ∀ finding ∈ front, finding.Settled run.catalog)
    (stays : ∀ next : ExtractionRun, next.catalog = run.catalog →
      (next.follow true rest).1.catalog = run.catalog) :
    (run.follow true (front ++ rest)).1.catalog = run.catalog := by
  induction front generalizing run with
  | nil => exact stays run rfl
  | cons finding front ih =>
    cases conflict : finding.conflicts run.catalog with
    | true =>
      obtain ⟨name, -, refused⟩ := record_of_conflict conflict
      simp only [List.cons_append, follow, refused]
    | false =>
      obtain ⟨next, recorded, change⟩ := run.exists_record_free finding
      have unchanged : next.catalog = run.catalog := by
        rw [change]
        exact (settled finding List.mem_cons_self).enters_eq conflict
      simp only [List.cons_append, follow, record_of_harmless conflict, recorded]
      rw [← unchanged]
      apply ih next
      · intro later member
        rw [unchanged]
        exact settled later (List.mem_cons_of_mem _ member)
      · intro other same
        rw [unchanged] at same ⊢
        exact stays other same

theorem follow_strict_again (run : ExtractionRun) {catalog : Catalog} {findings : List Finding}
    (first : run.catalog = (follow true { catalog } findings).1.catalog) :
    (run.follow true findings).1.catalog = run.catalog := by
  by_cases undisputed : Undisputed catalog findings
  · have reached : run.catalog = findings.foldl Finding.enters catalog := by
      rw [first, follow_of_undisputed { catalog } undisputed]
      exact (follow_free { catalog } findings).2
    have settled : ∀ finding ∈ findings, finding.Settled run.catalog := by
      rw [reached]
      exact Finding.settled_foldl findings catalog
    have followed : (run.follow true (findings ++ [])).1.catalog = run.catalog :=
      follow_settled run settled fun _ same => same
    rwa [List.append_nil] at followed
  · obtain ⟨before, finding, after, name, rfl, -, conflict, -, stopped⟩ :=
      follow_of_disputed { catalog } undisputed
    have reached : run.catalog = catalog.reached before := by
      rw [first, stopped]
      rfl
    have settled : ∀ earlier ∈ before, earlier.Settled run.catalog := by
      rw [reached, Catalog.reached_eq]
      exact Finding.settled_foldl before catalog
    apply follow_settled run settled
    intro next same
    -- The registration that was refused before meets the same catalog and is refused again.
    have again : finding.conflicts next.catalog = true := by
      rw [same, reached]
      exact conflict
    obtain ⟨_, -, refused⟩ := record_of_conflict again
    simp only [follow, refused]
    exact same

end ExtractionRun

namespace Extraction

/-- A field that is declared before the container of its type. -/
def earlyUse : SourceFile :=
  ⟨[.composite ⟨.structType, .none, .plain "User", [], none,
      [.letDeclaration .none
        [⟨.identifier (.plain "mode") (some (.simple "Mode")), none⟩]]⟩,
    .composite ⟨.structType, .none, .plain "Lamp", [], none,
      [.enumeration ⟨.none, .plain "Mode", [], none, []⟩]⟩]⟩

theorem result_of_related {options : ExtractionOptions} (free : options.strictNames = false)
    {catalog : Catalog} {declarations : List Declaration}
    (related : ∀ relation ∈ statedRelations (findingsOf options declarations),
      relation ∈ catalog.relations) :
    ∃ tally, (ofDeclarations options catalog declarations).result = .ok tally ∧
      tally.newRelations = 0 := by
  have none := OrderedSet.countNew_of_mem related
  exact ⟨_, result_free free catalog declarations, none⟩

theorem catalog_strict_again {options : ExtractionOptions} (strict : options.strictNames = true)
    (catalog : Catalog) (declarations : List Declaration) :
    (ofDeclarations options (ofDeclarations options catalog declarations).catalog
        declarations).catalog = (ofDeclarations options catalog declarations).catalog := by
  unfold ofDeclarations
  rw [catalog_ofRun, strict]
  apply ExtractionRun.follow_strict_again
  rw [catalog_ofRun]

theorem earlyUse_differs :
    (ofDeclarations {} (ofDeclarations {} .empty earlyUse.declarations).catalog
        earlyUse.declarations).catalog ≠
      (ofDeclarations {} .empty earlyUse.declarations).catalog := by
  intro same
  have standsForSame := congrArg (fun reached : Catalog => reached.find? "User") same
  exact absurd standsForSame (by decide)

/-- Without strict names the second run completes the catalog and later runs leave it as it is;
with strict names the second run already does. The first run alone can leave it incomplete. -/
theorem rerun_converges (options : ExtractionOptions) (catalog : Catalog) (file : SourceFile) :
    (let run := fun start =>
        ofDeclarations { options with strictNames := false } start file.declarations
      let first := run catalog
      let second := run first.catalog
      let third := run second.catalog
      second.catalog.relations = first.catalog.relations ∧
        (∃ tally, second.result = .ok tally ∧ tally.newRelations = 0) ∧
        (∃ tally, third.result = .ok tally ∧ tally.newRelations = 0) ∧
        third.catalog = second.catalog) ∧
      (let run := fun start =>
        ofDeclarations { options with strictNames := true } start file.declarations
      (run (run catalog).catalog).catalog = (run catalog).catalog) ∧
      ∃ other : SourceFile,
        let first := ofDeclarations {} .empty other.declarations
        (ofDeclarations {} first.catalog other.declarations).catalog ≠ first.catalog := by
  have free : ({ options with strictNames := false } : ExtractionOptions).strictNames = false := rfl
  have stated : ∀ start : Catalog, ∀ relation ∈ statedRelations (findingsOf options file.declarations),
      relation ∈ ((findingsOf options file.declarations).foldl Finding.enters start).relations := by
    intro start relation member
    rw [Finding.relations_foldl]
    exact OrderedSet.mem_insertAll.mpr (.inr member)
  have related := Finding.relations_foldl_again (findingsOf options file.declarations) catalog
  refine ⟨⟨?_, ?_, ?_, ?_⟩, ?_, earlyUse, earlyUse_differs⟩
  · rw [catalog_ofDeclarations_free free, catalog_ofDeclarations_free free]
    exact related
  · rw [catalog_ofDeclarations_free free]
    exact result_of_related free (stated catalog)
  · rw [catalog_ofDeclarations_free free, catalog_ofDeclarations_free free]
    exact result_of_related free (stated _)
  · rw [catalog_ofDeclarations_free free, catalog_ofDeclarations_free free,
      catalog_ofDeclarations_free free]
    exact Finding.foldl_enters_twice related
  · exact catalog_strict_again rfl catalog file.declarations

end Extraction
end SwiftLens
