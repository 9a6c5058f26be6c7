import SwiftLens.Proofs.Extraction.Meaning

namespace SwiftLens

def Catalog.reached (catalog : Catalog) (findings : List Finding) : Catalog :=
  (ExtractionRun.follow false { catalog } findings).1.catalog

theorem Catalog.reached_eq (catalog : Catalog) (findings : List Finding) :
    catalog.reached findings = findings.foldl Finding.enters catalog :=
  (ExtractionRun.follow_free { catalog } findings).2

def Undisputed (catalog : Catalog) (findings : List Finding) : Prop :=
  ∀ before finding after, findings = before ++ finding :: after →
    finding.conflicts (catalog.reached before) = false

theorem undisputed_nil (catalog : Catalog) : Undisputed catalog [] := by
  intro before finding after split
  simp at split

theorem undisputed_cons {catalog : Catalog} {finding : Finding} {rest : List Finding} :
    Undisputed catalog (finding :: rest) ↔
      finding.conflicts catalog = false ∧ Undisputed (finding.enters catalog) rest := by
  have shifted : ∀ before, catalog.reached (finding :: before) =
      (finding.enters catalog).reached before := by
    intro before
    rw [Catalog.reached_eq, Catalog.reached_eq, List.foldl_cons]
  constructor
  · intro undisputed
    have here := undisputed [] finding rest rfl
    rw [Catalog.reached_eq] at here
    have later : Undisputed (finding.enters catalog) rest := by
      intro before next after split
      rw [← shifted]
      exact undisputed (finding :: before) next after (by rw [split, List.cons_append])
    exact ⟨here, later⟩
  · intro harmless before next after split
    cases before with
    | nil =>
      obtain ⟨rfl, -⟩ := List.cons.inj split
      rw [Catalog.reached_eq]
      exact harmless.1
    | cons first before =>
      obtain ⟨rfl, splitRest⟩ := List.cons.inj split
      rw [shifted]
      exact harmless.2 before next after splitRest

namespace Finding

theorem find?_enters_of_harmless {catalog : Catalog} {finding : Finding} {name : String}
    {definition : TypeDefinition} (harmless : finding.conflicts catalog = false)
    (stands : catalog.find? name = some definition) :
    (finding.enters catalog).find? name = some definition := by
  by_cases own : finding.name? = some name
  · cases finding with
    | skipped reason => exact stands
    | related relation => exact stands
    | choice container declared =>
      obtain rfl := Option.some.inj own
      rw [conflicts_choice] at harmless
      have same := Catalog.holdsOther_eq_false_iff.mp harmless definition stands
      simp [enters, same]
    | composite other fields =>
      obtain rfl := Option.some.inj own
      rw [conflicts_composite] at harmless
      have same := Catalog.holdsOther_eq_false_iff.mp harmless definition stands
      simp [enters, same]
  · rw [find?_enters_of_ne own]
    exact stands

theorem find?_foldl_of_undisputed {findings : List Finding} {catalog : Catalog} {name : String}
    {definition : TypeDefinition} (undisputed : Undisputed catalog findings)
    (stands : catalog.find? name = some definition) :
    (findings.foldl enters catalog).find? name = some definition := by
  induction findings generalizing catalog with
  | nil => exact stands
  | cons finding rest ih =>
    obtain ⟨harmless, later⟩ := undisputed_cons.mp undisputed
    exact ih later (find?_enters_of_harmless harmless stands)

/-- A choice that was entered without dispute is still there with its container. -/
theorem choice_kept {findings : List Finding} {catalog : Catalog} {container : String}
    {choice : ChoiceType} (undisputed : Undisputed catalog findings)
    (entered : .choice container choice ∈ findings) :
    (findings.foldl enters catalog).find? choice.name = some (.ofChoice choice) ∧
      .ofChoice choice ∈ (findings.foldl enters catalog).definitions ∧
      ⟨.encapsulates, .named container, .named choice.name⟩ ∈
        (findings.foldl enters catalog).relations := by
  have related : ⟨.encapsulates, .named container, .named choice.name⟩ ∈
      (findings.foldl enters catalog).relations :=
    mem_relations_foldl.mpr (.inr ⟨_, entered, rfl⟩)
  induction findings generalizing catalog with
  | nil => cases entered
  | cons finding rest ih =>
    obtain ⟨harmless, later⟩ := undisputed_cons.mp undisputed
    rcases List.mem_cons.mp entered with rfl | entered
    · have stands : (enters catalog (.choice container choice)).find? choice.name =
          some (.ofChoice choice) := by simp [enters]
      have listed : .ofChoice choice ∈ (enters catalog (.choice container choice)).definitions := by
        simp [enters]
      rw [List.foldl_cons] at related ⊢
      exact ⟨find?_foldl_of_undisputed later stands, mem_definitions_foldl listed, related⟩
    · exact ih later entered related

end Finding

namespace ExtractionRun

theorem enter_strict (run : ExtractionRun) (name : String) (definition : TypeDefinition) :
    run.enter true name definition =
      if run.catalog.holdsOther name definition then .error ⟨name, ⟨name⟩⟩
      else run.enter false name definition := by
  unfold enter
  rw [Catalog.enter_eq, Catalog.enter_eq]
  cases other : run.catalog.holdsOther name definition <;> simp

/-- With strict names a conflict is refused; everything else is recorded as without them. -/
theorem record_strict (run : ExtractionRun) (finding : Finding) :
    (finding.conflicts run.catalog = false ∧ run.record true finding = run.record false finding) ∨
      (finding.conflicts run.catalog = true ∧ ∃ name, finding.name? = some name ∧
        run.record true finding = .error ⟨name, ⟨name⟩⟩) := by
  cases finding with
  | skipped reason => exact .inl ⟨rfl, rfl⟩
  | related relation => exact .inl ⟨rfl, rfl⟩
  | choice container choice =>
    rw [Finding.conflicts_choice]
    cases taken : run.catalog.holdsOther choice.name (.ofChoice choice) with
    | false => exact .inl ⟨rfl, by simp [record, enter_strict, taken]⟩
    | true => exact .inr ⟨rfl, choice.name, rfl, by simp [record, enter_strict, taken]⟩
  | composite name fields =>
    rw [Finding.conflicts_composite]
    cases taken : run.catalog.holdsOther name
        (.ofStructure ⟨name, run.catalog.properties fields⟩) with
    | false => exact .inl ⟨rfl, by simp [record, enter_strict, taken]⟩
    | true => exact .inr ⟨rfl, name, rfl, by simp [record, enter_strict, taken]⟩

theorem record_of_harmless {run : ExtractionRun} {finding : Finding}
    (harmless : finding.conflicts run.catalog = false) :
    run.record true finding = run.record false finding := by
  rcases run.record_strict finding with ⟨-, same⟩ | ⟨conflict, -⟩
  · exact same
  · simp [harmless] at conflict

theorem record_of_conflict {run : ExtractionRun} {finding : Finding}
    (conflict : finding.conflicts run.catalog = true) :
    ∃ name, finding.name? = some name ∧ run.record true finding = .error ⟨name, ⟨name⟩⟩ := by
  rcases run.record_strict finding with ⟨harmless, -⟩ | ⟨-, refused⟩
  · simp [conflict] at harmless
  · exact refused

theorem exists_record_free (run : ExtractionRun) (finding : Finding) :
    ∃ next, run.record false finding = .ok next ∧ next.catalog = finding.enters run.catalog := by
  cases recorded : run.record false finding with
  | error fault => exact absurd (record_error recorded) (by decide)
  | ok next => exact ⟨next, rfl, (record_ok recorded).1⟩

theorem follow_of_undisputed (run : ExtractionRun) {findings : List Finding}
    (undisputed : Undisputed run.catalog findings) :
    run.follow true findings = run.follow false findings := by
  induction findings generalizing run with
  | nil => rfl
  | cons finding rest ih =>
    obtain ⟨harmless, later⟩ := undisputed_cons.mp undisputed
    obtain ⟨next, recorded, change⟩ := run.exists_record_free finding
    simp only [follow, record_of_harmless harmless, recorded]
    rw [← change] at later
    exact ih next later

/-- A dispute stops the strict run where the free run goes on. -/
theorem follow_of_disputed (run : ExtractionRun) {findings : List Finding}
    (disputed : ¬ Undisputed run.catalog findings) :
    ∃ before finding after name, findings = before ++ finding :: after ∧
      Undisputed run.catalog before ∧
      finding.conflicts (run.catalog.reached before) = true ∧ finding.name? = some name ∧
      run.follow true findings = ((run.follow false before).1, some ⟨name, ⟨name⟩⟩) := by
  induction findings generalizing run with
  | nil => exact absurd (undisputed_nil _) disputed
  | cons finding rest ih =>
    cases conflict : finding.conflicts run.catalog with
    | true =>
      obtain ⟨name, named, refused⟩ := record_of_conflict conflict
      have stopped : run.follow true (finding :: rest) = (run, some ⟨name, ⟨name⟩⟩) := by
        simp only [follow, refused]
      exact ⟨[], finding, rest, name, rfl, undisputed_nil _, conflict, named, stopped⟩
    | false =>
      obtain ⟨next, recorded, change⟩ := run.exists_record_free finding
      have later : ¬ Undisputed next.catalog rest := by
        intro undisputed
        rw [change] at undisputed
        exact disputed (undisputed_cons.mpr ⟨conflict, undisputed⟩)
      obtain ⟨before, stop, after, name, split, undisputed, stops, named, stopped⟩ := ih next later
      rw [change] at undisputed
      have reached : run.catalog.reached (finding :: before) = next.catalog.reached before := by
        rw [Catalog.reached_eq, Catalog.reached_eq, List.foldl_cons, change]
      have followed : run.follow true (finding :: rest) =
          ((run.follow false (finding :: before)).1, some ⟨name, ⟨name⟩⟩) := by
        simp only [follow, record_of_harmless conflict, recorded]
        exact stopped
      exact ⟨finding :: before, stop, after, name, by rw [split, List.cons_append],
        undisputed_cons.mpr ⟨conflict, undisputed⟩, by rw [reached]; exact stops, named, followed⟩

@[simp]
theorem relate_notices (run : ExtractionRun) (relation : Relation) :
    (run.relate relation).notices = run.notices := by
  unfold relate
  split <;> rfl

theorem enter_free (run : ExtractionRun) (name : String) (definition : TypeDefinition) :
    run.enter false name definition =
      .ok { run with
        catalog := run.catalog.put name definition
        notices := run.notices ++
          if run.catalog.holdsOther name definition then [.replaced name] else [] } := by
  unfold enter
  rw [Catalog.enter_eq]
  cases run.catalog.holdsOther name definition <;> simp [note]

/-- The free run tells when it takes a name from another definition, and only then. -/
theorem replaced_record {run next : ExtractionRun} {finding : Finding}
    (recorded : run.record false finding = .ok next) :
    (∃ name, .replaced name ∈ next.notices) ↔
      (∃ name, .replaced name ∈ run.notices) ∨ finding.conflicts run.catalog = true := by
  cases finding with
  | skipped reason =>
    cases recorded
    simp [note]
  | related relation =>
    cases recorded
    simp
  | choice container choice =>
    simp only [record, enter_free, Except.ok.injEq] at recorded
    subst recorded
    cases taken : run.catalog.holdsOther choice.name (.ofChoice choice) <;>
      simp [enterChoice, note, taken]
  | composite name fields =>
    simp only [record, enter_free, Except.ok.injEq] at recorded
    subst recorded
    cases taken : run.catalog.holdsOther name
        (.ofStructure ⟨name, run.catalog.properties fields⟩) <;>
      simp [enterStructure, note, taken]

theorem replaced_follow (run : ExtractionRun) (findings : List Finding) :
    (∃ name, .replaced name ∈ (run.follow false findings).1.notices) ↔
      (∃ name, .replaced name ∈ run.notices) ∨ ¬ Undisputed run.catalog findings := by
  induction findings generalizing run with
  | nil => simp [follow, undisputed_nil]
  | cons finding rest ih =>
    obtain ⟨next, recorded, change⟩ := run.exists_record_free finding
    simp only [follow, recorded]
    rw [ih, replaced_record recorded, undisputed_cons, change]
    cases finding.conflicts run.catalog <;> simp

end ExtractionRun

theorem flatMap_eq_append_cons {α β : Type} {image : α → List β} {elements : List α}
    {before after : List β} {item : β} (found : elements.flatMap image = before ++ item :: after) :
    ∃ earlier element later done rest, elements = earlier ++ element :: later ∧
      image element = done ++ item :: rest ∧ before = earlier.flatMap image ++ done := by
  induction elements generalizing before with
  | nil => simp at found
  | cons first others ih =>
    have shift : ∀ front, others.flatMap image = front ++ item :: after →
        before = image first ++ front → ∃ earlier element later done rest,
          first :: others = earlier ++ element :: later ∧
          image element = done ++ item :: rest ∧ before = earlier.flatMap image ++ done := by
      intro front tail whole
      obtain ⟨earlier, element, later, done, rest, split, inside, reached⟩ := ih tail
      refine ⟨first :: earlier, element, later, done, rest, ?_, inside, ?_⟩
      · rw [split, List.cons_append]
      · rw [whole, reached, List.flatMap_cons, List.append_assoc]
    rw [List.flatMap_cons] at found
    rcases List.append_eq_append_iff.mp found with ⟨front, whole, tail⟩ | ⟨middle, whole, tail⟩
    · exact shift front tail whole
    · cases middle with
      | nil =>
        rw [List.append_nil] at whole
        exact shift [] tail.symm (by rw [whole, List.append_nil])
      | cons other middle =>
        obtain ⟨rfl, -⟩ := List.cons.inj tail
        exact ⟨[], first, others, before, middle, rfl, whole, rfl⟩

/-- A registration belongs to a visited composite, after the relations to its supertypes. -/
theorem findingsOf_split {options : ExtractionOptions} {declarations : List Declaration}
    {before after : List Finding} {finding : Finding} {registered : String}
    (found : findingsOf options declarations = before ++ finding :: after)
    (named : finding.name? = some registered) :
    ∃ earlier declared later name done rest,
      declarations = earlier ++ .composite declared :: later ∧ declared.Visited options name ∧
      declared.findings options = done ++ finding :: rest ∧
      before = findingsOf options earlier ++ done := by
  obtain ⟨earlier, declaration, later, done, rest, split, inside, reached⟩ :=
    flatMap_eq_append_cons found
  cases declaration with
  | composite declared =>
    rcases declared.findings_cases options with ⟨name, visited⟩ | ⟨reason, skipped⟩
    · exact ⟨earlier, declared, later, name, done, rest, split, visited, inside, reached⟩
    · have only : finding = .skipped reason := by
        have member : finding ∈ declared.findings options := by
          rw [show declared.findings options = done ++ finding :: rest from inside]
          simp
        rw [skipped] at member
        exact List.mem_singleton.mp member
      rw [only] at named
      cases named
  | _ => simp [Declaration.findings] at inside

theorem Composite.supertypes_before {options : ExtractionOptions} {declared : Composite Declaration}
    {name registered : String} {done rest : List Finding} {finding : Finding}
    (visited : declared.Visited options name)
    (inside : declared.findings options = done ++ finding :: rest)
    (named : finding.name? = some registered) {relation : Relation}
    (stated : relation ∈ supertypeRelations name declared.supertypeNames) :
    .related relation ∈ done := by
  rw [findings_of_visited visited, List.append_assoc] at inside
  have listed : Finding.related relation ∈
      (supertypeRelations name declared.supertypeNames).map .related :=
    List.mem_map.mpr ⟨relation, stated, rfl⟩
  rcases List.append_eq_append_iff.mp inside with ⟨more, whole, -⟩ | ⟨middle, whole, tail⟩
  · rw [whole]
    exact List.mem_append_left _ listed
  · cases middle with
    | nil =>
      rw [List.append_nil] at whole
      rw [← whole]
      exact listed
    | cons first middle =>
      obtain ⟨rfl, -⟩ := List.cons.inj tail
      have isRelation : finding ∈ (supertypeRelations name declared.supertypeNames).map .related := by
        rw [whole]
        simp
      obtain ⟨other, -, rfl⟩ := List.mem_map.mp isRelation
      cases named

namespace Extraction

/-- A run stopped inside a composite, at the first registration that takes a name from another
definition. The catalog is the one before that registration; the relations to the supertypes of
the composite and the choices entered before are in it. -/
inductive StoppedInside (options : ExtractionOptions) (start : Catalog)
    (declarations : List Declaration) (fault : RegistrationFault) (stopped : Extraction) : Prop
  | intro {earlier later : List Declaration} {declared : Composite Declaration} {name : String}
      {done rest : List Finding} {finding : Finding}
      (place : declarations = earlier ++ .composite declared :: later)
      (visited : declared.Visited options name)
      (inside : declared.findings options = done ++ finding :: rest)
      (undisputed : Undisputed start (findingsOf options earlier ++ done))
      (conflict : finding.conflicts (start.reached (findingsOf options earlier ++ done)) = true)
      (named : finding.name? = some fault.declaration)
      (told : fault.conflict = ⟨fault.declaration⟩)
      (catalog : stopped.catalog = start.reached (findingsOf options earlier ++ done))
      (supertypes : ∀ relation ∈ Composite.supertypeRelations name declared.supertypeNames,
        relation ∈ stopped.catalog.relations)
      (choices : ∀ choice, .choice name choice ∈ done →
        stopped.catalog.find? choice.name = some (.ofChoice choice) ∧
          .ofChoice choice ∈ stopped.catalog.definitions ∧
          ⟨.encapsulates, .named name, .named choice.name⟩ ∈ stopped.catalog.relations)

theorem stoppedInside_of_disputed {options : ExtractionOptions} {catalog : Catalog}
    {declarations : List Declaration}
    (disputed : ¬ Undisputed catalog (findingsOf options declarations)) :
    ∃ fault, (ofDeclarations { options with strictNames := true } catalog declarations).result =
        .error fault ∧
      StoppedInside options catalog declarations fault
        (ofDeclarations { options with strictNames := true } catalog declarations) := by
  obtain ⟨before, finding, after, registered, found, undisputed, conflict, named, followed⟩ :=
    ExtractionRun.follow_of_disputed { catalog } disputed
  obtain ⟨earlier, declared, later, name, done, rest, place, visited, inside, reached⟩ :=
    findingsOf_split found named
  have left : ofDeclarations { options with strictNames := true } catalog declarations =
      ⟨catalog.reached before, .error ⟨registered, ⟨registered⟩⟩,
        (ExtractionRun.follow false { catalog } before).1.notices⟩ := by
    have same : findingsOf { options with strictNames := true } declarations =
        findingsOf options declarations := rfl
    rw [ofDeclarations, same, followed]
    rfl
  rw [left]
  refine ⟨⟨registered, ⟨registered⟩⟩, rfl, ?_⟩
  subst reached
  have kept : ∀ part ∈ done, part ∈ findingsOf options earlier ++ done :=
    fun _ member => List.mem_append_right _ member
  apply StoppedInside.intro place visited inside undisputed conflict named rfl rfl
  · intro relation stated
    have member := kept _ (Composite.supertypes_before visited inside named stated)
    rw [Catalog.reached_eq]
    exact Finding.mem_relations_foldl.mpr (.inr ⟨_, member, rfl⟩)
  · intro choice entered
    rw [Catalog.reached_eq]
    exact Finding.choice_kept undisputed (kept _ entered)

theorem notices_ofRun (outcome : ExtractionRun × Option RegistrationFault) :
    (ofRun outcome).notices = outcome.1.notices := by
  obtain ⟨run, fault⟩ := outcome
  cases fault <;> rfl

theorem replaced_iff_disputed (options : ExtractionOptions) (catalog : Catalog)
    (declarations : List Declaration) :
    (∃ name, .replaced name ∈
        (ofDeclarations { options with strictNames := false } catalog declarations).notices) ↔
      ¬ Undisputed catalog (findingsOf options declarations) := by
  have told := ExtractionRun.replaced_follow { catalog } (findingsOf options declarations)
  have silent : ¬ ∃ name, ExtractionNotice.replaced name ∈ ([] : List ExtractionNotice) := by simp
  rw [or_iff_right silent] at told
  unfold ofDeclarations
  rw [notices_ofRun]
  exact told

theorem strict_eq_free {options : ExtractionOptions} {catalog : Catalog}
    {declarations : List Declaration}
    (undisputed : Undisputed catalog (findingsOf options declarations)) :
    ofDeclarations { options with strictNames := true } catalog declarations =
      ofDeclarations { options with strictNames := false } catalog declarations := by
  have followed := ExtractionRun.follow_of_undisputed { catalog } undisputed
  exact congrArg ofRun followed

theorem strict_succeeds_iff (options : ExtractionOptions) (catalog : Catalog)
    (declarations : List Declaration) :
    (∃ tally, (ofDeclarations { options with strictNames := true } catalog declarations).result =
        .ok tally) ↔ Undisputed catalog (findingsOf options declarations) := by
  by_cases undisputed : Undisputed catalog (findingsOf options declarations)
  · have free : ({ options with strictNames := false } : ExtractionOptions).strictNames = false := rfl
    have finished := result_ofDeclarations_free free catalog declarations
    rw [← strict_eq_free undisputed] at finished
    exact iff_of_true finished undisputed
  · obtain ⟨fault, failed, -⟩ := stoppedInside_of_disputed undisputed
    rw [failed]
    exact iff_of_false (by simp) undisputed

/-- Strict names do what free names do until a registration would take a name from another
definition, and stop there. -/
theorem strict_stops_free (options : ExtractionOptions) (catalog : Catalog) (file : SourceFile) :
    let strict := ofDeclarations { options with strictNames := true } catalog file.declarations
    let free := ofDeclarations { options with strictNames := false } catalog file.declarations
    ((∃ tally, strict.result = .ok tally) ↔
      Undisputed catalog (findingsOf options file.declarations)) ∧
    ((∃ tally, strict.result = .ok tally) ↔ ∀ name, .replaced name ∉ free.notices) ∧
    ((∃ tally, strict.result = .ok tally) → strict = free) ∧
    ∀ fault, strict.result = .error fault →
      StoppedInside options catalog file.declarations fault strict := by
  intro strict free
  have succeeds := strict_succeeds_iff options catalog file.declarations
  have replaced := replaced_iff_disputed options catalog file.declarations
  have silent : Undisputed catalog (findingsOf options file.declarations) ↔
      ∀ name, .replaced name ∉ free.notices := by
    rw [← not_exists, replaced, Classical.not_not]
  have same : (∃ tally, strict.result = .ok tally) → strict = free :=
    fun finished => strict_eq_free (succeeds.mp finished)
  have stops : ∀ fault, strict.result = .error fault →
      StoppedInside options catalog file.declarations fault strict := by
    intro fault failed
    have disputed : ¬ Undisputed catalog (findingsOf options file.declarations) := by
      intro undisputed
      obtain ⟨tally, succeeded⟩ := succeeds.mpr undisputed
      exact absurd (failed.symm.trans succeeded) (by simp)
    obtain ⟨other, failedToo, stopped⟩ := stoppedInside_of_disputed disputed
    obtain rfl : fault = other := Except.error.inj (failed.symm.trans failedToo)
    exact stopped
  exact ⟨succeeds, succeeds.trans silent, same, stops⟩

-- A structure with the name of an earlier choice is refused after its supertype is noted.
example :
    let stopped := ofDeclarations { strictNames := true } .empty
      [.composite ⟨.structType, .none, .plain "Lamp", [], none,
          [.enumeration ⟨.none, .plain "Mode", [], none, []⟩]⟩,
        .composite ⟨.structType, .none, .plain "Mode", [], some [[⟨.plain "Device", []⟩]], []⟩]
    stopped.result = .error ⟨"Mode", ⟨"Mode"⟩⟩ ∧
      ⟨.implements, .named "Mode", .named "Device"⟩ ∈ stopped.catalog.relations ∧
      stopped.catalog.find? "Mode" = some (.ofChoice ⟨"Mode", []⟩) := by
  intro stopped
  exact ⟨rfl, by decide, rfl⟩

end Extraction
end SwiftLens
