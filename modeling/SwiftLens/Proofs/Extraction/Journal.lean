import Mathlib.Data.List.Basic
import SwiftLens.Proofs.Extraction.Strictness

namespace SwiftLens

namespace Catalog

def journal : Catalog → List Finding → List (String × TypeDefinition)
  | _, [] => []
  | catalog, finding :: rest =>
    (finding.registration? catalog).toList ++ journal (finding.enters catalog) rest

theorem ext_fields {left right : Catalog} (definitions : left.definitions = right.definitions)
    (registrations : left.registrations = right.registrations)
    (relations : left.relations = right.relations) : left = right := by
  cases left
  cases right
  simp_all

end Catalog

theorem Finding.name?_eq (catalog : Catalog) (finding : Finding) :
    finding.name? = (finding.registration? catalog).map Prod.fst := by
  cases finding <;> rfl

/-- The names in a journal are those that the findings register, whatever the catalog. -/
theorem Catalog.names_journal (catalog : Catalog) (findings : List Finding) :
    (catalog.journal findings).map Prod.fst = findings.filterMap Finding.name? := by
  induction findings generalizing catalog with
  | nil => rfl
  | cons finding rest ih =>
    rw [journal, List.map_append, ih, List.filterMap_cons, finding.name?_eq catalog]
    cases finding.registration? catalog <;> rfl

theorem Catalog.journal_append (catalog : Catalog) (front back : List Finding) :
    catalog.journal (front ++ back) =
      catalog.journal front ++ (front.foldl Finding.enters catalog).journal back := by
  induction front generalizing catalog with
  | nil => rfl
  | cons finding rest ih =>
    rw [List.cons_append, journal, journal, ih, List.foldl_cons, List.append_assoc]

def statedRelations (findings : List Finding) : List Relation :=
  findings.filterMap Finding.relation?

theorem mem_statedRelations {findings : List Finding} {relation : Relation} :
    relation ∈ statedRelations findings ↔
      ∃ finding ∈ findings, finding.relation? = some relation :=
  List.mem_filterMap

theorem statedRelations_cons (finding : Finding) (rest : List Finding) :
    statedRelations (finding :: rest) = finding.relation?.toList ++ statedRelations rest := by
  unfold statedRelations
  cases states : finding.relation? <;> simp [states]

namespace Finding

theorem enters_eq (catalog : Catalog) (finding : Finding) :
    finding.enters catalog =
      ⟨catalog.definitions.insertAll ((finding.registration? catalog).toList.map Prod.snd),
        catalog.registrations.insertAll (finding.registration? catalog).toList,
        catalog.relations.insertAll finding.relation?.toList⟩ := by
  cases finding <;> rfl

theorem foldl_enters_eq (findings : List Finding) (catalog : Catalog) :
    findings.foldl enters catalog =
      ⟨catalog.definitions.insertAll ((catalog.journal findings).map Prod.snd),
        catalog.registrations.insertAll (catalog.journal findings),
        catalog.relations.insertAll (statedRelations findings)⟩ := by
  induction findings generalizing catalog with
  | nil => rfl
  | cons finding rest ih =>
    have written : catalog.journal (finding :: rest) =
        (finding.registration? catalog).toList ++ (finding.enters catalog).journal rest := rfl
    rw [List.foldl_cons, ih, written, statedRelations_cons, List.map_append, OrderedSet.insertAll_append,
      OrderedMap.insertAll_append, OrderedSet.insertAll_append]
    rw [enters_eq catalog finding]

theorem definitions_foldl (findings : List Finding) (catalog : Catalog) :
    (findings.foldl enters catalog).definitions =
      catalog.definitions.insertAll ((catalog.journal findings).map Prod.snd) := by
  rw [foldl_enters_eq]

theorem relations_foldl (findings : List Finding) (catalog : Catalog) :
    (findings.foldl enters catalog).relations =
      catalog.relations.insertAll (statedRelations findings) := by
  rw [foldl_enters_eq]

/-- The last entry of the journal decides what a name stands for. -/
theorem find?_foldl (findings : List Finding) (catalog : Catalog) (name : String) :
    (findings.foldl enters catalog).find? name =
      (Entries.find? name (catalog.journal findings).reverse).or (catalog.find? name) := by
  have whole := foldl_enters_eq findings catalog
  unfold Catalog.find?
  rw [whole]
  exact OrderedMap.find?_insertAll _ _ _

end Finding

def TypeExpr.word? : TypeExpr → Option String
  | .named path => TypePath.simpleName? path
  | .optional (.named path) => TypePath.simpleName? path
  | _ => none

namespace Catalog

def SameContainers (left right : Catalog) (word : String) : Prop :=
  ∀ container, ⟨.encapsulates, container, .named word⟩ ∈ left.relations ↔
    ⟨.encapsulates, container, .named word⟩ ∈ right.relations

theorem resolveName_congr {left right : Catalog} {word : String}
    (same : SameContainers left right word) : left.resolveName word = right.resolveName word := by
  have containers : (fun container => (⟨.encapsulates, container, .named word⟩ : Relation) ∈
      left.relations) = fun container => ⟨.encapsulates, container, .named word⟩ ∈ right.relations := by
    funext container
    exact propext (same container)
  ext type
  rw [resolveName_iff, resolveName_iff, containers]

theorem resolve_congr {left right : Catalog} {type : TypeExpr}
    (same : ∀ word, type.word? = some word → SameContainers left right word) :
    left.resolve type = right.resolve type := by
  have path : ∀ path : TypePath, (∀ word, TypePath.simpleName? path = some word →
      SameContainers left right word) →
      (TypePath.simpleName? path).bind left.resolveName =
        (TypePath.simpleName? path).bind right.resolveName := by
    intro path agree
    cases simple : TypePath.simpleName? path with
    | none => rfl
    | some word => exact resolveName_congr (agree word simple)
  unfold resolve
  split
  · exact path _ same
  · exact congrArg _ (path _ same)
  · rfl

end Catalog

def Finding.fieldWords : Finding → List String
  | .composite _ fields => fields.filterMap fun field => field.type.word?
  | _ => []

def SeenAlike (findings : List Finding) (left right : Catalog) : Prop :=
  ∀ finding ∈ findings, ∀ word ∈ finding.fieldWords, Catalog.SameContainers left right word

namespace Finding

theorem registration?_congr {finding : Finding} {left right : Catalog}
    (same : ∀ word ∈ finding.fieldWords, Catalog.SameContainers left right word) :
    finding.registration? left = finding.registration? right := by
  cases finding with
  | skipped reason => rfl
  | related relation => rfl
  | choice container declared => rfl
  | composite name fields =>
    have properties : left.properties fields = right.properties fields := by
      unfold Catalog.properties
      apply List.filterMap_congr
      intro field member
      have resolved : left.resolve field.type = right.resolve field.type := by
        apply Catalog.resolve_congr
        intro word read
        exact same word (List.mem_filterMap.mpr ⟨field, member, read⟩)
      rw [resolved]
    simp only [registration?, properties]

theorem sameContainers_enters {finding : Finding} {left right : Catalog} {word : String}
    (same : Catalog.SameContainers left right word) :
    Catalog.SameContainers (finding.enters left) (finding.enters right) word := by
  intro container
  rw [mem_relations_enters, mem_relations_enters, same container]

end Finding

theorem Catalog.journal_congr {findings : List Finding} {left right : Catalog}
    (alike : SeenAlike findings left right) : left.journal findings = right.journal findings := by
  induction findings generalizing left right with
  | nil => rfl
  | cons finding rest ih =>
    have here := Finding.registration?_congr (alike finding List.mem_cons_self)
    have later : SeenAlike rest (finding.enters left) (finding.enters right) := by
      intro next member word read
      exact Finding.sameContainers_enters (alike next (List.mem_cons_of_mem _ member) word read)
    rw [journal, journal, here, ih later]

def Finding.structureName? : Finding → Option String
  | .composite name _ => some name
  | _ => none

def Finding.choiceName? : Finding → Option String
  | .choice _ declared => some declared.name
  | _ => none

namespace ExtractionRun

theorem record_tally {run next : ExtractionRun} {finding : Finding}
    (recorded : run.record false finding = .ok next) :
    next.tally =
      ⟨run.tally.structures ++ finding.structureName?.toList,
        run.tally.choices ++ finding.choiceName?.toList,
        run.tally.newRelations + run.catalog.relations.countNew finding.relation?.toList⟩ := by
  cases finding with
  | skipped reason =>
    cases recorded
    simp [note, Finding.structureName?, Finding.choiceName?, Finding.relation?, OrderedSet.countNew]
  | related relation =>
    cases recorded
    by_cases known : relation ∈ run.catalog.relations <;>
      simp [relate, known, Finding.structureName?, Finding.choiceName?, Finding.relation?,
        OrderedSet.countNew]
  | choice container choice =>
    simp only [record, enter_free, Except.ok.injEq] at recorded
    subst recorded
    by_cases known : ⟨.encapsulates, .named container, .named choice.name⟩ ∈ run.catalog.relations <;>
      simp [enterChoice, note, relate, known, Finding.structureName?, Finding.choiceName?,
        Finding.relation?, OrderedSet.countNew]
  | composite name fields =>
    simp only [record, enter_free, Except.ok.injEq] at recorded
    subst recorded
    simp [enterStructure, note, Finding.structureName?, Finding.choiceName?, Finding.relation?,
      OrderedSet.countNew]

theorem follow_tally (run : ExtractionRun) (findings : List Finding) :
    (run.follow false findings).1.tally =
      ⟨run.tally.structures ++ findings.filterMap Finding.structureName?,
        run.tally.choices ++ findings.filterMap Finding.choiceName?,
        run.tally.newRelations + run.catalog.relations.countNew (statedRelations findings)⟩ := by
  induction findings generalizing run with
  | nil => simp [follow, statedRelations, OrderedSet.countNew]
  | cons finding rest ih =>
    obtain ⟨next, recorded, change⟩ := run.exists_record_free finding
    simp only [follow, recorded]
    have relations : next.catalog.relations =
        run.catalog.relations.insertAll finding.relation?.toList := by
      rw [change, Finding.enters_eq]
    rw [ih, record_tally recorded, relations, statedRelations_cons, OrderedSet.countNew_append]
    cases isStructure : finding.structureName? <;> cases isChoice : finding.choiceName? <;>
      simp [isStructure, isChoice, Nat.add_assoc]

end ExtractionRun

/-- What a run without strict names tells. -/
theorem Extraction.result_free {options : ExtractionOptions} (free : options.strictNames = false)
    (catalog : Catalog) (declarations : List Declaration) :
    (ofDeclarations options catalog declarations).result =
      .ok ⟨(findingsOf options declarations).filterMap Finding.structureName?,
        (findingsOf options declarations).filterMap Finding.choiceName?,
        catalog.relations.countNew (statedRelations (findingsOf options declarations))⟩ := by
  have faultless := (ExtractionRun.follow_free { catalog } (findingsOf options declarations)).1
  have tally := ExtractionRun.follow_tally { catalog } (findingsOf options declarations)
  unfold ofDeclarations
  rw [free]
  generalize ExtractionRun.follow false { catalog } (findingsOf options declarations) = outcome
    at faultless tally
  obtain ⟨run, fault⟩ := outcome
  obtain rfl : fault = none := faultless
  simpa [ofRun] using tally

end SwiftLens
