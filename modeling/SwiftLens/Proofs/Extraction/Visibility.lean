import SwiftLens.Proofs.Extraction.Steps

namespace SwiftLens

def Specifiers.areHidden (specifiers : Specifiers) : Bool :=
  match specifiers.modifiers.filterMap Modifier.accessLevel? with
  | [] => true
  | level :: _ => level != .publicLevel && level != .openLevel

/-- There is no modifier, or one that is something else than `public` or `open`. -/
def Modifier.hideField (modifiers : List Modifier) : Bool :=
  modifiers.isEmpty ||
    modifiers.any fun modifier =>
      modifier != access .publicLevel && modifier != access .openLevel

def Declaration.isHiddenMember : Declaration → Bool
  | .enumeration declared => declared.specifiers.areHidden
  | .letDeclaration specifiers _ => Modifier.hideField specifiers.modifiers
  | .varDeclaration specifiers _ => Modifier.hideField specifiers.modifiers
  | _ => false

def Declaration.isHiddenComposite : Declaration → Bool
  | .composite declared => declared.specifiers.areHidden
  | _ => false

def Composite.pruned (declared : Composite Declaration) : Composite Declaration :=
  { declared with members := declared.members.filter (!·.isHiddenMember) }

def Declaration.pruned : Declaration → Declaration
  | .composite declared => .composite declared.pruned
  | other => other

/-- The declarations without hidden composites and without the hidden members of the others. -/
def prune (declarations : List Declaration) : List Declaration :=
  (declarations.filter (!·.isHiddenComposite)).map Declaration.pruned

theorem Specifiers.areHidden_eq (specifiers : Specifiers) :
    specifiers.areHidden = !specifiers.isPublic := by
  have first : specifiers.access? =
      (specifiers.modifiers.filterMap Modifier.accessLevel?).head? := by
    rw [access?, Modifier.declaredAccess, List.head?_filterMap]
  unfold areHidden isPublic
  rw [first]
  cases specifiers.modifiers.filterMap Modifier.accessLevel? with
  | nil => rfl
  | cons level rest => cases level <;> rfl

theorem Modifier.seen_iff (modifier : Modifier) :
    modifier.accessLevel?.any AccessLevel.isPublic = true ↔
      modifier = access .publicLevel ∨ modifier = access .openLevel := by
  cases modifier with
  | access level => cases level <;> simp [accessLevel?, AccessLevel.isPublic]
  | _ => simp [accessLevel?]

theorem Modifier.hideField_eq_false_iff {modifiers : List Modifier} :
    hideField modifiers = false ↔
      modifiers ≠ [] ∧ ∀ modifier ∈ modifiers, modifier.accessLevel?.any AccessLevel.isPublic = true := by
  simp only [hideField, Bool.or_eq_false_iff, List.any_eq_false, Modifier.seen_iff]
  constructor
  · rintro ⟨some, all⟩
    refine ⟨by simpa using some, fun modifier member => ?_⟩
    have seen := all modifier member
    grind
  · rintro ⟨some, all⟩
    refine ⟨by simpa using some, fun modifier member => ?_⟩
    have seen := all modifier member
    grind

namespace ExtractionOptions

def filtering (options : ExtractionOptions) (publicOnly : Bool) : ExtractionOptions :=
  { options with publicOnly }

variable (options : ExtractionOptions)

theorem admits_filtering (specifiers : Specifiers) :
    (options.filtering true).admits specifiers = !specifiers.areHidden := by
  rw [Specifiers.areHidden_eq, Bool.not_not]
  rfl

/-- The filter for fields passes what no hiding modifier keeps back; type-level members are kept
back with and without it. -/
theorem admitsField_filtering (modifiers : List Modifier) :
    (options.filtering true).admitsField modifiers =
      (!Modifier.hideField modifiers && (options.filtering false).admitsField modifiers) := by
  cases hidden : Modifier.hideField modifiers with
  | false =>
    obtain ⟨some, seen⟩ := Modifier.hideField_eq_false_iff.mp hidden
    have all : (modifiers.all fun modifier =>
        modifier.accessLevel?.any AccessLevel.isPublic) = true := List.all_eq_true.mpr seen
    simp [admitsField, filtering, some, all]
  | true =>
    have unseen : (!modifiers.isEmpty && modifiers.all fun modifier =>
        modifier.accessLevel?.any AccessLevel.isPublic) = false := by
      rw [Bool.eq_false_iff]
      intro seen
      rw [Bool.and_eq_true, List.all_eq_true] at seen
      have shown := Modifier.hideField_eq_false_iff.mpr ⟨by simpa using seen.1, seen.2⟩
      rw [hidden] at shown
      cases shown
    simp [admitsField, filtering, unseen]

end ExtractionOptions

section Findings

variable (options : ExtractionOptions)

theorem Declaration.field?_filtering (member : Declaration) :
    member.field? (options.filtering true) =
      if member.isHiddenMember then none else member.field? (options.filtering false) := by
  cases member with
  | letDeclaration specifiers bindings =>
    simp only [field?, isHiddenMember, options.admitsField_filtering]
    by_cases hidden : Modifier.hideField specifiers.modifiers = true <;> simp [hidden]
  | varDeclaration specifiers storage =>
    cases storage with
    | stored bindings =>
      simp only [field?, isHiddenMember, options.admitsField_filtering]
      by_cases hidden : Modifier.hideField specifiers.modifiers = true <;> simp [hidden]
    | _ => simp [field?]
  | _ => simp [field?]

namespace Composite

theorem fields_filtering (declared : Composite Declaration) :
    declared.fields (options.filtering true) = declared.pruned.fields (options.filtering false) := by
  simp only [fields, pruned, List.filterMap_filter]
  congr 1
  funext member
  rw [member.field?_filtering]
  cases member.isHiddenMember <;> simp

theorem enumerations_pruned (declared : Composite Declaration) :
    declared.pruned.enumerations =
      declared.enumerations.filter fun nested => !nested.specifiers.areHidden := by
  simp only [enumerations, pruned, List.filterMap_filter, List.filter_filterMap]
  congr 1
  funext member
  cases member with
  | enumeration nested =>
    cases hidden : nested.specifiers.areHidden <;>
      simp [Declaration.isHiddenMember, Declaration.enumeration?, Option.filter, hidden]
  | _ => simp [Declaration.enumeration?]

theorem choices_filtering (declared : Composite Declaration) :
    declared.choices (options.filtering true) =
      declared.pruned.choices (options.filtering false) := by
  have all : declared.pruned.enumerations.filter (fun nested =>
      (options.filtering false).admits nested.specifiers) = declared.pruned.enumerations :=
    List.filter_eq_self.mpr fun nested _ => rfl
  rw [choices, choices, all, enumerations_pruned]
  simp only [options.admits_filtering]

/-- A composite that is seen contributes with the filter what it contributes without it after it
was pruned. -/
theorem findings_filtering {declared : Composite Declaration}
    (seen : declared.specifiers.areHidden = false) :
    declared.findings (options.filtering true) =
      declared.pruned.findings (options.filtering false) := by
  have admitted : (options.filtering true).admits declared.specifiers = true := by
    rw [options.admits_filtering, seen]
    rfl
  have admittedPruned : (options.filtering false).admits declared.pruned.specifiers = true := rfl
  have names : declared.supertypeNames = declared.pruned.supertypeNames := rfl
  unfold findings
  rw [admitted, admittedPruned, fields_filtering, choices_filtering, names]
  rfl

end Composite

def Finding.isSkipped : Finding → Bool
  | .skipped _ => true
  | _ => false

/-- With the filter a hidden composite is passed over. -/
theorem Composite.isSkipped_of_hidden {declared : Composite Declaration}
    (hidden : declared.specifiers.areHidden = true) :
    ∀ finding ∈ declared.findings (options.filtering true), finding.isSkipped = true := by
  have refused : (options.filtering true).admits declared.specifiers = false := by
    rw [options.admits_filtering, hidden]
    rfl
  unfold findings
  rw [refused]
  split
  · split <;> simp [Finding.isSkipped]
  · simp [Finding.isSkipped]

/-- The filter and pruning leave the same findings, apart from those that are passed over. -/
theorem findingsOf_filtering (declarations : List Declaration) :
    (findingsOf (options.filtering true) declarations).filter (!·.isSkipped) =
      (findingsOf (options.filtering false) (prune declarations)).filter (!·.isSkipped) := by
  induction declarations with
  | nil => rfl
  | cons declaration rest ih =>
    have split : findingsOf (options.filtering true) (declaration :: rest) =
        declaration.findings (options.filtering true) ++
          findingsOf (options.filtering true) rest := List.flatMap_cons
    rw [split, List.filter_append, ih]
    cases hidden : declaration.isHiddenComposite with
    | true =>
      obtain ⟨declared, rfl⟩ : ∃ declared, declaration = .composite declared := by
        cases declaration with
        | composite declared => exact ⟨declared, rfl⟩
        | _ => cases hidden
      have none : (Declaration.findings (options.filtering true) (.composite declared)).filter
          (!·.isSkipped) = [] := by
        rw [List.filter_eq_nil_iff]
        intro finding member
        simp [declared.isSkipped_of_hidden options hidden finding member]
      have dropped : prune (.composite declared :: rest) = prune rest := by
        simp [prune, hidden]
      rw [none, dropped, List.nil_append]
    | false =>
      have kept : prune (declaration :: rest) = declaration.pruned :: prune rest := by
        simp [prune, hidden]
      have same : declaration.findings (options.filtering true) =
          declaration.pruned.findings (options.filtering false) := by
        cases declaration with
        | composite declared => exact declared.findings_filtering options hidden
        | _ => rfl
      have splitPruned : findingsOf (options.filtering false) (declaration.pruned :: prune rest) =
          declaration.pruned.findings (options.filtering false) ++
            findingsOf (options.filtering false) (prune rest) := List.flatMap_cons
      rw [kept, same, splitPruned, List.filter_append]

end Findings

namespace ExtractionRun

structure Alike (run other : ExtractionRun) : Prop where
  catalog : run.catalog = other.catalog
  tally : run.tally = other.tally

namespace Alike

variable {run other : ExtractionRun} (alike : Alike run other)

include alike

theorem note (notice another : ExtractionNotice) : Alike (run.note notice) (other.note another) :=
  ⟨alike.catalog, alike.tally⟩

theorem relate (relation : Relation) : Alike (run.relate relation) (other.relate relation) := by
  unfold ExtractionRun.relate
  rw [alike.catalog, alike.tally]
  split
  · exact alike
  · exact ⟨rfl, rfl⟩

theorem enterChoice (container : String) (choice : ChoiceType) :
    Alike (run.enterChoice container choice) (other.enterChoice container choice) := by
  have related := alike.relate ⟨.encapsulates, .named container, .named choice.name⟩
  refine ⟨related.catalog, ?_⟩
  simp only [ExtractionRun.enterChoice, ExtractionRun.note, related.tally]

theorem enterStructure (described : StructureType) :
    Alike (run.enterStructure described) (other.enterStructure described) := by
  refine ⟨alike.catalog, ?_⟩
  simp only [ExtractionRun.enterStructure, ExtractionRun.note, alike.tally]

/-- A definition is entered in both runs or refused in both. -/
theorem enter (strictNames : Bool) (name : String) (definition : TypeDefinition) :
    (∃ next following, run.enter strictNames name definition = .ok next ∧
        other.enter strictNames name definition = .ok following ∧ Alike next following) ∨
      ∃ fault, run.enter strictNames name definition = .error fault ∧
        other.enter strictNames name definition = .error fault := by
  unfold ExtractionRun.enter
  rw [alike.catalog]
  cases other.catalog.enter strictNames name definition with
  | error fault => exact .inr ⟨fault, rfl, rfl⟩
  | ok catalog =>
    refine .inl ⟨_, _, rfl, rfl, ?_⟩
    split <;> exact ⟨rfl, alike.tally⟩

/-- One finding takes runs that are alike to runs that are alike, or stops both with one fault. -/
theorem record (strictNames : Bool) (finding : Finding) :
    (∃ next following, run.record strictNames finding = .ok next ∧
        other.record strictNames finding = .ok following ∧ Alike next following) ∨
      ∃ fault, run.record strictNames finding = .error fault ∧
        other.record strictNames finding = .error fault := by
  cases finding with
  | skipped reason => exact .inl ⟨_, _, rfl, rfl, alike.note _ _⟩
  | related relation => exact .inl ⟨_, _, rfl, rfl, alike.relate relation⟩
  | choice container choice =>
    simp only [ExtractionRun.record]
    rcases alike.enter strictNames choice.name (.ofChoice choice) with
      ⟨next, following, entered, enteredOther, stillAlike⟩ | ⟨fault, failed, failedOther⟩
    · rw [entered, enteredOther]
      exact .inl ⟨_, _, rfl, rfl, stillAlike.enterChoice container choice⟩
    · rw [failed, failedOther]
      exact .inr ⟨fault, rfl, rfl⟩
  | composite name fields =>
    simp only [ExtractionRun.record, alike.catalog]
    rcases alike.enter strictNames name (.ofStructure ⟨name, other.catalog.properties fields⟩) with
      ⟨next, following, entered, enteredOther, stillAlike⟩ | ⟨fault, failed, failedOther⟩
    · rw [entered, enteredOther]
      exact .inl ⟨_, _, rfl, rfl, stillAlike.enterStructure _⟩
    · rw [failed, failedOther]
      exact .inr ⟨fault, rfl, rfl⟩

end Alike

/-- What is passed over shows in the reports only. -/
theorem Alike.follow {run other : ExtractionRun} (alike : Alike run other) (strictNames : Bool)
    (findings : List Finding) :
    Alike (run.follow strictNames findings).1
        (other.follow strictNames (findings.filter (!·.isSkipped))).1 ∧
      (run.follow strictNames findings).2 =
        (other.follow strictNames (findings.filter (!·.isSkipped))).2 := by
  induction findings generalizing run other with
  | nil => exact ⟨alike, rfl⟩
  | cons finding rest ih =>
    cases skipped : finding.isSkipped with
    | true =>
      obtain ⟨reason, rfl⟩ : ∃ reason, finding = .skipped reason := by
        cases finding with
        | skipped reason => exact ⟨reason, rfl⟩
        | _ => cases skipped
      rw [List.filter_cons_of_neg (by simp [skipped])]
      have noted : Alike (run.note (.skipped reason)) other := ⟨alike.catalog, alike.tally⟩
      exact ih noted
    | false =>
      rw [List.filter_cons_of_pos (by simp [skipped])]
      simp only [ExtractionRun.follow]
      rcases alike.record strictNames finding with
        ⟨next, following, recorded, recordedOther, stillAlike⟩ | ⟨fault, failed, failedOther⟩
      · rw [recorded, recordedOther]
        exact ih stillAlike
      · rw [failed, failedOther]
        exact ⟨alike, rfl⟩

end ExtractionRun

namespace Extraction

structure SameOutcome (left right : Extraction) : Prop where
  result : left.result = right.result
  catalog : left.catalog = right.catalog

theorem SameOutcome.symm {left right : Extraction} (same : SameOutcome left right) :
    SameOutcome right left :=
  ⟨same.result.symm, same.catalog.symm⟩

theorem SameOutcome.trans {left middle right : Extraction} (first : SameOutcome left middle)
    (second : SameOutcome middle right) : SameOutcome left right :=
  ⟨first.result.trans second.result, first.catalog.trans second.catalog⟩

theorem sameOutcome_ofRun {left right : ExtractionRun × Option RegistrationFault}
    (alike : left.1.Alike right.1) (stopped : left.2 = right.2) :
    SameOutcome (ofRun left) (ofRun right) := by
  obtain ⟨run, fault⟩ := left
  obtain ⟨other, otherFault⟩ := right
  obtain rfl : fault = otherFault := stopped
  cases fault with
  | none => exact ⟨congrArg Except.ok alike.tally, alike.catalog⟩
  | some fault => exact ⟨rfl, alike.catalog⟩

/-- A run does what its findings do that are not passed over. -/
theorem sameOutcome_of_filter {strictNames : Bool} (catalog : Catalog) {findings others : List Finding}
    (same : findings.filter (!·.isSkipped) = others.filter (!·.isSkipped)) :
    SameOutcome (ofRun (ExtractionRun.follow strictNames { catalog } findings))
      (ofRun (ExtractionRun.follow strictNames { catalog } others)) := by
  have alike : ExtractionRun.Alike { catalog } { catalog } := ⟨rfl, rfl⟩
  obtain ⟨left, leftFault⟩ := alike.follow strictNames findings
  obtain ⟨right, rightFault⟩ := alike.follow strictNames others
  rw [same] at left leftFault
  exact (sameOutcome_ofRun left leftFault).trans (sameOutcome_ofRun right rightFault).symm

theorem sameOutcome_filtering (options : ExtractionOptions) (catalog : Catalog)
    (declarations : List Declaration) :
    SameOutcome (ofDeclarations (options.filtering true) catalog declarations)
      (ofDeclarations (options.filtering false) catalog (prune declarations)) :=
  sameOutcome_of_filter catalog (findingsOf_filtering options declarations)

/-- The filter for public declarations is pruning, and declarations that are the same once they are
pruned cannot be told apart under it. -/
theorem publicOnly_eq_pruned (options : ExtractionOptions) (catalog : Catalog)
    (declarations : List Declaration) :
    SameOutcome (ofDeclarations { options with publicOnly := true } catalog declarations)
        (ofDeclarations { options with publicOnly := false } catalog (prune declarations)) ∧
      ∀ others, prune others = prune declarations →
        SameOutcome (ofDeclarations { options with publicOnly := true } catalog declarations)
          (ofDeclarations { options with publicOnly := true } catalog others) := by
  have pruned := sameOutcome_filtering options catalog declarations
  refine ⟨pruned, fun others same => ?_⟩
  have otherPruned := sameOutcome_filtering options catalog others
  rw [same] at otherPruned
  exact pruned.trans otherPruned.symm

def publicLamp (members : List Declaration) : Declaration :=
  .composite ⟨.structType, ⟨[], [.access .publicLevel]⟩, .plain "Lamp", [], none,
    members ++ [.letDeclaration ⟨[], [.access .publicLevel]⟩
      [⟨.identifier (.plain "mode") (some (.simple "Mode")), none⟩]]⟩

def hiddenMode : Declaration :=
  .enumeration ⟨.none, .plain "Mode", [], none, []⟩

theorem publicOnly_eq_pruned_lamp :
    prune [publicLamp []] = prune [publicLamp [hiddenMode]] ∧
      SameOutcome (ofDeclarations { publicOnly := true } .empty [publicLamp [hiddenMode]])
        (ofDeclarations {} .empty [publicLamp []]) ∧
      SameOutcome (ofDeclarations { publicOnly := true } .empty [publicLamp [hiddenMode]])
        (ofDeclarations { publicOnly := true } .empty [publicLamp []]) := by
  have pruned := publicOnly_eq_pruned {} .empty [publicLamp [hiddenMode]]
  exact ⟨rfl, pruned.1, pruned.2 [publicLamp []] rfl⟩

end Extraction
end SwiftLens
