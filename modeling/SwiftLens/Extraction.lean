import SwiftLens.Extraction.Finding
import SwiftLens.Log

namespace SwiftLens

structure RegistrationFault where
  declaration : String
  conflict : NameConflict
deriving DecidableEq, Repr

def RegistrationFault.message (fault : RegistrationFault) : String :=
  s!"failed to register '{fault.declaration}': {fault.conflict.message}"

structure ExtractionTally where
  structures : List String := []
  choices : List String := []
  newRelations : Nat := 0
deriving DecidableEq, Repr

def ExtractionTally.isEmpty (tally : ExtractionTally) : Bool :=
  tally.structures.isEmpty && tally.choices.isEmpty && tally.newRelations == 0

inductive ExtractionNotice
  | skipped (reason : SkipReason)
  | replaced (name : String)
  | registeredChoice (container name : String) (cases : Nat)
  | registeredStructure (name : String) (properties : Nat)
  | converted (tally : ExtractionTally)
deriving DecidableEq, Repr

namespace ExtractionNotice

def line : ExtractionNotice → LogLine
  | skipped (.kindNotSelected kind name) =>
    ⟨.debug, s!"Skipping {kind.keyword} {name.spelling}: kind not selected"⟩
  | skipped (.unnamed kind) => ⟨.debug, s!"Skipping {kind.keyword} without a name"⟩
  | skipped (.notPublic kind name) => ⟨.debug, s!"Skipping non-public {kind.keyword} {name}"⟩
  | replaced name => ⟨.debug, s!"Replaced earlier registration of {name}"⟩
  | registeredChoice container name cases =>
    ⟨.debug, s!"Registered choice {container}.{name} with {cases} cases"⟩
  | registeredStructure name properties =>
    ⟨.debug, s!"Registered structure {name} with {properties} properties"⟩
  | converted tally =>
    let structures := tally.structures.length
    let choices := tally.choices.length
    ⟨.info, s!"Converted {structures} structures, {choices} choices, {tally.newRelations} new relations"⟩

end ExtractionNotice

namespace Catalog

def enter (catalog : Catalog) (strictNames : Bool) (name : String) (definition : TypeDefinition) :
    Except RegistrationFault Catalog :=
  if strictNames then
    match catalog.registerNew name definition with
    | .ok entered => .ok (entered.addDefinition definition)
    | .error conflict => .error ⟨name, conflict⟩
  else .ok ((catalog.register name definition).addDefinition definition)

def holdsOther (catalog : Catalog) (name : String) (definition : TypeDefinition) : Bool :=
  (catalog.find? name).any (· ≠ definition)

def properties (catalog : Catalog) (fields : List Field) : List (Property SemanticType) :=
  fields.filterMap fun field => (catalog.resolve field.type).map fun type => ⟨field.name, type⟩

end Catalog

structure ExtractionRun where
  catalog : Catalog
  tally : ExtractionTally := {}
  notices : List ExtractionNotice := []

namespace ExtractionRun

def note (run : ExtractionRun) (notice : ExtractionNotice) : ExtractionRun :=
  { run with notices := run.notices ++ [notice] }

def relate (run : ExtractionRun) (relation : Relation) : ExtractionRun :=
  if relation ∈ run.catalog.relations then run
  else
    { run with
      catalog := run.catalog.relate relation
      tally := { run.tally with newRelations := run.tally.newRelations + 1 } }

def enter (run : ExtractionRun) (strictNames : Bool) (name : String) (definition : TypeDefinition) :
    Except RegistrationFault ExtractionRun :=
  match run.catalog.enter strictNames name definition with
  | .error fault => .error fault
  | .ok catalog =>
    let entered := { run with catalog }
    .ok (if run.catalog.holdsOther name definition then entered.note (.replaced name) else entered)

def enterChoice (run : ExtractionRun) (container : String) (choice : ChoiceType) : ExtractionRun :=
  let related := run.relate ⟨.encapsulates, .named container, .named choice.name⟩
  { related with
      tally := { related.tally with choices := related.tally.choices ++ [choice.name] } }.note
    (.registeredChoice container choice.name choice.cases.length)

def enterStructure (run : ExtractionRun) (described : StructureType) : ExtractionRun :=
  { run with
      tally := { run.tally with structures := run.tally.structures ++ [described.name] } }.note
    (.registeredStructure described.name described.properties.length)

def record (strictNames : Bool) (run : ExtractionRun) :
    Finding → Except RegistrationFault ExtractionRun
  | .skipped reason => .ok (run.note (.skipped reason))
  | .related relation => .ok (run.relate relation)
  | .choice container choice =>
    match run.enter strictNames choice.name (.ofChoice choice) with
    | .ok entered => .ok (entered.enterChoice container choice)
    | .error fault => .error fault
  | .composite name fields =>
    let described : StructureType := ⟨name, run.catalog.properties fields⟩
    match run.enter strictNames name (.ofStructure described) with
    | .ok entered => .ok (entered.enterStructure described)
    | .error fault => .error fault

def follow (strictNames : Bool) : ExtractionRun → List Finding →
    ExtractionRun × Option RegistrationFault
  | run, [] => (run, none)
  | run, finding :: rest =>
    match run.record strictNames finding with
    | .ok next => follow strictNames next rest
    | .error fault => (run, some fault)

end ExtractionRun

structure Extraction where
  catalog : Catalog
  result : Except RegistrationFault ExtractionTally
  notices : List ExtractionNotice

namespace Extraction

def ofRun : ExtractionRun × Option RegistrationFault → Extraction
  | (run, none) => ⟨run.catalog, .ok run.tally, run.notices⟩
  | (run, some fault) => ⟨run.catalog, .error fault, run.notices⟩

def ofDeclarations (options : ExtractionOptions) (catalog : Catalog)
    (declarations : List Declaration) : Extraction :=
  ofRun (ExtractionRun.follow options.strictNames { catalog } (findingsOf options declarations))

def closed (extraction : Extraction) : Extraction :=
  match extraction.result with
  | .ok tally => { extraction with notices := extraction.notices ++ [.converted tally] }
  | .error _ => extraction

def eachOf (options : ExtractionOptions) : Catalog → List Declaration →
    List (Except RegistrationFault ExtractionTally)
  | _, [] => []
  | catalog, declaration :: rest =>
    let extraction := ofDeclarations options catalog [declaration]
    extraction.result :: eachOf options extraction.catalog rest

def log (extraction : Extraction) : List LogLine :=
  extraction.notices.map ExtractionNotice.line

end Extraction
end SwiftLens
