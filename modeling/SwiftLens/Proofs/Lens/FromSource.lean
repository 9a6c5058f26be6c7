import SwiftLens.Proofs.Catalog.Sorted
import SwiftLens.Proofs.Concatenation.Files
import SwiftLens.Proofs.Extraction.Independence
import SwiftLens.Proofs.Lens.LastWritable

namespace SwiftLens

def SourceFile.registrations (file : SourceFile) : List (String × TypeDefinition) :=
  Catalog.empty.journal (findingsOf {} file.declarations)

def LastRegistered (registrations : List (String × TypeDefinition)) (name : String)
    (definition : TypeDefinition) : Prop :=
  ∃ before after, registrations = before ++ (name, definition) :: after ∧
    name ∉ after.map Prod.fst

/-- The second file registers other names than the first, and none of its fields is declared with a
choice of the first. -/
structure SourceFile.Apart (file next : SourceFile) : Prop where
  names : ∀ name ∈ (Extraction.ofDeclarations {} .empty file.declarations).names,
    name ∉ (Extraction.ofDeclarations {} .empty next.declarations).names
  unread : ∀ word ∈ fieldWords {} next.declarations,
    word ∉ (Extraction.ofDeclarations {} .empty file.declarations).choiceNames

section Registrations

variable {registrations others : List (String × TypeDefinition)} {name : String}
  {definition : TypeDefinition}

theorem lastRegistered_iff : LastRegistered registrations name definition ↔
    Entries.find? name registrations.reverse = some definition := by
  constructor
  · rintro ⟨before, after, rfl, last⟩
    have absent : name ∉ after.reverse.map Prod.fst := by simpa using last
    simp [Entries.find?_append, Entries.find?_of_not_mem absent, Entries.find?]
  · intro found
    obtain ⟨before, after, reversed, first⟩ := Entries.split_of_find? found
    have turned := congrArg List.reverse reversed
    refine ⟨after.reverse, before.reverse, by simpa using turned, by simpa using first⟩

theorem LastRegistered.mem_names (last : LastRegistered registrations name definition) :
    name ∈ registrations.map Prod.fst := by
  obtain ⟨before, after, rfl, -⟩ := last
  simp

/-- If no name is registered in both lists, each keeps its last registrations. -/
theorem lastRegistered_append
    (apart : ∀ name ∈ registrations.map Prod.fst, name ∉ others.map Prod.fst) :
    LastRegistered (registrations ++ others) name definition ↔
      LastRegistered registrations name definition ∨ LastRegistered others name definition := by
  simp only [lastRegistered_iff, List.reverse_append, Entries.find?_append]
  by_cases listed : name ∈ registrations.map Prod.fst
  · have absent : name ∉ others.reverse.map Prod.fst := by simpa using apart name listed
    simp [Entries.find?_of_not_mem absent]
  · have absent : name ∉ registrations.reverse.map Prod.fst := by simpa using listed
    simp [Entries.find?_of_not_mem absent]

end Registrations

namespace SourceFile

theorem find?_extracted (file : SourceFile) (name : String) :
    (Extraction.ofDeclarations {} .empty file.declarations).catalog.find? name =
      Entries.find? name file.registrations.reverse := by
  rw [Extraction.catalog_ofDeclarations_free rfl, Finding.find?_foldl]
  exact Option.or_none

theorem mem_names_registrations {file : SourceFile} {name : String} :
    name ∈ file.registrations.map Prod.fst ↔
      name ∈ (Extraction.ofDeclarations {} .empty file.declarations).names := by
  rw [mem_names_free rfl, registrations, Catalog.names_journal, List.mem_filterMap]

theorem registrations_append {file next : SourceFile} (apart : file.Apart next) :
    registrations ⟨file.declarations ++ next.declarations⟩ =
      file.registrations ++ next.registrations := by
  have alike := Extraction.seenAlike_after rfl apart.unread
  rw [registrations, findingsOf_append, Catalog.journal_append, Catalog.journal_congr alike]
  rfl

/-- What the joined files register last is what either registers last. -/
theorem lastRegistered_joined {file next : SourceFile} (apart : file.Apart next) {name : String}
    {definition : TypeDefinition} :
    LastRegistered (registrations ⟨file.declarations ++ next.declarations⟩) name definition ↔
      LastRegistered file.registrations name definition ∨
        LastRegistered next.registrations name definition := by
  rw [registrations_append apart]
  apply lastRegistered_append
  intro name here there
  exact apart.names name (mem_names_registrations.mp here) (mem_names_registrations.mp there)

end SourceFile

namespace Artifact

def Current (package : String) (file : SourceFile) (artifact : Artifact) : Prop :=
  ∃ name described, LastRegistered file.registrations name (.ofStructure described) ∧
    artifact.fileName = ({} : LensSettings).fileName name ∧
      LensFile.generate {} package described = .ok artifact.contents

variable {source package : String} {file : SourceFile}

theorem value_ofSource (parsed : SourceFile.parse source = .ok file) :
    (ofSource source package).value =
      (ofTypes {} package (Extraction.ofDeclarations {} .empty
        file.declarations).catalog.currentTypes).value.map (sortByText fileName) := by
  have free : ({} : ExtractionOptions).strictNames = false := rfl
  obtain ⟨tally, finished⟩ :=
    Extraction.result_ofDeclarations_free free .empty file.declarations
  have closed : (Extraction.ofDeclarations {} .empty file.declarations).closed.result = .ok tally ∧
      (Extraction.ofDeclarations {} .empty file.declarations).closed.catalog =
        (Extraction.ofDeclarations {} .empty file.declarations).catalog := by
    simp [Extraction.closed, finished]
  simp only [ofSource, parsed, closed.1, closed.2]

/-- A source that can be read gives the lens files of what it registers last. -/
theorem ofSource_ok (parsed : SourceFile.parse source = .ok file)
    (plain : isPlainName package = true) : ∃ artifacts,
      (ofSource source package).value = .ok artifacts ∧ SortedByText fileName artifacts ∧
        ∀ artifact, artifact ∈ artifacts ↔ Current package file artifact := by
  have coherent : (Extraction.ofDeclarations {} .empty file.declarations).catalog.Coherent :=
    ExtractionCall.run_coherent (.convert {} file) Catalog.coherent_empty
  obtain ⟨generation, generated, -⟩ := Generation.ofTypes_contents plain {}
    (Extraction.ofDeclarations {} .empty file.declarations).catalog.currentTypes
  have covers := Generation.covers_ofTypes coherent.currentStructures_nodup generated
  refine ⟨sortByText fileName generation.artifacts, ?_, ?_, ?_⟩
  · rw [value_ofSource parsed, value_ofTypes generated]
    rfl
  · exact sortedByText_sortByText generation.fileNames_nodup
  · intro artifact
    rw [(sortByText_perm fileName generation.artifacts).mem_iff, Generation.mem_artifacts_iff,
      covers.find?_iff]
    constructor
    · rintro ⟨described, current, sameFile, made⟩
      have stands := coherent.mem_currentStructures_iff.mp current
      rw [file.find?_extracted] at stands
      exact ⟨described.name, described, lastRegistered_iff.mpr stands, sameFile.symm, made⟩
    · rintro ⟨name, described, last, sameFile, made⟩
      have stands := lastRegistered_iff.mp last
      rw [← file.find?_extracted] at stands
      obtain rfl : described.name = name := Option.some.inj (coherent.registered name _ stands).1
      exact ⟨described, coherent.mem_currentStructures_iff.mpr stands, sameFile.symm, made⟩

theorem ofSource_unread {error : ParseError} (unread : SourceFile.parse source = .error error) :
    (ofSource source package).value = .error (.parse error) := by
  simp only [ofSource, unread]

theorem ofSource_unusable (parsed : SourceFile.parse source = .ok file)
    (unusable : isPlainName package = false) :
    (ofSource source package).value = .error (.unusableName ⟨package, .package⟩) := by
  rw [value_ofSource parsed]
  simp [ofTypes, Generation.ofTypes, LensFile.checkPackage, unusable, bind, Except.bind, Except.map]

/-- The lens files of a file: in the order of their names, one for each name that was last
registered as a structure that can be written. -/
structure Reflect (package : String) (file : SourceFile) (artifacts : List Artifact) : Prop where
  ordered : artifacts.Pairwise fun left right =>
    utf8Bytes left.fileName < utf8Bytes right.fileName
  named : ∀ name, (∃ artifact ∈ artifacts, artifact.fileName = ({} : LensSettings).fileName name) ↔
    ∃ described, LastRegistered file.registrations name (.ofStructure described) ∧
      described.Writable
  contents : ∀ artifact ∈ artifacts, Current package file artifact

/-- What comes of a source: its own error, that of the package, or lens files. -/
structure Outcome (source package : String) : Prop where
  unread : ∀ error, (ofSource source package).value = .error (.parse error) ↔
    SourceFile.parse source = .error error
  unusable : ∀ unusable, (ofSource source package).value = .error (.unusableName unusable) ↔
    (∃ file, SourceFile.parse source = .ok file) ∧ isPlainName package = false ∧
      unusable = ⟨package, .package⟩
  unstopped : ∀ fault, (ofSource source package).value ≠ .error (.extraction fault)
  unfiled : ∀ error, (ofSource source package).value ≠ .error (.fileSystem error)
  generated : ∀ artifacts, (ofSource source package).value = .ok artifacts →
    ∃ file, SourceFile.parse source = .ok file ∧ Reflect package file artifacts

theorem reflect_of_current {artifacts : List Artifact} (plain : isPlainName package = true)
    (sorted : SortedByText fileName artifacts)
    (listed : ∀ artifact, artifact ∈ artifacts ↔ Current package file artifact) :
    Reflect package file artifacts := by
  refine ⟨sorted.imp utf8Bytes_lt, fun name => ⟨?_, ?_⟩, fun artifact => (listed artifact).mp⟩
  · rintro ⟨artifact, member, sameFile⟩
    obtain ⟨other, described, last, otherFile, made⟩ := (listed artifact).mp member
    obtain rfl := LensSettings.fileName_inj _ |>.mp (sameFile.symm.trans otherFile)
    obtain ⟨_, built, -⟩ := LensFile.generate_ok_iff.mp made
    exact ⟨described, last, (LensFile.build_ok_iff.mp built).2.1⟩
  · rintro ⟨described, last, writable⟩
    have made : LensFile.generate {} package described =
        .ok (LensFile.fileFor {} package described).text :=
      LensFile.generate_ok_iff.mpr ⟨_, LensFile.build_ok_iff.mpr ⟨plain, writable, rfl⟩, rfl⟩
    exact ⟨⟨_, _⟩, (listed _).mpr ⟨name, described, last, rfl, made⟩, rfl⟩

theorem outcome (source package : String) : Outcome source package := by
  cases parsed : SourceFile.parse source with
  | error error =>
    have failed : (ofSource source package).value = .error (.parse error) := ofSource_unread parsed
    constructor <;> simp [failed, parsed]
  | ok file =>
    cases plain : isPlainName package with
    | false =>
      have failed := ofSource_unusable parsed plain
      constructor <;> simp [failed, parsed, plain, eq_comm]
    | true =>
      obtain ⟨artifacts, made, sorted, listed⟩ := ofSource_ok parsed plain
      have reflect := reflect_of_current plain sorted listed
      constructor <;> simp [made, parsed, plain, reflect]

/-- The lens files of joined files are those of both, in order. -/
theorem ofSource_joined {later : String} {next : SourceFile}
    (parsed : SourceFile.parse source = .ok file) (parsedLater : SourceFile.parse later = .ok next)
    (apart : file.Apart next) {first second : List Artifact}
    (made : (ofSource source package).value = .ok first)
    (madeLater : (ofSource later package).value = .ok second) :
    (ofSource (source ++ "\n" ++ later) package).value =
      .ok (first.merge second (notAfter fileName)) := by
  have plain : isPlainName package = true := by
    by_contra unusable
    rw [ofSource_unusable parsed (by simpa using unusable)] at made
    cases made
  have joined : SourceFile.parse (source ++ "\n" ++ later) =
      .ok ⟨file.declarations ++ next.declarations⟩ := by
    obtain ⟨tokens, rest, scanned, read⟩ := SourceFile.parse_ok parsed
    obtain ⟨tokensLater, restLater, scannedLater, readLater⟩ := SourceFile.parse_ok parsedLater
    obtain ⟨together, remains, scannedTogether, all⟩ :=
      SourceFile.parseAll_join scanned scannedLater read readLater
    exact SourceFile.parse_of_ok (by simpa using scannedTogether) all
  obtain ⟨_, madeToo, sorted, listed⟩ := ofSource_ok parsed plain
  obtain rfl := Except.ok.inj (made.symm.trans madeToo)
  obtain ⟨_, madeLaterToo, sortedLater, listedLater⟩ := ofSource_ok parsedLater plain
  obtain rfl := Except.ok.inj (madeLater.symm.trans madeLaterToo)
  obtain ⟨all, madeAll, sortedAll, listedAll⟩ := ofSource_ok joined plain
  have distinct : ∀ left ∈ first, ∀ right ∈ second, left.fileName ≠ right.fileName := by
    intro left here right there same
    obtain ⟨name, _, last, named, -⟩ := (listed left).mp here
    obtain ⟨other, _, lastLater, namedLater, -⟩ := (listedLater right).mp there
    obtain rfl := (LensSettings.fileName_inj _).mp (named.symm.trans (same.trans namedLater))
    exact apart.names name (SourceFile.mem_names_registrations.mp last.mem_names)
      (SourceFile.mem_names_registrations.mp lastLater.mem_names)
  have merged : all = first.merge second (notAfter fileName) := by
    apply sortedAll.eq_of_mem_iff (sorted.merge sortedLater distinct)
    intro artifact
    rw [List.mem_merge, listed, listedLater, listedAll]
    simp only [Current, SourceFile.lastRegistered_joined apart, or_and_right, exists_or]
  rw [madeAll, merged]

/-- A source gives its own error, that of the package, or the lens files of what it registers last.
Files that do not concern each other are joined with their lens files merged. -/
theorem ofSource_outcome (package : String) :
    (∀ source, Outcome source package) ∧
      ∀ source later file next first second, SourceFile.parse source = .ok file →
        SourceFile.parse later = .ok next → file.Apart next →
          (ofSource source package).value = .ok first →
            (ofSource later package).value = .ok second →
              (ofSource (source ++ "\n" ++ later) package).value =
                .ok (first.merge second (notAfter fileName)) :=
  ⟨fun source => outcome source package,
    fun _ _ _ _ _ _ parsed parsedLater apart => ofSource_joined parsed parsedLater apart⟩

def meterSource : String :=
  "class Meter: Device \x7b\nlet unit: Unit\n\x7d"

def lampSource : String :=
  "struct Lamp: Device \x7b\nlet mode: Mode?\nenum Mode \x7b\x7d\n\x7d"

theorem parse_meterSource : SourceFile.parse meterSource = .ok Extraction.meterFile := by
  have read : tokenize meterSource =
      .ok [⟨.identifier, "", "class"⟩, ⟨.identifier, " ", "Meter"⟩, ⟨.colon, "", ":"⟩,
        ⟨.identifier, " ", "Device"⟩, ⟨.leftBrace, " ", "\x7b"⟩, ⟨.newline, "\n", ""⟩,
        ⟨.identifier, "", "let"⟩, ⟨.identifier, " ", "unit"⟩, ⟨.colon, "", ":"⟩,
        ⟨.identifier, " ", "Unit"⟩, ⟨.newline, "\n", ""⟩, ⟨.rightBrace, "", "\x7d"⟩,
        ⟨.endOfFile, "", ""⟩] := by decide +kernel
  exact SourceFile.parse_of_ok (tokenize_ok read) rfl

theorem parse_lampSource : SourceFile.parse lampSource = .ok Extraction.lampFile := by
  have read : tokenize lampSource =
      .ok [⟨.identifier, "", "struct"⟩, ⟨.identifier, " ", "Lamp"⟩, ⟨.colon, "", ":"⟩,
        ⟨.identifier, " ", "Device"⟩, ⟨.leftBrace, " ", "\x7b"⟩, ⟨.newline, "\n", ""⟩,
        ⟨.identifier, "", "let"⟩, ⟨.identifier, " ", "mode"⟩, ⟨.colon, "", ":"⟩,
        ⟨.identifier, " ", "Mode"⟩, ⟨.question, "", "?"⟩, ⟨.newline, "\n", ""⟩,
        ⟨.identifier, "", "enum"⟩, ⟨.identifier, " ", "Mode"⟩, ⟨.leftBrace, " ", "\x7b"⟩,
        ⟨.rightBrace, "", "\x7d"⟩, ⟨.newline, "\n", ""⟩, ⟨.rightBrace, "", "\x7d"⟩,
        ⟨.endOfFile, "", ""⟩] := by decide +kernel
  exact SourceFile.parse_of_ok (tokenize_ok read) rfl

/-- The second file comes first in the order of the names. -/
theorem ofSource_outcome_lamp :
    SourceFile.parse meterSource = .ok Extraction.meterFile ∧
      SourceFile.parse lampSource = .ok Extraction.lampFile ∧
      Extraction.meterFile.Apart Extraction.lampFile ∧ Outcome lampSource "Shapes" ∧
      ∃ first second, (ofSource meterSource "Shapes").value = .ok first ∧
        (ofSource lampSource "Shapes").value = .ok second ∧
          (ofSource (meterSource ++ "\n" ++ lampSource) "Shapes").value =
            .ok (first.merge second (notAfter fileName)) := by
  have plain : isPlainName "Shapes" = true := by decide
  have apart : Extraction.meterFile.Apart Extraction.lampFile := ⟨by decide, by decide⟩
  obtain ⟨outcomes, merges⟩ := ofSource_outcome "Shapes"
  obtain ⟨first, made, -⟩ := ofSource_ok parse_meterSource plain
  obtain ⟨second, madeLater, -⟩ := ofSource_ok parse_lampSource plain
  exact ⟨parse_meterSource, parse_lampSource, apart, outcomes lampSource, first, second, made,
    madeLater, merges _ _ _ _ _ _ parse_meterSource parse_lampSource apart made madeLater⟩

end Artifact
end SwiftLens
