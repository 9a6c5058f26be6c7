import SwiftLens.Lens.Writing
import SwiftLens.Proofs.Lens.LastWritable
import SwiftLens.Proofs.Lens.Template

namespace SwiftLens

structure PlainPath where
  fromRoot : Bool
  steps : List PathStep
deriving DecidableEq, Repr

namespace PlainPath

def ofText (path : String) : PlainPath :=
  ⟨path.toList.head? == some '/', (splitText '/' path).filterMap PathStep.ofPart?⟩

def child (path : PlainPath) (name : String) : PlainPath :=
  { path with steps := path.steps ++ [.into name] }

def LeadsTo (path other : PlainPath) : Prop :=
  path.fromRoot = other.fromRoot ∧ path.steps <+: other.steps

end PlainPath

structure PathMap where
  contents : PlainPath → Option ByteArray
  isDirectory : PlainPath → Prop

/-- The error by which a call fails, if it fails. It may depend on all that the call sees. -/
structure Refusals where
  makesDirectories : PathMap → String → Option FileError
  writes : PathMap → String → ByteArray → Option FileError

namespace PathMap

def store (files : PathMap) (path : String) (bytes : ByteArray) : PathMap :=
  { files with contents := fun other =>
      if other = .ofText path then some bytes else files.contents other }

def addDirectories (files : PathMap) (path : String) : PathMap :=
  { files with isDirectory := fun other => files.isDirectory other ∨ other.LeadsTo (.ofText path) }

def fileSystem (refusals : Refusals) : FileSystem PathMap where
  makeDirectories files path :=
    match refusals.makesDirectories files path with
    | some error => (files, .error error)
    | none => (files.addDirectories path, .ok ())
  write files path bytes :=
    match refusals.writes files path bytes with
    | some error => .error error
    | none => .ok (files.store path bytes)

end PathMap

structure IsFileName (name : String) : Prop where
  noSlash : '/' ∉ name.toList
  visible : PathStep.ofPart? name = some (.into name)

theorem IsFileName.of_start {name : String} {first : Char} {rest : List Char}
    (noSlash : '/' ∉ name.toList) (chars : name.toList = first :: rest) (noDot : first ≠ '.') :
    IsFileName name where
  noSlash := noSlash
  visible := by
    have filled : name ≠ "" := by
      rintro rfl
      cases chars
    have noSelf : name ≠ "." := by
      rintro rfl
      exact noDot (List.cons.inj chars).1.symm
    have noParent : name ≠ ".." := by
      rintro rfl
      exact noDot (List.cons.inj chars).1.symm
    unfold PathStep.ofPart?
    split <;> simp_all

theorem splitText_concat {name : String} (noSlash : '/' ∉ name.toList) (directory : String) :
    splitText '/' (directory ++ "/" ++ name) = splitText '/' directory ++ [name] := by
  have chars : (directory ++ "/" ++ name).toList = directory.toList ++ '/' :: name.toList := by
    simp
  rw [splitText, splitText, chars, splitChars_append_cons, splitChars_of_not_mem noSlash]
  simp

namespace PlainPath

theorem steps_joinPath {name : String} (isName : IsFileName name) (directory : String) :
    (ofText (joinPath directory name)).steps = (ofText directory).steps ++ [.into name] := by
  have named : [name].filterMap PathStep.ofPart? = [.into name] := by
    simp [isName.visible]
  simp only [ofText, joinPath]
  split
  · next opened =>
    rw [Bool.or_eq_true, String.isEmpty_iff, beq_iff_eq] at opened
    rcases opened with rfl | slash
    · have alone : splitText '/' ("" ++ name) = [name] := by
        simp [splitText, splitChars_of_not_mem isName.noSlash]
      rw [alone, named]
      rfl
    · -- A slash at the end parts off an empty text, which is no step.
      obtain ⟨front, chars⟩ := List.getLast?_eq_some_iff.mp slash
      have split : directory = String.ofList front ++ "/" ++ "" := by
        rw [← String.toList_inj, chars]
        simp
      have joined : directory ++ name = String.ofList front ++ "/" ++ name := by
        rw [split, String.append_empty]
      have ended : splitText '/' directory = splitText '/' (String.ofList front) ++ [""] := by
        rw [split, splitText_concat (by simp)]
      rw [joined, splitText_concat isName.noSlash, ended, List.filterMap_append, named,
        List.filterMap_append]
      simp [PathStep.ofPart?]
  · rw [splitText_concat isName.noSlash, List.filterMap_append, named]

theorem fromRoot_joinPath {name : String} (isName : IsFileName name) (directory : String) :
    (ofText (joinPath directory name)).fromRoot = (ofText directory).fromRoot := by
  have further : ∀ other : String, directory ≠ "" →
      (directory ++ other).toList.head? = directory.toList.head? := by
    intro other filled
    cases chars : directory.toList with
    | nil => exact absurd (String.toList_eq_nil_iff.mp chars) filled
    | cons first rest => simp [chars]
  simp only [ofText, joinPath]
  by_cases filled : directory = ""
  · subst filled
    have noSlash : name.toList.head? ≠ some '/' := fun first =>
      isName.noSlash (List.mem_of_mem_head? first)
    simp [noSlash]
  · split
    · rw [further name filled]
    · rw [String.append_assoc, further _ filled]

theorem ofText_joinPath {name : String} (isName : IsFileName name) (directory : String) :
    ofText (joinPath directory name) = (ofText directory).child name := by
  rw [child, ← steps_joinPath isName, ← fromRoot_joinPath isName]

end PlainPath

/-- The file of a structure is named by one name, if the settings have no slash. -/
theorem Structure.Writable.isFileName {described : StructureType} (writable : described.Writable)
    {settings : LensSettings} (suffix : '/' ∉ settings.suffix.toList)
    (extension : '/' ∉ settings.extension.toList) :
    IsFileName (settings.fileName described.name) := by
  obtain ⟨first, rest, chars, starts, continues⟩ := Lexeme.isWord_iff.mp writable.isWord_name
  have firstVisible : first ≠ '.' ∧ first ≠ '/' := by
    constructor
    · rintro rfl
      rw [Lexeme.startsIdentifier_ascii (by decide)] at starts
      exact absurd starts (by decide)
    · rintro rfl
      rw [Lexeme.startsIdentifier_ascii (by decide)] at starts
      exact absurd starts (by decide)
  have restVisible : '/' ∉ rest := by
    intro member
    have continued := List.all_eq_true.mp continues '/' member
    rw [Lexeme.continuesIdentifier_ascii (by decide)] at continued
    exact absurd continued (by decide)
  have whole : (settings.fileName described.name).toList =
      first :: (rest ++ settings.suffix.toList ++ '.' :: settings.extension.toList) := by
    simp [LensSettings.fileName, LensSettings.className, chars]
  refine .of_start ?_ whole firstVisible.1
  rw [whole]
  simp [firstVisible.2.symm, restVisible, suffix, extension]

namespace Artifact

def storeAll (directory : String) (files : PathMap) (artifacts : List Artifact) : PathMap :=
  artifacts.foldl
    (fun current artifact => current.store (artifact.path directory) artifact.contents.toUTF8) files

def Accepted (refusals : Refusals) (directory : String) (files : PathMap)
    (artifacts : List Artifact) : Prop :=
  ∀ before artifact after, artifacts = before ++ artifact :: after →
    refusals.writes (storeAll directory files before) (artifact.path directory)
      artifact.contents.toUTF8 = none

theorem storeAll_cons (directory : String) (files : PathMap) (artifact : Artifact)
    (rest : List Artifact) :
    storeAll directory files (artifact :: rest) =
      storeAll directory (storeAll directory files [artifact]) rest :=
  rfl

section Stored

variable {directory : String}

theorem contents_storeAll_of_ne {files : PathMap} {artifacts : List Artifact}
    {place : PlainPath}
    (other : ∀ artifact ∈ artifacts, place ≠ PlainPath.ofText (artifact.path directory)) :
    (storeAll directory files artifacts).contents place = files.contents place := by
  induction artifacts generalizing files with
  | nil => rfl
  | cons artifact rest ih =>
    obtain ⟨differs, others⟩ := List.forall_mem_cons.mp other
    rw [storeAll_cons, ih others]
    simp [storeAll, PathMap.store, differs]

theorem contents_storeAll_of_mem {files : PathMap} {artifacts : List Artifact}
    (distinct : (artifacts.map fun artifact => PlainPath.ofText (artifact.path directory)).Nodup)
    {artifact : Artifact} (member : artifact ∈ artifacts) :
    (storeAll directory files artifacts).contents (PlainPath.ofText (artifact.path directory)) =
      some artifact.contents.toUTF8 := by
  induction artifacts generalizing files with
  | nil => cases member
  | cons first rest ih =>
    rw [List.map_cons, List.nodup_cons] at distinct
    rcases List.mem_cons.mp member with rfl | later
    · have untouched : ∀ other ∈ rest,
          PlainPath.ofText (artifact.path directory) ≠ PlainPath.ofText (other.path directory) := by
        intro other listed same
        exact distinct.1 (List.mem_map.mpr ⟨other, listed, same.symm⟩)
      rw [storeAll_cons, contents_storeAll_of_ne untouched]
      simp [storeAll, PathMap.store]
    · exact ih distinct.2 later

theorem isDirectory_storeAll (files : PathMap) (artifacts : List Artifact) :
    (storeAll directory files artifacts).isDirectory = files.isDirectory := by
  induction artifacts generalizing files with
  | nil => rfl
  | cons artifact rest ih => exact ih _

end Stored

section Runs

variable {refusals : Refusals} {directory : String}

theorem accepted_nil (files : PathMap) : Accepted refusals directory files [] := by
  intro before artifact after split
  simp at split

theorem accepted_cons {files : PathMap} {artifact : Artifact} {rest : List Artifact} :
    Accepted refusals directory files (artifact :: rest) ↔
      refusals.writes files (artifact.path directory) artifact.contents.toUTF8 = none ∧
        Accepted refusals directory (storeAll directory files [artifact]) rest := by
  constructor
  · intro accepted
    refine ⟨accepted [] artifact rest rfl, ?_⟩
    rintro before other after rfl
    exact accepted (artifact :: before) other after rfl
  · rintro ⟨first, later⟩ before other after split
    cases before with
    | nil =>
      obtain ⟨rfl, -⟩ := List.cons.inj split
      exact first
    | cons head more =>
      obtain ⟨rfl, splitLater⟩ := List.cons.inj split
      exact later more other after splitLater

/-- Some write is the first that is refused, if not all are accepted. -/
theorem accepted_or_refused (files : PathMap) (artifacts : List Artifact) :
    Accepted refusals directory files artifacts ∨
      ∃ before failed after error, artifacts = before ++ failed :: after ∧
        Accepted refusals directory files before ∧
          refusals.writes (storeAll directory files before) (failed.path directory)
            failed.contents.toUTF8 = some error := by
  induction artifacts generalizing files with
  | nil => exact .inl (accepted_nil files)
  | cons artifact rest ih =>
    cases answer : refusals.writes files (artifact.path directory) artifact.contents.toUTF8 with
    | some error => exact .inr ⟨[], artifact, rest, error, rfl, accepted_nil files, answer⟩
    | none =>
      rcases ih (storeAll directory files [artifact]) with
        all | ⟨before, failed, after, error, rfl, accepted, refused⟩
      · exact .inl (accepted_cons.mpr ⟨answer, all⟩)
      · exact .inr ⟨artifact :: before, failed, after, error, rfl,
          accepted_cons.mpr ⟨answer, accepted⟩, refused⟩

theorem writeEach_cons {files : PathMap} {artifact : Artifact}
    (accepted : refusals.writes files (artifact.path directory) artifact.contents.toUTF8 = none)
    (rest : List Artifact) :
    writeEach (PathMap.fileSystem refusals) directory files (artifact :: rest) =
      let report := writeEach (PathMap.fileSystem refusals) directory
        (storeAll directory files [artifact]) rest
      { files := report.files
        result := report.result.map (artifact.path directory :: ·)
        log := artifact.wroteLine directory :: report.log } := by
  rw [writeEach]
  simp only [PathMap.fileSystem, accepted]
  rfl

/-- After writes that are accepted, the others go on with the files that these have left. -/
theorem writeEach_append {files : PathMap} {before : List Artifact}
    (accepted : Accepted refusals directory files before) (later : List Artifact) :
    let report := writeEach (PathMap.fileSystem refusals) directory
      (storeAll directory files before) later
    (writeEach (PathMap.fileSystem refusals) directory files (before ++ later)).files =
        report.files ∧
      (writeEach (PathMap.fileSystem refusals) directory files (before ++ later)).result =
        report.result.map (before.map (·.path directory) ++ ·) := by
  induction before generalizing files with
  | nil =>
    refine ⟨rfl, ?_⟩
    cases answer : (writeEach (PathMap.fileSystem refusals) directory files later).result <;>
      simp [answer, storeAll, Except.map]
  | cons artifact rest ih =>
    obtain ⟨first, others⟩ := accepted_cons.mp accepted
    obtain ⟨left, answered⟩ := ih others
    rw [List.cons_append, writeEach_cons first, storeAll_cons]
    refine ⟨left, ?_⟩
    dsimp only
    rw [answered]
    cases (writeEach (PathMap.fileSystem refusals) directory
      (storeAll directory (storeAll directory files [artifact]) rest) later).result <;> rfl

theorem writeEach_refused {files : PathMap} {failed : Artifact} {error : FileError}
    (refused : refusals.writes files (failed.path directory) failed.contents.toUTF8 = some error)
    (rest : List Artifact) :
    writeEach (PathMap.fileSystem refusals) directory files (failed :: rest) =
      ⟨files, .error (.fileSystem error), []⟩ := by
  rw [writeEach]
  simp only [PathMap.fileSystem, refused]

end Runs

structure Written (directory : String) (artifacts : List Artifact) (before after : PathMap) :
    Prop where
  files : ∀ artifact ∈ artifacts,
    after.contents (PlainPath.ofText (artifact.path directory)) = some artifact.contents.toUTF8
  others : ∀ place, (∀ artifact ∈ artifacts, place ≠ PlainPath.ofText (artifact.path directory)) →
    after.contents place = before.contents place
  directories : ∀ place, after.isDirectory place ↔
    before.isDirectory place ∨ place.LeadsTo (.ofText directory)

theorem written_storeAll {directory : String} {artifacts : List Artifact} (files : PathMap)
    (distinct : (artifacts.map fun artifact => PlainPath.ofText (artifact.path directory)).Nodup) :
    Written directory artifacts files
      (storeAll directory (files.addDirectories directory) artifacts) where
  files artifact member := contents_storeAll_of_mem distinct member
  others place other := contents_storeAll_of_ne other
  directories place := by
    rw [isDirectory_storeAll]
    rfl

/-- Artifacts are written to files of their own in the directory, one after the other and up to the
first that is refused. -/
structure WrittenInOrder (refusals : Refusals) (files : PathMap) (directory : String)
    (artifacts : List Artifact) (report : WriteReport PathMap) : Prop where
  distinct : (artifacts.map fun artifact => PlainPath.ofText (artifact.path directory)).Nodup
  children : ∀ artifact ∈ artifacts, IsFileName artifact.fileName ∧
    PlainPath.ofText (artifact.path directory) =
      (PlainPath.ofText directory).child artifact.fileName
  decided : Accepted refusals directory (files.addDirectories directory) artifacts ∨
    ∃ before failed after error, artifacts = before ++ failed :: after ∧
      Accepted refusals directory (files.addDirectories directory) before ∧
        refusals.writes (storeAll directory (files.addDirectories directory) before)
          (failed.path directory) failed.contents.toUTF8 = some error
  finished : Accepted refusals directory (files.addDirectories directory) artifacts →
    report.result = .ok (artifacts.map (·.path directory)) ∧
      Written directory artifacts files report.files
  stopped : ∀ before failed after error, artifacts = before ++ failed :: after →
    Accepted refusals directory (files.addDirectories directory) before →
    refusals.writes (storeAll directory (files.addDirectories directory) before)
        (failed.path directory) failed.contents.toUTF8 = some error →
      report.result = .error (.fileSystem error) ∧ Written directory before files report.files

/-- What writing leaves of a map of paths, and what it answers. -/
structure WriteConfined (refusals : Refusals) (settings : LensSettings) (files : PathMap)
    (directory package : String) (types : List SemanticType) (report : WriteReport PathMap) :
    Prop where
  unusable : isPlainName package = false →
    report.files = files ∧ report.result = .error (.unusableName ⟨package, .package⟩)
  unmade : ∀ error, isPlainName package = true →
    refusals.makesDirectories files directory = some error →
      report.files = files ∧ report.result = .error (.fileSystem error)
  made : isPlainName package = true → refusals.makesDirectories files directory = none →
    ∃ artifacts, (ofTypes settings package types).value = .ok artifacts ∧
      WrittenInOrder refusals files directory artifacts report

/-- The artifacts of a package have names of their own, each of which is one name of a path. -/
theorem fileNames_of_ofTypes {settings : LensSettings} {package : String}
    (suffix : '/' ∉ settings.suffix.toList) (extension : '/' ∉ settings.extension.toList)
    (plain : isPlainName package = true) (types : List SemanticType) :
    ∃ artifacts, (ofTypes settings package types).value = .ok artifacts ∧
      (artifacts.map (·.fileName)).Nodup ∧ ∀ artifact ∈ artifacts, IsFileName artifact.fileName := by
  obtain ⟨generation, generated, entered⟩ := Generation.ofTypes_contents plain settings types
  have writable : ∀ described ∈ writableStructures types, described.Writable := by
    intro described listed
    simpa using (List.mem_filter.mp listed).2
  have kept := Generation.keepLast_artifacts plain writable entered
  refine ⟨_, value_ofTypes generated, kept.distinct, ?_⟩
  intro artifact member
  obtain ⟨before, described, after, split, -, named, -⟩ := kept.contents artifact member
  rw [named]
  exact (writable described (by simp [split])).isFileName suffix extension

theorem writtenInOrder_writeEach {refusals : Refusals} {directory : String}
    {artifacts : List Artifact} {files : PathMap}
    (distinct : (artifacts.map (·.fileName)).Nodup)
    (named : ∀ artifact ∈ artifacts, IsFileName artifact.fileName) {report : WriteReport PathMap}
    (left : report.files = (writeEach (PathMap.fileSystem refusals) directory
      (files.addDirectories directory) artifacts).files)
    (answered : report.result = (writeEach (PathMap.fileSystem refusals) directory
      (files.addDirectories directory) artifacts).result) :
    WrittenInOrder refusals files directory artifacts report := by
  have children : ∀ artifact ∈ artifacts, PlainPath.ofText (artifact.path directory) =
      (PlainPath.ofText directory).child artifact.fileName :=
    fun artifact member => PlainPath.ofText_joinPath (named artifact member) directory
  have places : artifacts.map (fun artifact => PlainPath.ofText (artifact.path directory)) =
      (artifacts.map (·.fileName)).map (PlainPath.ofText directory).child := by
    rw [List.map_map]
    exact List.map_congr_left children
  have apart : (artifacts.map fun artifact => PlainPath.ofText (artifact.path directory)).Nodup := by
    rw [places]
    apply distinct.map
    intro one other same
    simpa [PlainPath.child] using same
  refine ⟨apart, fun artifact member => ⟨named artifact member, children artifact member⟩,
    accepted_or_refused _ artifacts, ?_, ?_⟩
  · intro accepted
    obtain ⟨stored, returned⟩ := writeEach_append accepted []
    rw [List.append_nil] at stored returned
    rw [left, stored, answered, returned]
    refine ⟨?_, written_storeAll files apart⟩
    simp [writeEach, Except.map, path]
  · rintro before failed after error rfl accepted refused
    obtain ⟨stored, returned⟩ := writeEach_append accepted (failed :: after)
    rw [writeEach_refused refused] at stored returned
    rw [left, stored, answered, returned]
    rw [List.map_append] at apart
    exact ⟨rfl, written_storeAll files (List.nodup_append.mp apart).1⟩

theorem writeAll_of_made {refusals : Refusals} {settings : LensSettings}
    {directory package : String} {types : List SemanticType} {artifacts : List Artifact}
    (files : PathMap)
    (generated : (ofTypes settings package types).value = .ok artifacts)
    (made : refusals.makesDirectories files directory = none) :
    let report := writeAll (PathMap.fileSystem refusals) settings files directory package types
    let written := writeEach (PathMap.fileSystem refusals) directory
      (files.addDirectories directory) artifacts
    report.files = written.files ∧ report.result = written.result := by
  unfold writeAll
  simp only [generated, PathMap.fileSystem, made]
  exact ⟨trivial, trivial⟩

/-- Writing is confined to the files of the output directory, in the order of the artifacts. -/
theorem writeAll_confined {settings : LensSettings} (suffix : '/' ∉ settings.suffix.toList)
    (extension : '/' ∉ settings.extension.toList) (refusals : Refusals) (files : PathMap)
    (directory package : String) (types : List SemanticType) :
    WriteConfined refusals settings files directory package types
      (writeAll (PathMap.fileSystem refusals) settings files directory package types) := by
  constructor
  · intro unusable
    have refused : (ofTypes settings package types).value =
        .error (.unusableName ⟨package, .package⟩) := by
      simp [ofTypes, Generation.ofTypes, LensFile.checkPackage, unusable, bind, Except.bind]
    unfold writeAll
    simp only [refused]
    exact ⟨trivial, trivial⟩
  · intro error plain unmade
    obtain ⟨artifacts, generated, -⟩ := fileNames_of_ofTypes suffix extension plain types
    unfold writeAll
    simp only [generated, PathMap.fileSystem, unmade]
    exact ⟨trivial, trivial⟩
  · intro plain made
    obtain ⟨artifacts, generated, distinct, named⟩ :=
      fileNames_of_ofTypes suffix extension plain types
    obtain ⟨left, answered⟩ := writeAll_of_made files generated made
    exact ⟨artifacts, generated, writtenInOrder_writeEach distinct named left answered⟩

def withoutRoom : Refusals where
  makesDirectories _ _ := none
  writes _ path _ := if path = "out/RoomMicroscope.swift" then some .isDirectory else none

def emptyDisk : PathMap where
  contents _ := none
  isDirectory _ := False

/-- The file of the room is refused after that of the lamp has been written. -/
theorem writeAll_confined_room :
    '/' ∉ "Microscope".toList ∧ '/' ∉ "swift".toList ∧
      ∃ report, writeAll (PathMap.fileSystem withoutRoom) {} emptyDisk "out/" "Shapes"
          [lampType "on", roomType] = report ∧
        WriteConfined withoutRoom {} emptyDisk "out/" "Shapes" [lampType "on", roomType] report ∧
        report.result = .error (.fileSystem .isDirectory) ∧
        (report.files.contents (.ofText "out/LampMicroscope.swift")).isSome ∧
        report.files.contents (.ofText "out/RoomMicroscope.swift") = none := by
  have suffix : '/' ∉ "Microscope".toList := by decide
  have extension : '/' ∉ "swift".toList := by decide
  have confined : WriteConfined withoutRoom {} emptyDisk "out/" "Shapes"
      [lampType "on", roomType] _ :=
    writeAll_confined suffix extension withoutRoom emptyDisk "out/" "Shapes"
      [lampType "on", roomType]
  obtain ⟨artifacts, generated, ordered⟩ := confined.made rfl rfl
  obtain ⟨lamp, room, rfl⟩ : ∃ lamp room, artifacts =
      [⟨"LampMicroscope.swift", lamp⟩, ⟨"RoomMicroscope.swift", room⟩] := by
    cases generated
    exact ⟨_, _, rfl⟩
  have lampAccepted : Accepted withoutRoom "out/" (emptyDisk.addDirectories "out/")
      [⟨"LampMicroscope.swift", lamp⟩] := accepted_cons.mpr ⟨rfl, accepted_nil _⟩
  obtain ⟨refused, written⟩ := ordered.stopped _ _ [] .isDirectory rfl lampAccepted rfl
  refine ⟨suffix, extension, _, rfl, confined, refused, ?_, ?_⟩
  · have stored := written.files _ (List.mem_singleton_self _)
    exact Option.isSome_of_eq_some stored
  · apply written.others
    intro artifact listed
    rw [List.mem_singleton.mp listed]
    change PlainPath.ofText "out/RoomMicroscope.swift" ≠ PlainPath.ofText "out/LampMicroscope.swift"
    decide

example : (writeAll (PathMap.fileSystem withoutRoom) {} emptyDisk "out/" "Shapes"
    [lampType "on"]).result = .ok ["out/LampMicroscope.swift"] :=
  rfl

end Artifact
end SwiftLens
