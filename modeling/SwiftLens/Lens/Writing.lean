import SwiftLens.Lens.Artifact

namespace SwiftLens

/-- What writing needs of a file system whose states are `σ`. Directories that cannot all be made
may leave another state behind; a file that cannot be written leaves the state as it was. -/
structure FileSystem (σ : Type) where
  makeDirectories : σ → String → σ × Except FileError Unit
  write : σ → String → ByteArray → Except FileError σ

def FileTree.fileSystem : FileSystem FileTree :=
  ⟨FileTree.makeDirectories, FileTree.write⟩

/-- What an attempt to write lens files leaves behind. On success it tells the paths of the files. -/
structure WriteReport (σ : Type) where
  files : σ
  result : Except GenerationError (List String)
  log : List LogLine

namespace Artifact

variable {σ : Type}

def path (directory : String) (artifact : Artifact) : String :=
  joinPath directory artifact.fileName

def wroteLine (directory : String) (artifact : Artifact) : LogLine :=
  ⟨.info, s!"Wrote {artifact.path directory}"⟩

def writeEach (system : FileSystem σ) (directory : String) :
    σ → List Artifact → WriteReport σ
  | files, [] => ⟨files, .ok [], []⟩
  | files, artifact :: rest =>
    match system.write files (artifact.path directory) artifact.contents.toUTF8 with
    | .error error => ⟨files, .error (.fileSystem error), []⟩
    | .ok written =>
      let report := writeEach system directory written rest
      { files := report.files
        result := report.result.map (artifact.path directory :: ·)
        log := artifact.wroteLine directory :: report.log }

def writeAll (system : FileSystem σ) (settings : LensSettings) (files : σ)
    (directory package : String) (types : List SemanticType) : WriteReport σ :=
  let generated := ofTypes settings package types
  match generated.value with
  | .error error => ⟨files, .error error, generated.log⟩
  | .ok artifacts =>
    let (made, result) := system.makeDirectories files directory
    match result with
    | .error error => ⟨made, .error (.fileSystem error), generated.log⟩
    | .ok () =>
      let report := writeEach system directory made artifacts
      { report with log := generated.log ++ report.log }

end Artifact
end SwiftLens
