import SwiftLens.Catalog.Listing
import SwiftLens.Extraction
import SwiftLens.FileTree
import SwiftLens.Lens.Generation
import SwiftLens.SourceFile

namespace SwiftLens

inductive GenerationError
  | parse (error : ParseError)
  | extraction (fault : RegistrationFault)
  | fileSystem (error : FileError)
  | unusableName (unusable : UnusableName)
deriving DecidableEq, Repr

def GenerationError.message : GenerationError → String
  | parse error => s!"source parse error: {error.message}"
  | extraction fault => s!"type extraction error: {fault.message}"
  | fileSystem error => s!"IO error: {error.message}"
  | unusableName unusable => unusable.message

namespace Artifact

def ofTypes (settings : LensSettings) (package : String) (types : List SemanticType) :
    Reported (Except GenerationError (List Artifact)) :=
  match Generation.ofTypes settings package types with
  | .ok generation => ⟨.ok generation.artifacts, generation.log⟩
  | .error unusable => ⟨.error (.unusableName unusable), []⟩

def ofSource (source package : String) : Reported (Except GenerationError (List Artifact)) :=
  match SourceFile.parse source with
  | .error error => ⟨.error (.parse error), []⟩
  | .ok file =>
    let extraction := (Extraction.ofDeclarations {} .empty file.declarations).closed
    match extraction.result with
    | .error fault => ⟨.error (.extraction fault), extraction.log⟩
    | .ok _ =>
      let generated := ofTypes {} package extraction.catalog.currentTypes
      ⟨generated.value.map (sortByText fileName), extraction.log ++ generated.log⟩

def ofFile (files : FileTree) (path package : String) :
    Reported (Except GenerationError (List Artifact)) :=
  match files.readText path with
  | .ok source => ofSource source package
  | .error error => ⟨.error (.fileSystem error), []⟩

end Artifact
end SwiftLens
