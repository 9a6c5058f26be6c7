import SwiftLens.Collection.OrderedMap
import SwiftLens.Lens.Build
import SwiftLens.Log

namespace SwiftLens

inductive GenerationNotice
  | skipped (structureName : String) (reason : UnusableName)
  | replaced (fileName structureName : String)
deriving DecidableEq, Repr

def GenerationNotice.line : GenerationNotice → LogLine
  | skipped structureName reason =>
    ⟨.warn, s!"Skipping lenses for {structureName}: {reason.message}"⟩
  | replaced fileName structureName =>
    ⟨.warn, s!"Replacing {fileName} with a later definition of {structureName}"⟩

structure Artifact where
  fileName : String
  contents : String
deriving DecidableEq, Repr

structure Generation where
  contents : OrderedMap String String := .empty
  notices : List GenerationNotice := []

namespace Generation

def add (settings : LensSettings) (package : String) (generation : Generation)
    (described : StructureType) : Generation :=
  match LensFile.generate settings package described with
  | .error reason =>
    { generation with notices := generation.notices ++ [.skipped described.name reason] }
  | .ok text =>
    let fileName := settings.fileName described.name
    { contents := generation.contents.insert fileName text
      notices :=
        if generation.contents.contains fileName then
          generation.notices ++ [.replaced fileName described.name]
        else generation.notices }

def ofTypes (settings : LensSettings) (package : String) (types : List SemanticType) :
    Except UnusableName Generation := do
  LensFile.checkPackage package
  return (types.filterMap SemanticType.structure?).foldl (add settings package) {}

def artifacts (generation : Generation) : List Artifact :=
  generation.contents.entries.map fun (fileName, text) => ⟨fileName, text⟩

def log (generation : Generation) : List LogLine :=
  generation.notices.map GenerationNotice.line

end Generation
end SwiftLens
