import SwiftLens.Lens.Writing

namespace SwiftLens

def sourceExtension : String := "swift"

structure Workbench where
  parse : String → Except ParseError SourceFile := SourceFile.parse
  options : ExtractionOptions := {}
  settings : LensSettings := {}

inductive WorkbenchNotice
  | noSourceFile (path : String)
  | notSourceName (path : String)
  | unreadable (path : String) (error : FileError)
  | unparsable (error : ParseError)
  | stopped (fault : RegistrationFault)
deriving DecidableEq, Repr

def WorkbenchNotice.line : WorkbenchNotice → LogLine
  | noSourceFile path => ⟨.debug, s!"No source file at {path}"⟩
  | notSourceName path => ⟨.debug, s!"Not a .{sourceExtension} file: {path}"⟩
  | unreadable path error => ⟨.debug, s!"Failed to read {path}: {error.message}"⟩
  | unparsable error => ⟨.debug, s!"Failed to parse source: {error.message}"⟩
  | stopped fault => ⟨.warn, s!"Type conversion stopped: {fault.message}"⟩

def hasSourceName (path : String) : Bool :=
  match (splitText '/' path).getLast? with
  | none => false
  | some name =>
    match dotComponents name with
    | [stem, last] => stem != "" && last == sourceExtension
    | _ => false

namespace Workbench

def loadSource (bench : Workbench) (source : String) : Reported (Option SourceFile) :=
  match bench.parse source with
  | .ok file => ⟨some file, []⟩
  | .error error => ⟨none, [(WorkbenchNotice.unparsable error).line]⟩

def loadFile (bench : Workbench) (files : FileTree) (path : String) :
    Reported (Option SourceFile) :=
  if !files.isFile path then ⟨none, [(WorkbenchNotice.noSourceFile path).line]⟩
  else if !hasSourceName path then ⟨none, [(WorkbenchNotice.notSourceName path).line]⟩
  else
    match files.readText path with
    | .error error => ⟨none, [(WorkbenchNotice.unreadable path error).line]⟩
    | .ok source => bench.loadSource source

def convert (bench : Workbench) (catalog : Catalog) (file : SourceFile) :
    Catalog × Reported (Option ExtractionTally) :=
  let extraction := (Extraction.ofDeclarations bench.options catalog file.declarations).closed
  match extraction.result with
  | .ok tally => (extraction.catalog, ⟨some tally, extraction.log⟩)
  | .error fault =>
    (extraction.catalog, ⟨none, extraction.log ++ [(WorkbenchNotice.stopped fault).line]⟩)

def generate? (bench : Workbench) (catalog : Catalog) (name package : String) :
    Option (Except GenerationError String) :=
  ((catalog.find? name).bind Definition.structure?).map fun described =>
    (LensFile.generate bench.settings package described).mapError .unusableName

def generateAll (bench : Workbench) (catalog : Catalog) (package : String) :
    Reported (Except GenerationError (List Artifact)) :=
  Artifact.ofTypes bench.settings package catalog.currentTypes

def writeAll (bench : Workbench) (catalog : Catalog) (files : FileTree)
    (directory package : String) : WriteReport FileTree :=
  Artifact.writeAll FileTree.fileSystem bench.settings files directory package catalog.currentTypes

end Workbench
end SwiftLens
