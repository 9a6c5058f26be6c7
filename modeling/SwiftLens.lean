import SwiftLens.Catalog
import SwiftLens.Catalog.Command
import SwiftLens.Catalog.Listing
import SwiftLens.Collection.OrderedMap
import SwiftLens.Collection.OrderedSet
import SwiftLens.Declaration
import SwiftLens.Declaration.Parser
import SwiftLens.Declaration.Pattern
import SwiftLens.Extraction
import SwiftLens.Extraction.Finding
import SwiftLens.Extraction.Options
import SwiftLens.Extraction.Resolution
import SwiftLens.FileTree
import SwiftLens.FileTree.Path
import SwiftLens.Lens.Artifact
import SwiftLens.Lens.Build
import SwiftLens.Lens.File
import SwiftLens.Lens.Generation
import SwiftLens.Lens.PropertyLens
import SwiftLens.Lens.Settings
import SwiftLens.Lens.WritableName
import SwiftLens.Lens.Writing
import SwiftLens.Log
import SwiftLens.Modifier
import SwiftLens.Name
import SwiftLens.ParseError
import SwiftLens.Parser
import SwiftLens.Parser.Laws
import SwiftLens.Parser.Skip
import SwiftLens.Relation
import SwiftLens.SemanticType
import SwiftLens.SourceFile
import SwiftLens.Text.Blank
import SwiftLens.Text.CharRange
import SwiftLens.Text.Letter
import SwiftLens.Text.Numeral
import SwiftLens.Text.Position
import SwiftLens.Text.Split
import SwiftLens.Text.Utf8
import SwiftLens.Token
import SwiftLens.Token.Lexeme
import SwiftLens.Token.Lexer
import SwiftLens.Token.StringLiteral
import SwiftLens.Token.Trivia
import SwiftLens.TypeExpr
import SwiftLens.TypeExpr.Parser
import SwiftLens.Workbench
import SwiftLens.Proofs.Extraction.Steps
import SwiftLens.Proofs.Extraction.Coherence
import SwiftLens.Proofs.Extraction.Meaning
import SwiftLens.Proofs.Concatenation.Fresh
import SwiftLens.Proofs.Concatenation.Declarations
import SwiftLens.Proofs.Concatenation.Files
import SwiftLens.Proofs.Outline.Extraction
import SwiftLens.Proofs.Lens.Laws
import SwiftLens.Proofs.Lens.CurrentFiles
import SwiftLens.Proofs.Tokens.Tiling
import SwiftLens.Proofs.Layout.Files
import SwiftLens.Proofs.Extraction.Strictness
import SwiftLens.Proofs.Extraction.Journal
import SwiftLens.Proofs.Extraction.Convergence
import SwiftLens.Proofs.Extraction.Independence
import SwiftLens.Proofs.Lens.Lines
import SwiftLens.Proofs.Lens.Template
import SwiftLens.Proofs.Extraction.Visibility
import SwiftLens.Proofs.Tokens.Spelling
import SwiftLens.Proofs.Trees.Declarations
import SwiftLens.Proofs.Safety.Files
import SwiftLens.Proofs.Printing.Roundtrip
import SwiftLens.Proofs.Catalog.History
import SwiftLens.Proofs.Extraction.Accounting
import SwiftLens.Proofs.Lens.LastWritable
import SwiftLens.Proofs.Bodies.Skipped
import SwiftLens.Proofs.Tokens.Respaced
import SwiftLens.Proofs.Bodies.Initializers
import SwiftLens.Proofs.Lens.Reread
import SwiftLens.Proofs.Catalog.Sorted
import SwiftLens.Proofs.Lens.FromSource
import SwiftLens.Proofs.Lens.Rendering
import SwiftLens.Proofs.Extraction.Containers
import SwiftLens.Proofs.Lens.Confinement
import SwiftLens.Proofs.Errors.Located
