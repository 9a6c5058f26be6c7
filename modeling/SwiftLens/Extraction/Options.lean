import SwiftLens.Declaration

namespace SwiftLens

structure ExtractionOptions where
  publicOnly : Bool := false
  strictNames : Bool := false
  kinds : List Composite.Kind := [.classType, .structType]
deriving DecidableEq, Repr

namespace ExtractionOptions

def visits (options : ExtractionOptions) (kind : Composite.Kind) : Bool :=
  options.kinds.contains kind

def including (options : ExtractionOptions) (kind : Composite.Kind) : ExtractionOptions :=
  if options.visits kind then options else { options with kinds := options.kinds ++ [kind] }

def admits (options : ExtractionOptions) (specifiers : Specifiers) : Bool :=
  !options.publicOnly || specifiers.isPublic

/-- A stored property with these modifiers is a field of every value. With the filter for public
declarations its modifiers are access levels that reach outside the module, and there is one. -/
def admitsField (options : ExtractionOptions) (modifiers : List Modifier) : Bool :=
  !modifiers.any Modifier.isTypeLevel &&
    (!options.publicOnly ||
      !modifiers.isEmpty && modifiers.all fun modifier =>
        modifier.accessLevel?.any AccessLevel.isPublic)

end ExtractionOptions
end SwiftLens
