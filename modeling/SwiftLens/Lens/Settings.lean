namespace SwiftLens

structure LensSettings where
  suffix : String := "Microscope"
  extension : String := "swift"
  lensType : String := "SimpleLens"
  supportModule : String := "Focus"
  imports : List String := ["Foundation"]
  /-- Stands before the lens class; empty for none. -/
  accessLevel : String := "public"
deriving DecidableEq, Repr

namespace LensSettings

def className (settings : LensSettings) (structureName : String) : String :=
  structureName ++ settings.suffix

def fileName (settings : LensSettings) (structureName : String) : String :=
  settings.className structureName ++ "." ++ settings.extension

end LensSettings
end SwiftLens
