import SwiftLens.Lens.PropertyLens
import SwiftLens.Lens.WritableName

namespace SwiftLens

def unlines (lines : List String) : String :=
  String.join (lines.map (· ++ "\n"))

def LensArgument.text (argument : LensArgument) : String :=
  match argument.origin with
  | .newValue => labelSpelling argument.label ++ ": value"
  | .existing => labelSpelling argument.label ++ ": structure." ++ argument.label

namespace PropertyLens

def typeText (lens : PropertyLens) : String :=
  lens.lensType ++ "<" ++ lens.structureName ++ ", " ++ lens.fieldType ++ ">"

def argumentsText (lens : PropertyLens) : String :=
  ", ".intercalate (lens.arguments.map LensArgument.text)

def lines (lens : PropertyLens) : List String :=
  ["    var " ++ declaredSpelling lens.property ++ ": " ++ lens.typeText ++ " = " ++
      lens.typeText ++ "(",
   "        get:",
   "        \x7b",
   "            (structure: " ++ lens.structureName ++ ") -> " ++ lens.fieldType ++ " in",
   "",
   "            return structure." ++ lens.property,
   "        \x7d,",
   "",
   "        set:",
   "        \x7b",
   "            (structure: " ++ lens.structureName ++ ", value: " ++ lens.fieldType ++ ") -> " ++
      lens.structureName ++ " in",
   "",
   "            return " ++ lens.structureName ++ "(" ++ lens.argumentsText ++ ")",
   "        \x7d",
   "    )"]

end PropertyLens

structure LensFile where
  imports : List String
  accessLevel : String
  className : String
  lenses : List PropertyLens
deriving DecidableEq, Repr

namespace LensFile

def header (file : LensFile) : String :=
  if file.accessLevel.isEmpty then "class " ++ file.className
  else file.accessLevel ++ " class " ++ file.className

def body : List PropertyLens → List String
  | [] => []
  | [lens] => lens.lines
  | lens :: next :: rest => lens.lines ++ "" :: body (next :: rest)

def lines (file : LensFile) : List String :=
  file.imports.map ("import " ++ ·) ++ ["", file.header, "\x7b"] ++ body file.lenses ++ ["\x7d"]

def text (file : LensFile) : String :=
  unlines file.lines

end LensFile
end SwiftLens
