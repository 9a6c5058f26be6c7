import SwiftLens.Text.Numeral
import SwiftLens.Text.Split

namespace SwiftLens

def reservedWords : List String :=
  ["Any", "Self", "as", "associatedtype", "await", "break", "case", "catch", "class", "continue",
   "default", "defer", "deinit", "do", "else", "enum", "extension", "fallthrough", "false",
   "fileprivate", "for", "func", "guard", "if", "import", "in", "init", "inout", "internal", "is",
   "let", "nil", "operator", "precedencegroup", "private", "protocol", "public", "repeat",
   "rethrows", "return", "self", "static", "struct", "subscript", "super", "switch", "throw",
   "throws", "true", "try", "typealias", "var", "where", "while"]

def reservedLabels : List String :=
  ["inout", "let", "var"]

def isReserved (name : String) : Bool :=
  reservedWords.contains name

def isIdentifier (name : String) : Bool :=
  match name.toList with
  | [] => false
  | first :: rest =>
    (isLetter first || first == '_') && name != "_" &&
      rest.all fun c => isLetterOrNumeral c || c == '_'

def isPlainName (name : String) : Bool :=
  isIdentifier name && !isReserved name

def dotComponents (name : String) : List String :=
  splitText '.' name

def isTypeName (name : String) : Bool :=
  (dotComponents name).all isPlainName

def inBackticks (name : String) : String :=
  "\x60" ++ name ++ "\x60"

def declaredSpelling (name : String) : String :=
  if isReserved name then inBackticks name else name

def labelSpelling (name : String) : String :=
  if reservedLabels.contains name then inBackticks name else name

end SwiftLens
