import SwiftLens.Text.Position

namespace SwiftLens

inductive ParseError
  | unexpected (expected found : String) (place : Position)
  | unexpectedEnd (expected : String)
  | unterminatedString (place : Position)
  | unterminatedComment (place : Position)
  | invalidCharacter (character : Char) (place : Position)
deriving DecidableEq, Repr

namespace ParseError

def message : ParseError → String
  | unexpected expected found place => s!"expected {expected}, found '{found}' at {place.text}"
  | unexpectedEnd expected => s!"unexpected end of input, expected {expected}"
  | unterminatedString place => s!"unterminated string literal at {place.text}"
  | unterminatedComment place => s!"unterminated block comment at {place.text}"
  | invalidCharacter character place => s!"invalid character '{character}' at {place.text}"

def place? : ParseError → Option Position
  | unexpected _ _ place => some place
  | unexpectedEnd _ => none
  | unterminatedString place => some place
  | unterminatedComment place => some place
  | invalidCharacter _ place => some place

end ParseError
end SwiftLens
