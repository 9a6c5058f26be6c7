import SwiftLens.Declaration
import SwiftLens.TypeExpr.Parser

namespace SwiftLens

open SwiftLens.Parser

namespace Pattern

def ofName (typing : Option TypeExpr) : Name → Pattern
  | .wildcard => wildcard typing
  | name => identifier name typing

def elements (inner : Parser Pattern) : Parser (List Pattern) :=
  fix fun more => do
    newlines
    if ← accept .rightParen then return []
    let first ← inner
    newlines
    if ← accept .comma then return first :: (← more)
    let _ ← expect .rightParen "')'"
    return [first]

def step (inner : Parser Pattern) : Parser Pattern := do
  if ← accept .leftParen then
    let elements ← elements inner
    return tuple elements (← TypeExpr.afterColon?)
  else
    let name ← Name.parse
    return ofName (← TypeExpr.afterColon?) name

def parse : Parser Pattern :=
  fix step

end Pattern

namespace Binding

def parseAll : Parser (List Binding) :=
  fix fun more => do
    let pattern ← Pattern.parse
    let initializer ← initializer?
    if ← accept .comma then
      newlines
      return ⟨pattern, initializer⟩ :: (← more)
    else
      return [⟨pattern, initializer⟩]

end Binding

namespace Storage

/-- Adds an earlier binding; a block of accessors stands for the whole declaration. -/
def afterBinding (binding : Binding) : Storage → Storage
  | stored bindings => stored (binding :: bindings)
  | computed name typing => computed name typing
  | observed name typing initializer => observed name typing initializer

def opensBlock (tokens : List Token) : Bool :=
  Token.kindAt 0 (Token.afterNewlines tokens) == some .leftBrace

def opensObserversHere (tokens : List Token) : Bool :=
  Token.kindAt 0 tokens == some .leftBrace && Token.opensObservers tokens

def accessors (name : Name) (typing : Option TypeExpr) : Parser Storage := do
  if ← ahead Token.opensObservers then
    newlines
    block
    return observed name typing none
  else
    match typing with
    | some type =>
      newlines
      block
      return computed name type
    | none => fail "type annotation on computed property"

def afterPattern (first : Bool) (pattern : Pattern) (more : Parser Storage) : Parser Storage := do
  let initializer ← initializer?
  if first && (← ahead opensObserversHere) then
    match pattern with
    | .identifier name typing =>
      block
      return observed name typing initializer
    | _ => fail "identifier pattern before observers"
  else if ← accept .comma then
    newlines
    return (← more).afterBinding ⟨pattern, initializer⟩
  else
    return stored [⟨pattern, initializer⟩]

def step (first : Bool) (more : Parser Storage) : Parser Storage := do
  let pattern ← Pattern.parse
  match pattern with
  | .identifier name typing =>
    if ← ahead opensBlock then accessors name typing
    else afterPattern first pattern more
  | _ => afterPattern first pattern more

def parse : Parser Storage :=
  step true (fix (step false))

end Storage
end SwiftLens
