import SwiftLens.Modifier
import SwiftLens.TypeExpr

namespace SwiftLens

open SwiftLens.Parser

def Metatype.ofToken? (token : Token) : Option Metatype :=
  if token.kind = .identifier then ofKeyword? token.text else none

namespace TypeExpr

def passingKeywords : List String :=
  ["inout", "borrowing", "consuming", "sending"]

def startsPassedType (tokens : List Token) : Bool :=
  match Token.kindAt 0 tokens with
  | some .identifier | some .leftParen | some .leftBracket => true
  | _ => false

def dropPassing : List Token → List Token
  | [] => []
  | token :: rest =>
    if token.kind == .identifier && passingKeywords.contains token.text && startsPassedType rest then
      dropPassing rest
    else token :: rest

def skipPassing : Parser Unit :=
  fun tokens => .ok ((), dropPassing tokens)

def arguments (inner : Parser TypeExpr) : Parser (List TypeExpr) :=
  fix fun more => do
    let argument ← inner
    if ← accept .comma then return argument :: (← more)
    else return [argument]

def component (inner : Parser TypeExpr) : Parser (TypeComponent TypeExpr) := do
  let name ← Name.parse
  if ← acceptTouching .less then
    let arguments ← arguments inner
    let _ ← expect .greater "'>'"
    return ⟨name, arguments⟩
  else
    return ⟨name, []⟩

def continuesPath (token : Token) (rest : List Token) : Bool :=
  token.kind == .dot &&
    match rest with
    | [] => false
    | next :: _ => (Name.ofToken? next).isSome && (Metatype.ofToken? next).isNone

def path (inner : Parser TypeExpr) : Parser TypePath :=
  fix fun more => do
    let first ← component inner
    if ← acceptIf continuesPath then return first :: (← more)
    else return [first]

/-- The label of a tuple element. Of two names before a colon the second is the label. -/
def label? : Parser (Option String)
  | [] => .ok (none, [])
  | token :: rest =>
    if (Name.ofToken? token).isSome && Token.kindAt 0 rest == some .colon then
      .ok (some token.text, rest.drop 1)
    else if token.kind == .identifier && Token.kindAt 1 rest == some .colon then
      match Token.wordAt 0 rest with
      | some label => .ok (some label, rest.drop 2)
      | none => .ok (none, token :: rest)
    else .ok (none, token :: rest)

def variadicDots : Parser Unit := do
  if ← acceptIf fun token rest => token.kind == .dot && Token.kindAt 0 rest == some .dot then
    dropWhile fun token => token.kind == .dot

def element (inner : Parser TypeExpr) : Parser (TupleElement TypeExpr) := do
  let label ← label?
  let type ← inner
  let _ ← initializer?
  variadicDots
  return ⟨label, type⟩

def elements (inner : Parser TypeExpr) : Parser TupleType :=
  fix fun more => do
    newlines
    if ← accept .rightParen then return []
    let first ← element inner
    newlines
    if ← accept .comma then return first :: (← more)
    let _ ← expect .rightParen "')'"
    return [first]

def skipThrownType : Parser Unit := do
  if ← acceptTouching .leftParen then
    let _ ← closeGroup .leftParen

def effects : Parser (Bool × Bool) :=
  fix fun more => do
    if ← acceptWord "async" then
      let (_, throws) ← more
      return (true, throws)
    else if ← acceptIf fun token _ => token.isWord "throws" || token.isWord "rethrows" then
      skipThrownType
      let (isAsync, _) ← more
      return (isAsync, true)
    else
      return (false, false)

def ofElements : TupleType → TypeExpr
  | [⟨none, type⟩] => type
  | elements => tuple elements

def parenthesized (inner : Parser TypeExpr) : Parser TypeExpr := do
  let elements ← elements inner
  let (isAsync, throws) ← effects
  if ← accept .arrow then return function elements (← inner) isAsync throws
  else return ofElements elements

def arrayOrDictionary (inner : Parser TypeExpr) (first : TypeExpr) : Parser TypeExpr := do
  if ← accept .colon then return dictionary first (← inner)
  else return array first

def bracketed (inner : Parser TypeExpr) : Parser TypeExpr := do
  newlines
  let first ← inner
  newlines
  let type ← arrayOrDictionary inner first
  newlines
  let _ ← expect .rightBracket "']'"
  return type

def startsName (tokens : List Token) : Bool :=
  tokens.head?.any fun token => (Name.ofToken? token).isSome

def primary (inner : Parser TypeExpr) : Parser TypeExpr := do
  if ← accept .leftParen then parenthesized inner
  else if ← accept .leftBracket then bracketed inner
  else if ← ahead startsName then return named (← path inner)
  else fail "type"

/-- Takes the marks after a type: `?` and `!` touch it, a metatype follows a dot. -/
def suffixed (base : TypeExpr) : List Token → TypeExpr × List Token
  | [] => (base, [])
  | token :: rest =>
    if token.kind == .question && token.touches then suffixed (optional base) rest
    else if token.kind == .bang && token.touches then suffixed (implicitlyUnwrapped base) rest
    else if token.kind == .dot then
      match rest with
      | [] => (base, token :: rest)
      | word :: after =>
        match Metatype.ofToken? word with
        | some kind => suffixed (metatype base kind) after
        | none => (base, token :: rest)
    else (base, token :: rest)

def opensConstraint (word : String) (token : Token) (rest : List Token) : Bool :=
  token.isWord word && Token.kindAt 0 rest != some .dot

def part (inner : Parser TypeExpr) : Parser TypeExpr :=
  fix fun more => do
    if ← acceptIf (opensConstraint "some") then return someOf (← more)
    else if ← acceptIf (opensConstraint "any") then return anyOf (← more)
    else
      let base ← primary inner
      fun tokens => .ok (suffixed base tokens)

def furtherParts (inner : Parser TypeExpr) : Parser (List TypeExpr) :=
  fix fun more => do
    if ← accept .ampersand then
      let next ← part inner
      return next :: (← more)
    else
      return []

def ofParts (first : TypeExpr) : List TypeExpr → TypeExpr
  | [] => first
  | others => composition (first :: others)

def step (inner : Parser TypeExpr) : Parser TypeExpr := do
  Attribute.skipAll
  skipPassing
  let first ← part inner
  let others ← furtherParts inner
  return ofParts first others

def parse : Parser TypeExpr :=
  fix step

def afterColon? : Parser (Option TypeExpr) := do
  if ← accept .colon then return some (← parse)
  else return none

end TypeExpr

def TypePath.parse : Parser TypePath :=
  TypeExpr.path TypeExpr.parse

end SwiftLens
