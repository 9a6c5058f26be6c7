import SwiftLens.Declaration.Pattern

namespace SwiftLens

open SwiftLens.Parser

namespace Declaration

inductive Keyword
  | composite (kind : Composite.Kind)
  | importPath
  | enumeration
  | protocol
  | extension
  | letDeclaration
  | varDeclaration
  | function
  | initializer
  | deinitializer
  | subscript
  | typeAlias
  | associatedType
  | operator
  | precedenceGroup
deriving DecidableEq, Repr

def Keyword.ofWord? (word : String) : Option Keyword :=
  match word with
  | "class" => some (composite .classType)
  | "struct" => some (composite .structType)
  | "actor" => some (composite .actorType)
  | "import" => some importPath
  | "enum" => some enumeration
  | "protocol" => some protocol
  | "extension" => some extension
  | "let" => some letDeclaration
  | "var" => some varDeclaration
  | "func" => some function
  | "init" => some initializer
  | "deinit" => some deinitializer
  | "subscript" => some subscript
  | "typealias" => some typeAlias
  | "associatedtype" => some associatedType
  | "operator" => some operator
  | "precedencegroup" => some precedenceGroup
  | _ => none

def compilerControlLine : Parser Declaration := do
  let _ ← expect .hash "'#'"
  let directive ← expect .identifier "compiler directive"
  let condition ← takeWhile fun token => !token.isNewline
  if condition.isEmpty then return compilerControl directive.text none
  else return compilerControl directive.text (some (Token.slice condition))

def importKinds : List String :=
  ["typealias", "struct", "class", "enum", "protocol", "let", "var", "func"]

def importKind? : Parser (Option String) := do
  let word ← takeIf fun token rest =>
    token.kind == .identifier && importKinds.contains token.text &&
      Token.kindAt 0 rest == some .identifier
  return word.map (·.text)

def importNames : Parser (List String) :=
  fix fun more => do
    let name ← Name.parse
    if ← accept .dot then return name.spelling :: (← more)
    else return [name.spelling]

/-- The names of generic parameters, given what follows their opening bracket. Inside `depth`
further brackets and behind a colon stand constraints, and `each` marks a pack. -/
def genericNames : Nat → Bool → List Token → Option (List String × List Token)
  | _, _, [] => none
  | depth, awaiting, token :: rest =>
    match token.kind with
    | .less => genericNames (depth + 1) awaiting rest
    | .greater =>
      match depth with
      | 0 => some ([], rest)
      | depth + 1 => genericNames depth awaiting rest
    | .comma => genericNames depth (awaiting || depth == 0) rest
    | .identifier =>
      if depth == 0 && awaiting && token.text != "each" then
        (genericNames depth false rest).map fun (names, after) => (token.text :: names, after)
      else genericNames depth awaiting rest
    | _ => genericNames depth awaiting rest

def genericParameters : Parser (List String) := do
  if ← accept .less then
    fun tokens =>
      match genericNames 0 true tokens with
      | some (names, rest) => .ok (names, rest)
      | none => .error ⟨"'>'", []⟩
  else
    return []

def primaryAssociatedTypes : Parser Unit := do
  if ← accept .less then
    let _ ← closeGroup .less

/-- Nothing for a suppressed conformance such as `~Copyable`, nor for a type that is no name. -/
def supertype : Parser (List TypePath) := do
  if ← acceptIf fun token _ => token.kind == .operator && token.text == "~" then
    let _ ← TypeExpr.parse
    return []
  else
    match ← TypeExpr.parse with
    | .named path => return [path]
    | _ => return []

def supertypes : Parser (List TypePath) :=
  fix fun more => do
    newlines
    Attribute.skipAll
    let listed ← supertype
    if ← accept .comma then return listed ++ (← more)
    else return listed

def inheritance? : Parser (Option (List TypePath)) := do
  if ← accept .colon then return some (← supertypes)
  else return none

def whereClause : Parser Unit := do
  if ← ahead fun tokens => (Token.afterNewlines tokens).head?.any (·.isWord "where") then
    dropWhile fun token => token.kind != .leftBrace

def openBody : Parser Unit := do
  newlines
  let _ ← expect .leftBrace "'\x7b'"

def specified (inner : Parser Declaration) : Parser Declaration := do
  if (← nextKind) = some .hash then compilerControlLine
  else
    let attributes ← Attribute.parseAll
    let modifiers ← Modifier.parseAll
    return (← inner).withSpecifiers ⟨attributes, modifiers⟩

def members (inner : Parser Declaration) : Parser (List Declaration) :=
  fix fun more => do
    separators
    if ← accept .rightBrace then return []
    else if (← nextKind) = none then fail "'\x7d'"
    else
      let first ← specified inner
      return first :: (← more)

def payload? : Parser (Option TupleType) := do
  if ← accept .leftParen then return some (← TypeExpr.elements TypeExpr.parse)
  else return none

def enumCase : Parser EnumCase := do
  let name ← Name.parse
  let payload ← payload?
  let rawValue ← initializer?
  return ⟨name, payload, rawValue⟩

def enumCases : Parser (List EnumCase) :=
  fix fun more => do
    let first ← enumCase
    if ← accept .comma then
      newlines
      return first :: (← more)
    else
      return [first]

def enumMember (inner : Parser Declaration) : Parser (EnumMember Declaration) := do
  let attributes ← Attribute.parseAll
  let indirect ← acceptIf fun token rest =>
    token.isWord "indirect" && Token.wordAt 0 rest == some "case"
  if ← acceptWord "case" then return .cases ⟨indirect, ← enumCases⟩
  else
    let modifiers ← Modifier.parseAll
    if ← acceptWord "case" then return .cases ⟨modifiers.contains .indirect, ← enumCases⟩
    else return .declaration ((← inner).withSpecifiers ⟨attributes, modifiers⟩)

def enumMembers (inner : Parser Declaration) : Parser (List (EnumMember Declaration)) :=
  fix fun more => do
    separators
    if ← accept .rightBrace then return []
    else
      match ← nextKind with
      | none => fail "'\x7d'"
      | some .hash =>
        let first ← compilerControlLine
        return .declaration first :: (← more)
      | some _ =>
        let first ← enumMember inner
        return first :: (← more)

def operatorName : List Token → List Token × List Token
  | [] => ([], [])
  | token :: rest =>
    if token.kind == .leftParen || token.kind == .newline then ([], token :: rest)
    else (token :: rest.takeWhile belongs, rest.dropWhile belongs)
where
  belongs (token : Token) : Bool :=
    token.kind != .leftParen && token.kind != .less && token.kind != .newline

def functionName : Parser String := do
  match ← Name.next? with
  | some name => return name.spelling
  | none =>
    let name ← fun tokens => .ok (operatorName tokens)
    if name.isEmpty then fail "function name"
    else return Token.slice name

def afterKeyword (inner : Parser Declaration) : Keyword → Parser Declaration
  | .composite kind => do
    let name ← Name.parse
    let genericParameters ← genericParameters
    let inheritance ← inheritance?
    whereClause
    openBody
    let members ← members inner
    return composite ⟨kind, .none, name, genericParameters, inheritance, members⟩
  | .importPath => do
    let kind ← importKind?
    return importPath kind (← importNames)
  | .enumeration => do
    let name ← Name.parse
    let genericParameters ← genericParameters
    let inheritance ← inheritance?
    whereClause
    openBody
    let members ← enumMembers inner
    return enumeration ⟨.none, name, genericParameters, inheritance, members⟩
  | .protocol => do
    let name ← Name.parse
    primaryAssociatedTypes
    let inheritance ← inheritance?
    whereClause
    openBody
    let members ← members inner
    return protocol ⟨.none, name, inheritance, members⟩
  | .extension => do
    let extended ← TypePath.parse
    let inheritance ← inheritance?
    whereClause
    openBody
    let members ← members inner
    return extension ⟨.none, extended, inheritance, members⟩
  | .letDeclaration => return letDeclaration .none (← Binding.parseAll)
  | .varDeclaration => return varDeclaration .none (← Storage.parse)
  | .function => do
    let name ← functionName
    return function .none name (← signature)
  | .initializer => do
    let failable ← acceptIf fun token _ =>
      token.touches && (token.kind == .question || token.kind == .bang)
    let _ ← signature
    return initializer .none failable
  | .deinitializer => do
    let _ ← signature
    return deinitializer
  | .subscript => do
    let _ ← signature
    return subscript .none
  | .typeAlias => do
    let name ← Name.parse
    let _ ← genericParameters
    let _ ← expect .equal "'='"
    return typeAlias [] name (← TypeExpr.parse)
  | .associatedType => do
    let name ← Name.parse
    let _ ← restOfLine
    return associatedType name
  | .operator => return operator (Token.slice (← restOfLine))
  | .precedenceGroup => do
    let name ← Name.parse
    newlines
    block
    return operator name.spelling

def Keyword.ofToken? (token : Token) : Option Keyword :=
  if token.kind = .identifier then ofWord? token.text else none

def keyword : Parser Keyword := do
  match (← takeIf fun token _ => (Keyword.ofToken? token).isSome).bind Keyword.ofToken? with
  | some keyword => return keyword
  | none => fail "declaration"

def step (inner : Parser Declaration) : Parser Declaration := do
  let keyword ← keyword
  afterKeyword inner keyword

def afterSpecifiers : Parser Declaration :=
  fix step

def parse : Parser Declaration :=
  specified afterSpecifiers

def parseAll : Parser (List Declaration) :=
  fix fun more => do
    separators
    if (← nextKind) = none then return []
    else
      let first ← parse
      return first :: (← more)

end Declaration
end SwiftLens
