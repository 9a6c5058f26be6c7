import SwiftLens.Parser

namespace SwiftLens

namespace Token

def Kind.closing : Kind → Kind
  | .leftParen => .rightParen
  | .leftBracket => .rightBracket
  | .leftBrace => .rightBrace
  | .less => .greater
  | kind => kind

/-- The tokens up to the bracket that closes the current group, and the rest. `depth` groups of the
same bracket are open inside. -/
def splitGroup (opening closing : Kind) : Nat → List Token → Option (List Token × List Token)
  | _, [] => none
  | depth, token :: rest =>
    if token.kind = opening then
      (splitGroup opening closing (depth + 1) rest).map fun (group, after) => (token :: group, after)
    else if token.kind = closing then
      match depth with
      | 0 => some ([token], rest)
      | depth + 1 =>
        (splitGroup opening closing depth rest).map fun (group, after) => (token :: group, after)
    else
      (splitGroup opening closing depth rest).map fun (group, after) => (token :: group, after)

/-- The first accessor of a block observes changes. An accessor attribute is one token after its
`@`. -/
def beginsWithObserver : List Token → Bool
  | [] => false
  | token :: rest =>
    if token.kind = .newline then beginsWithObserver rest
    else if token.kind = .at then
      match rest with
      | [] => false
      | _ :: more => beginsWithObserver more
    else token.isWord "willSet" || token.isWord "didSet"

theorem beginsWithObserver_newline {token : Token} (isBreak : token.kind = .newline)
    (rest : List Token) : beginsWithObserver (token :: rest) = beginsWithObserver rest := by
  rw [beginsWithObserver.eq_def]
  simp [isBreak]

theorem beginsWithObserver_at {token : Token} (isAt : token.kind = .at) (skipped : Token)
    (rest : List Token) :
    beginsWithObserver (token :: skipped :: rest) = beginsWithObserver rest := by
  rw [beginsWithObserver.eq_def]
  simp [isAt]

theorem beginsWithObserver_other {token : Token} (noBreak : token.kind ≠ .newline)
    (notAt : token.kind ≠ .at) (rest : List Token) :
    beginsWithObserver (token :: rest) = (token.isWord "willSet" || token.isWord "didSet") := by
  rw [beginsWithObserver.eq_def]
  simp [noBreak, notAt]

def opensObservers (tokens : List Token) : Bool :=
  match afterNewlines tokens with
  | [] => false
  | token :: body => token.kind == .leftBrace && beginsWithObserver body

end Token

namespace Parser

def closeGroup (opening : Token.Kind) : Parser (List Token) :=
  fun tokens =>
    match Token.splitGroup opening opening.closing 0 tokens with
    | some (group, rest) => .ok (group, rest)
    | none => .error ⟨"closing delimiter", []⟩

def block : Parser Unit := do
  let _ ← expect .leftBrace "'\x7b'"
  let _ ← closeGroup .leftBrace

def endsLine (token : Token) : Bool :=
  token.kind == .newline || token.kind == .semicolon || token.kind == .rightBrace

def restOfLine : Parser (List Token) :=
  takeWhile fun token => !endsLine token

def continuesSignature (tokens : List Token) : Bool :=
  match Token.afterNewlines tokens with
  | [] => false
  | token :: _ =>
    token.kind == .leftBrace || token.kind == .arrow || token.isWord "where" ||
      token.isWord "throws" || token.isWord "rethrows" || token.isWord "async"

def inSignature (token : Token) (rest : List Token) : Bool :=
  match token.kind with
  | .rightBrace | .semicolon => false
  | .newline => continuesSignature rest
  | _ => true

def signatureStep : Parser (Option Bool) := do
  if ← accept .leftParen then
    let _ ← closeGroup .leftParen
    return none
  else if ← accept .leftBracket then
    let _ ← closeGroup .leftBracket
    return none
  else if ← accept .leftBrace then
    let _ ← closeGroup .leftBrace
    return some true
  else if ← acceptIf inSignature then return none
  else return some false

def signature : Parser Bool :=
  fix fun more => do
    match ← signatureStep with
    | some hasBody => return hasBody
    | none => more

def continuesExpression (tokens : List Token) : Bool :=
  match Token.kindAt 0 (Token.afterNewlines tokens) with
  | some .dot | some .operator | some .equal | some .question | some .ampersand | some .less
  | some .greater | some .arrow => true
  | _ => false

def opensGroup (token : Token) (rest : List Token) : Bool :=
  match token.kind with
  | .leftParen | .leftBracket => true
  | .leftBrace => !Token.opensObservers (token :: rest)
  | _ => false

def inExpression (token : Token) (rest : List Token) : Bool :=
  match token.kind with
  | .comma | .semicolon | .rightParen | .rightBracket | .rightBrace | .leftBrace => false
  | .newline => continuesExpression rest
  | _ => true

def expressionPiece : Parser (List Token) := do
  match ← takeIf opensGroup with
  | some bracket => return bracket :: (← closeGroup bracket.kind)
  | none =>
    match ← takeIf inExpression with
    | some token => return [token]
    | none => return []

/-- Consumes the tokens of an expression. It ends before a comma, a semicolon, a closing bracket, a
line break that no operator follows, or a block of observers. -/
def expressionTokens : Parser (List Token) :=
  fix fun more => do
    let piece ← expressionPiece
    if piece.isEmpty then return []
    else return piece ++ (← more)

def expression : Parser String := do
  let tokens ← expressionTokens
  if tokens.isEmpty then fail "expression"
  else return Token.slice tokens

def initializer? : Parser (Option String) := do
  if ← accept .equal then return some (← expression)
  else return none

end Parser
end SwiftLens
