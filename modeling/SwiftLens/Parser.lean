import SwiftLens.Token

namespace SwiftLens

structure Mismatch where
  expected : String
  rest : List Token

def Parser (α : Type) : Type :=
  List Token → Except Mismatch (α × List Token)

namespace Parser

variable {α β : Type}

@[inline]
protected def pure (value : α) : Parser α :=
  fun tokens => .ok (value, tokens)

@[inline]
protected def bind (first : Parser α) (next : α → Parser β) : Parser β :=
  fun tokens =>
    match first tokens with
    | .error mismatch => .error mismatch
    | .ok (value, rest) => next value rest

instance : Monad Parser where
  pure := Parser.pure
  bind := Parser.bind

def fail (expected : String) : Parser α :=
  fun tokens => .error ⟨expected, tokens⟩

def ahead (view : List Token → α) : Parser α :=
  fun tokens => .ok (view tokens, tokens)

def takeIf (passes : Token → List Token → Bool) : Parser (Option Token)
  | [] => .ok (none, [])
  | token :: rest =>
    if passes token rest then .ok (some token, rest) else .ok (none, token :: rest)

def acceptIf (passes : Token → List Token → Bool) : Parser Bool := do
  return (← takeIf passes).isSome

def accept (kind : Token.Kind) : Parser Bool :=
  acceptIf fun token _ => token.kind == kind

def acceptTouching (kind : Token.Kind) : Parser Bool :=
  acceptIf fun token _ => token.kind == kind && token.touches

def acceptWord (word : String) : Parser Bool :=
  acceptIf fun token _ => token.isWord word

def expect (kind : Token.Kind) (expected : String) : Parser Token := do
  match ← takeIf fun token _ => token.kind == kind with
  | some token => return token
  | none => fail expected

def dropWhile (passes : Token → Bool) : Parser Unit :=
  fun tokens => .ok ((), tokens.dropWhile passes)

def takeWhile (passes : Token → Bool) : Parser (List Token) :=
  fun tokens => .ok (tokens.takeWhile passes, tokens.dropWhile passes)

def fixWithin (step : Parser α → Parser α) : Nat → Parser α
  | 0 => fail ""
  | depth + 1 => fun tokens => step (fixWithin step depth) tokens

/-- The parser that is its own step. Each call has fewer tokens than the one before, so their
number bounds the depth of recursion and the cut is never met. -/
def fix (step : Parser α → Parser α) : Parser α :=
  fun tokens => fixWithin step (tokens.length + 1) tokens

end Parser

namespace Token

def kindAt (index : Nat) (tokens : List Token) : Option Kind :=
  tokens[index]?.map (·.kind)

def wordAt (index : Nat) (tokens : List Token) : Option String :=
  match tokens[index]? with
  | some token => if token.kind = .identifier then some token.text else none
  | none => none

def isNewline (token : Token) : Bool :=
  token.kind == .newline

def isSeparator (token : Token) : Bool :=
  token.kind == .newline || token.kind == .semicolon

def afterNewlines (tokens : List Token) : List Token :=
  tokens.dropWhile isNewline

end Token

namespace Parser

def nextKind : Parser (Option Token.Kind) :=
  ahead (Token.kindAt 0)

def newlines : Parser Unit :=
  dropWhile Token.isNewline

def separators : Parser Unit :=
  dropWhile Token.isSeparator

end Parser
end SwiftLens
