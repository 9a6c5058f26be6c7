import SwiftLens.Parser

namespace SwiftLens

inductive Name
  | plain (text : String)
  | quoted (text : String)
  | wildcard
deriving DecidableEq, Repr

namespace Name

def usable? : Name → Option String
  | plain text => some text
  | quoted text => some text
  | wildcard => none

def spelling : Name → String
  | plain text => text
  | quoted text => "\x60" ++ text ++ "\x60"
  | wildcard => "_"

def ofWord (word : String) : Name :=
  if word = "_" then wildcard else plain word

def ofBackticked (text : String) : Name :=
  quoted (String.ofList (text.toList.drop 1).dropLast)

def ofToken? (token : Token) : Option Name :=
  match token.kind with
  | .identifier => some (ofWord token.text)
  | .backticked => some (ofBackticked token.text)
  | _ => none

def next? : Parser (Option Name) := do
  return (← Parser.takeIf fun token _ => (ofToken? token).isSome).bind ofToken?

def parse : Parser Name := do
  match ← next? with
  | some name => return name
  | none => Parser.fail "identifier"

end Name
end SwiftLens
