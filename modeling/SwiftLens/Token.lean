namespace SwiftLens

inductive Token.Kind
  | identifier
  | backticked
  | integer
  | float
  | string
  | leftParen
  | rightParen
  | leftBrace
  | rightBrace
  | leftBracket
  | rightBracket
  | comma
  | colon
  | semicolon
  | dot
  | question
  | bang
  | arrow
  | equal
  | at
  | hash
  | ampersand
  | less
  | greater
  | operator
  /-- A line break between two tokens; its gap holds the line feeds and its text is empty. -/
  | newline
  | endOfFile
deriving DecidableEq, Repr

structure Token where
  kind : Token.Kind
  gap : String
  text : String
deriving DecidableEq, Repr

namespace Token

def touches (token : Token) : Bool :=
  token.gap.isEmpty

def isWord (word : String) (token : Token) : Bool :=
  token.kind == .identifier && token.text == word

def source (token : Token) : String :=
  token.gap ++ token.text

def sourceOf : List Token → String
  | [] => ""
  | token :: rest => token.source ++ sourceOf rest

def slice : List Token → String
  | [] => ""
  | token :: rest => token.text ++ sourceOf rest

@[simp]
theorem sourceOf_append (front back : List Token) :
    sourceOf (front ++ back) = sourceOf front ++ sourceOf back := by
  induction front with
  | nil => simp [sourceOf]
  | cons token rest ih => simp [sourceOf, ih, String.append_assoc]

def spansFrom (offset : Nat) : List Token → List (Token × Nat × Nat)
  | [] => []
  | token :: rest =>
    let first := offset + token.gap.utf8ByteSize
    let past := first + token.text.utf8ByteSize
    (token, first, past) :: spansFrom past rest

def spans (tokens : List Token) : List (Token × Nat × Nat) :=
  spansFrom 0 tokens

end Token
end SwiftLens
