import SwiftLens.Text.Blank
import SwiftLens.Parser.Skip

namespace SwiftLens

inductive AccessLevel
  | privateLevel
  | fileprivateLevel
  | internalLevel
  | packageLevel
  | publicLevel
  | openLevel
deriving DecidableEq, Repr

namespace AccessLevel

def keyword : AccessLevel → String
  | privateLevel => "private"
  | fileprivateLevel => "fileprivate"
  | internalLevel => "internal"
  | packageLevel => "package"
  | publicLevel => "public"
  | openLevel => "open"

def ofKeyword? (word : String) : Option AccessLevel :=
  match word with
  | "private" => some privateLevel
  | "fileprivate" => some fileprivateLevel
  | "internal" => some internalLevel
  | "package" => some packageLevel
  | "public" => some publicLevel
  | "open" => some openLevel
  | _ => none

theorem ofKeyword?_keyword (level : AccessLevel) : ofKeyword? level.keyword = some level := by
  cases level <;> rfl

def isPublic : AccessLevel → Bool
  | publicLevel => true
  | openLevel => true
  | _ => false

end AccessLevel

inductive Modifier
  | access (level : AccessLevel)
  | setterAccess (level : AccessLevel)
  | staticMember
  | classMember
  | final
  | override
  | lazy
  | weak
  | unowned
  | mutating
  | nonmutating
  | indirect
  | required
  | convenience
  | dynamic
  | optional
  | nonisolated
  | prefixOperator
  | postfixOperator
  | infixOperator
deriving DecidableEq, Repr

namespace Modifier

def ofKeyword? (word : String) : Option Modifier :=
  match word with
  | "static" => some staticMember
  | "class" => some classMember
  | "final" => some final
  | "override" => some override
  | "lazy" => some lazy
  | "weak" => some weak
  | "unowned" => some unowned
  | "mutating" => some mutating
  | "nonmutating" => some nonmutating
  | "indirect" => some indirect
  | "required" => some required
  | "convenience" => some convenience
  | "dynamic" => some dynamic
  | "optional" => some optional
  | "nonisolated" => some nonisolated
  | "prefix" => some prefixOperator
  | "postfix" => some postfixOperator
  | "infix" => some infixOperator
  | _ => none

def isTypeLevel : Modifier → Bool
  | staticMember => true
  | classMember => true
  | _ => false

def accessLevel? : Modifier → Option AccessLevel
  | access level => some level
  | _ => none

def declaredAccess (modifiers : List Modifier) : Option AccessLevel :=
  modifiers.findSome? accessLevel?

def memberKeywords : List String :=
  ["func", "var", "let", "subscript", "static", "final", "override", "open", "public", "internal",
   "fileprivate", "private", "package", "required", "convenience", "dynamic"]

def leadingAccess? (token : Token) (after : List Token) : Option AccessLevel :=
  if token.kind = .identifier then
    match Token.kindAt 0 after with
    | some .identifier | some .leftParen => AccessLevel.ofKeyword? token.text
    | _ => none
  else none

/-- The modifier that `token` stands for before the tokens `after`. A word is a modifier only if
another follows; `class` needs a member keyword and `indirect` something else than a case. -/
def leading? (token : Token) (after : List Token) : Option Modifier :=
  match leadingAccess? token after with
  | some level => some (access level)
  | none =>
    if token.kind = .identifier then
      match ofKeyword? token.text, Token.wordAt 0 after with
      | some classMember, some following =>
        if memberKeywords.contains following then some classMember else none
      | some indirect, some following => if following = "case" then none else some indirect
      | some modifier, some _ => some modifier
      | _, _ => none
    else none

def next? : Parser (Option Modifier)
  | [] => .ok (none, [])
  | token :: rest =>
    match leading? token rest with
    | some modifier => .ok (some modifier, rest)
    | none => .ok (none, token :: rest)

def opensSetter (token : Token) (rest : List Token) : Bool :=
  token.kind == .leftParen && Token.wordAt 0 rest == some "set"

def withSetter (modifier : Modifier) : Parser Modifier := do
  match modifier with
  | access level =>
    if ← Parser.acceptIf opensSetter then
      let _ ← Parser.acceptWord "set"
      let _ ← Parser.expect .rightParen "')'"
      return setterAccess level
    else return access level
  | other => return other

def parseAll : Parser (List Modifier) :=
  Parser.fix fun more => do
    match ← next? with
    | some modifier =>
      let first ← modifier.withSetter
      return first :: (← more)
    | none => return []

end Modifier

structure Attribute where
  name : String
  arguments : Option String
deriving DecidableEq, Repr

namespace Attribute

def argumentText (group : List Token) : String :=
  let inside := Token.sourceOf group.dropLast ++ ((group.getLast?.map (·.gap)).getD "")
  String.ofList (trimBlanks inside.toList)

def parse : Parser Attribute := do
  let _ ← Parser.expect .at "'@'"
  let name ← Parser.expect .identifier "attribute name"
  if ← Parser.acceptTouching .leftParen then
    let group ← Parser.closeGroup .leftParen
    return ⟨name.text, some (argumentText group)⟩
  else
    return ⟨name.text, none⟩

def parseAll : Parser (List Attribute) :=
  Parser.fix fun more => do
    if (← Parser.nextKind) = some .at then
      let first ← parse
      Parser.newlines
      return first :: (← more)
    else
      return []

def skipAll : Parser Unit :=
  Parser.fix fun more => do
    if (← Parser.nextKind) = some .at then
      let _ ← parse
      more
    else
      return ()

end Attribute
end SwiftLens
