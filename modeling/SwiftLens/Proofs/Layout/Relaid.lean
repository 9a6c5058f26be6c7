import Mathlib.Data.List.Forall2
import SwiftLens.Proofs.Layout.Skeleton
import SwiftLens.Proofs.Parser.Simulation

namespace SwiftLens

namespace Token

def Spelled (token : Token) : Prop :=
  token.kind = .newline ∨
    token.text ≠ "" ∧ (namedByWord token.text = true → (Name.ofToken? token).isSome = true)

/-- Tokens that differ in the gap before them only, and either both touch the token before or
neither does. -/
structure Alike (left right : Token) : Prop where
  kind : left.kind = right.kind
  text : left.text = right.text
  touches : left.touches = right.touches
  spelled : left.Spelled

namespace Alike

variable {left right : Token} (alike : left.Alike right)

include alike

theorem isWord (word : String) : left.isWord word = right.isWord word := by
  rw [Token.isWord, Token.isWord, alike.kind, alike.text]

theorem name : Name.ofToken? left = Name.ofToken? right := by
  rw [Name.ofToken?, Name.ofToken?, alike.kind, alike.text]

theorem metatype : Metatype.ofToken? left = Metatype.ofToken? right := by
  rw [Metatype.ofToken?, Metatype.ofToken?, alike.kind, alike.text]

theorem isNewline : left.isNewline = right.isNewline := by
  rw [Token.isNewline, Token.isNewline, alike.kind]

theorem isSeparator : left.isSeparator = right.isSeparator := by
  rw [Token.isSeparator, Token.isSeparator, alike.kind]

theorem symm : right.Alike left where
  kind := alike.kind.symm
  text := alike.text.symm
  touches := alike.touches.symm
  spelled := by
    have spelled := alike.spelled
    rw [Spelled, alike.name, alike.kind, alike.text] at spelled
    exact spelled

end Alike
end Token

abbrev Relaid : List Token → List Token → Prop :=
  List.Forall₂ Token.Alike

namespace Relaid

variable {tokens others : List Token}

theorem symm (relaid : Relaid tokens others) : Relaid others tokens := by
  induction relaid with
  | nil => exact .nil
  | cons alike _ ih => exact .cons alike.symm ih

theorem length_le (relaid : Relaid tokens others) : tokens.length ≤ others.length :=
  Nat.le_of_eq relaid.length_eq

theorem isEmpty (relaid : Relaid tokens others) : tokens.isEmpty = others.isEmpty := by
  cases relaid with
  | nil => rfl
  | cons alike rest => rfl

theorem kindAt (relaid : Relaid tokens others) (index : Nat) :
    Token.kindAt index tokens = Token.kindAt index others := by
  induction relaid generalizing index with
  | nil => rfl
  | cons alike _ ih =>
    cases index with
    | zero => simp [Token.kindAt, alike.kind]
    | succ index => exact ih index

theorem wordAt (relaid : Relaid tokens others) (index : Nat) :
    Token.wordAt index tokens = Token.wordAt index others := by
  induction relaid generalizing index with
  | nil => rfl
  | cons alike _ ih =>
    cases index with
    | zero => simp [Token.wordAt, alike.kind, alike.text]
    | succ index => exact ih index

section While

variable {passes : Token → Bool}
  (same : ∀ {token image : Token}, token.Alike image → passes token = passes image)

include same

theorem dropWhile (relaid : Relaid tokens others) :
    Relaid (tokens.dropWhile passes) (others.dropWhile passes) := by
  induction relaid with
  | nil => exact .nil
  | cons alike rest ih =>
    rw [List.dropWhile_cons, List.dropWhile_cons, ← same alike]
    split
    · exact ih
    · exact .cons alike rest

theorem takeWhile (relaid : Relaid tokens others) :
    Relaid (tokens.takeWhile passes) (others.takeWhile passes) := by
  induction relaid with
  | nil => exact .nil
  | cons alike rest ih =>
    rw [List.takeWhile_cons, List.takeWhile_cons, ← same alike]
    split
    · exact .cons alike ih
    · exact .nil

end While

theorem afterNewlines (relaid : Relaid tokens others) :
    Relaid (Token.afterNewlines tokens) (Token.afterNewlines others) :=
  relaid.dropWhile Token.Alike.isNewline

theorem beginsWithObserver (relaid : Relaid tokens others) :
    Token.beginsWithObserver tokens = Token.beginsWithObserver others := by
  fun_induction Token.beginsWithObserver tokens generalizing others with
  | case1 =>
    cases relaid with
    | nil => rfl
  | case2 token rest isBreak ih =>
    cases relaid with
    | cons alike relaid =>
      rw [Token.beginsWithObserver_newline (alike.kind ▸ isBreak), ih relaid]
  | case3 token noBreak isAt =>
    cases relaid with
    | cons alike relaid =>
      cases relaid with
      | nil => simp [Token.beginsWithObserver, ← alike.kind, isAt]
  | case4 token noBreak isAt skipped more ih =>
    cases relaid with
    | cons alike relaid =>
      cases relaid with
      | cons _ relaid => rw [Token.beginsWithObserver_at (alike.kind ▸ isAt), ih relaid]
  | case5 token rest noBreak notAt =>
    cases relaid with
    | cons alike relaid =>
      rw [Token.beginsWithObserver_other (alike.kind ▸ noBreak) (alike.kind ▸ notAt),
        alike.isWord, alike.isWord]

theorem opensObservers (relaid : Relaid tokens others) :
    Token.opensObservers tokens = Token.opensObservers others := by
  have seen := relaid.afterNewlines
  unfold Token.opensObservers
  generalize Token.afterNewlines tokens = left, Token.afterNewlines others = right at seen
  cases seen with
  | nil => rfl
  | cons alike body => simp only [alike.kind, beginsWithObserver body]

theorem opensBlock (relaid : Relaid tokens others) :
    Storage.opensBlock tokens = Storage.opensBlock others := by
  rw [Storage.opensBlock, Storage.opensBlock, relaid.afterNewlines.kindAt]

theorem opensObserversHere (relaid : Relaid tokens others) :
    Storage.opensObserversHere tokens = Storage.opensObserversHere others := by
  rw [Storage.opensObserversHere, Storage.opensObserversHere, relaid.kindAt,
    relaid.opensObservers]

theorem continuesSignature (relaid : Relaid tokens others) :
    Parser.continuesSignature tokens = Parser.continuesSignature others := by
  have seen := relaid.afterNewlines
  unfold Parser.continuesSignature
  generalize Token.afterNewlines tokens = left, Token.afterNewlines others = right at seen
  cases seen with
  | nil => rfl
  | cons alike _ => simp only [alike.kind, alike.isWord]

theorem continuesExpression (relaid : Relaid tokens others) :
    Parser.continuesExpression tokens = Parser.continuesExpression others := by
  rw [Parser.continuesExpression, Parser.continuesExpression, relaid.afterNewlines.kindAt]

theorem head?_any {passes : Token → Bool}
    (same : ∀ {token image : Token}, token.Alike image → passes token = passes image)
    (relaid : Relaid tokens others) : tokens.head?.any passes = others.head?.any passes := by
  cases relaid with
  | nil => rfl
  | cons alike _ => exact same alike

end Relaid

/-- Whether a token passes is told by kinds, texts and what touches. -/
structure SeesNoGaps (passes : Token → List Token → Bool) : Prop where
  same : ∀ {token image : Token} {rest remains : List Token}, token.Alike image →
    Relaid rest remains → passes token rest = passes image remains

namespace Parser

variable {α β : Type}

abbrev Agree (left right : Parser α) : Prop :=
  Simulates Relaid Eq left right

abbrev AgreeOn (view : α → β) (left right : Parser α) : Prop :=
  Simulates Relaid (fun value image => view value = view image) left right

/-- A choice by a test that both sides pass alike. -/
theorem simulates_choice {test : Parser Bool} (agree : Agree test test) {Same : α → α → Prop}
    {left leftElse right rightElse : Parser α} (yes : Simulates Relaid Same left right)
    (no : Simulates Relaid Same leftElse rightElse) :
    Simulates Relaid Same (test >>= fun found => if found = true then left else leftElse)
      (test >>= fun found => if found = true then right else rightElse) :=
  simulates_bind_eq agree fun _ => simulates_ite yes no

/-- The rest of a list after its first element. -/
theorem agreeOn_cons {view : α → β} {left right : Parser (List α)}
    (more : AgreeOn (List.map view) left right) {first image : α} (same : view first = view image) :
    AgreeOn (List.map view) (left >>= fun later => pure (first :: later))
      (right >>= fun later => pure (image :: later)) := by
  apply simulates_bind more
  intro later others sameLater
  apply simulates_pure
  rw [List.map_cons, List.map_cons, same, sameLater]

theorem relaid_takeIf {passes : Token → List Token → Bool} (sees : SeesNoGaps passes) :
    Simulates Relaid (Option.Rel Token.Alike) (takeIf passes) (takeIf passes) where
  reads {tokens others found rest} relaid parsed := by
    cases relaid with
    | nil =>
      cases parsed
      exact ⟨none, [], rfl, .none, .nil⟩
    | cons alike relaid =>
      rw [takeIf_cons] at parsed ⊢
      rw [← sees.same alike relaid]
      split at parsed
      · next passed =>
        cases parsed
        rw [if_pos passed]
        exact ⟨_, _, rfl, .some alike, relaid⟩
      · next other =>
        cases parsed
        rw [if_neg other]
        exact ⟨_, _, rfl, .none, .cons alike relaid⟩

theorem agree_acceptIf {passes : Token → List Token → Bool} (sees : SeesNoGaps passes) :
    Agree (acceptIf passes) (acceptIf passes) := by
  apply simulates_bind (relaid_takeIf sees)
  intro found image alike
  cases alike with
  | some alike => exact simulates_pure rfl
  | none => exact simulates_pure rfl

theorem agree_accept (kind : Token.Kind) : Agree (accept kind) (accept kind) :=
  agree_acceptIf ⟨fun alike _ => by rw [alike.kind]⟩

theorem agree_acceptTouching (kind : Token.Kind) :
    Agree (acceptTouching kind) (acceptTouching kind) :=
  agree_acceptIf ⟨fun alike _ => by rw [alike.kind, alike.touches]⟩

theorem agree_acceptWord (word : String) : Agree (acceptWord word) (acceptWord word) :=
  agree_acceptIf ⟨fun alike _ => alike.isWord word⟩

theorem relaid_expect (kind : Token.Kind) (expected : String) :
    Simulates Relaid Token.Alike (expect kind expected) (expect kind expected) := by
  apply simulates_bind (relaid_takeIf ⟨fun alike _ => by rw [alike.kind]⟩)
  intro found image alike
  cases alike with
  | some alike => exact simulates_pure alike
  | none => exact simulates_fail

theorem agree_dropWhile {passes : Token → Bool}
    (same : ∀ {token image : Token}, token.Alike image → passes token = passes image) :
    Agree (dropWhile passes) (dropWhile passes) where
  reads relaid parsed := by
    cases parsed
    exact ⟨(), _, rfl, rfl, relaid.dropWhile same⟩

theorem relaid_takeWhile {passes : Token → Bool}
    (same : ∀ {token image : Token}, token.Alike image → passes token = passes image) :
    Simulates Relaid Relaid (takeWhile passes) (takeWhile passes) where
  reads relaid parsed := by
    cases parsed
    exact ⟨_, _, rfl, relaid.takeWhile same, relaid.dropWhile same⟩

theorem agree_newlines : Agree newlines newlines :=
  agree_dropWhile Token.Alike.isNewline

theorem agree_separators : Agree separators separators :=
  agree_dropWhile Token.Alike.isSeparator

theorem agree_ahead {view : List Token → α}
    (same : ∀ {tokens others : List Token}, Relaid tokens others → view tokens = view others) :
    Agree (ahead view) (ahead view) :=
  simulates_ahead same

theorem agree_nextKind : Agree nextKind nextKind :=
  agree_ahead fun relaid => relaid.kindAt 0

end Parser
end SwiftLens
