import SwiftLens.Declaration.Parser
import SwiftLens.Proofs.Parser.Simulation

namespace SwiftLens

open SwiftLens.Parser

def Fresh (later : List Token) : Prop :=
  ∃ declarations rest, Declaration.parseAll later = .ok (declarations, rest)

structure Token.BeginsDeclaration (token : Token) : Prop where
  isWord : token.kind = .identifier
  known : (AccessLevel.ofKeyword? token.text).isSome = true ∨
    (Modifier.ofKeyword? token.text).isSome = true ∨
      (Declaration.Keyword.ofWord? token.text).isSome = true

theorem Token.BeginsDeclaration.not_isWord {token : Token} (begins : token.BeginsDeclaration)
    {word : String}
    (other : word ∈ ["where", "throws", "rethrows", "async", "willSet", "didSet"]) :
    token.isWord word = false := by
  have differs : token.text ≠ word := by
    rintro same
    have known := begins.known
    rw [same] at known
    simp only [List.mem_cons, List.not_mem_nil, or_false] at other
    rcases other with rfl | rfl | rfl | rfl | rfl | rfl <;> revert known <;> decide
  simp [Token.isWord, differs]

inductive Token.Opens (token : Token) : Prop
  | hash (isHash : token.kind = .hash)
  | attribute (isAt : token.kind = .at)
  | word (begins : token.BeginsDeclaration)

inductive Token.StandsApart (token : Token) : Prop
  | semicolon (isSemicolon : token.kind = .semicolon)
  | opening (opens : token.Opens)

theorem Token.StandsApart.kind_mem {token : Token} (apart : token.StandsApart) :
    token.kind ∈ [Kind.semicolon, .hash, .at, .identifier] := by
  rcases apart with isSemicolon | isHash | isAt | begins
  · simp [isSemicolon]
  · simp [isHash]
  · simp [isAt]
  · simp [begins.isWord]

theorem Token.StandsApart.kind_ne {token : Token} (apart : token.StandsApart) {kind : Kind}
    (other : kind ∉ [Kind.semicolon, .hash, .at, .identifier]) : token.kind ≠ kind := by
  intro same
  have listed := apart.kind_mem
  rw [same] at listed
  exact other listed

theorem Token.StandsApart.not_isWord {token : Token} (apart : token.StandsApart) {word : String}
    (other : word ∈ ["where", "throws", "rethrows", "async", "willSet", "didSet"]) :
    token.isWord word = false := by
  rcases apart with isSemicolon | isHash | isAt | begins
  · simp [isWord, isSemicolon]
  · simp [isWord, isHash]
  · simp [isWord, isAt]
  · exact begins.not_isWord other

theorem Modifier.leading?_some {token : Token} {after : List Token} {modifier : Modifier}
    (leads : leading? token after = some modifier) : token.BeginsDeclaration := by
  unfold leading? at leads
  split at leads
  · next level access =>
    unfold leadingAccess? at access
    split at access
    · next isWord =>
      split at access
      · exact ⟨isWord, .inl (by simp [access])⟩
      · exact ⟨isWord, .inl (by simp [access])⟩
      · cases access
    · cases access
  · split at leads
    · next isWord =>
      refine ⟨isWord, .inr (.inl ?_)⟩
      split at leads
      · next found _ => simp [found]
      · next found _ => simp [found]
      · next found _ => simp [found]
      · cases leads
    · cases leads

theorem Modifier.parseAll_ok {tokens rest : List Token} {modifiers : List Modifier}
    (parsed : parseAll tokens = .ok (modifiers, rest)) :
    rest = tokens ∨ ∃ token after, tokens = token :: after ∧ token.BeginsDeclaration := by
  obtain ⟨found, between, next, parsed⟩ := bind_ok parsed
  cases tokens with
  | nil =>
    cases next
    cases parsed
    exact .inl rfl
  | cons token after =>
    cases leads : leading? token after with
    | none =>
      simp only [next?, leads, Except.ok.injEq, Prod.mk.injEq] at next
      obtain ⟨rfl, rfl⟩ := next
      cases parsed
      exact .inl rfl
    | some modifier => exact .inr ⟨token, after, rfl, leading?_some leads⟩

namespace Declaration

theorem keyword_ok {tokens rest : List Token} {found : Keyword}
    (parsed : keyword tokens = .ok (found, rest)) :
    ∃ token, tokens = token :: rest ∧ Keyword.ofToken? token = some found := by
  cases tokens with
  | nil => cases parsed
  | cons token after =>
    unfold keyword at parsed
    rw [bind_apply, takeIf_cons] at parsed
    cases stands : Keyword.ofToken? token with
    | none =>
      simp only [stands, Option.isSome_none, Bool.false_eq_true, if_false] at parsed
      cases parsed
    | some keyword =>
      simp only [stands, Option.isSome_some, if_true, Option.bind_some] at parsed
      cases parsed
      exact ⟨token, rfl, stands⟩

theorem Keyword.beginsDeclaration {token : Token} {found : Keyword}
    (stands : Keyword.ofToken? token = some found) : token.BeginsDeclaration := by
  unfold Keyword.ofToken? at stands
  split at stands
  · next isWord => exact ⟨isWord, .inr (.inr (by simp [stands]))⟩
  · cases stands

theorem needsInput_step (inner : Parser Declaration) : NeedsInput (step inner) :=
  needsInput_of_error rfl

theorem needsInput_afterSpecifiers : NeedsInput afterSpecifiers :=
  needsInput_of_error rfl

theorem afterSpecifiers_ok {tokens rest : List Token} {declaration : Declaration}
    (parsed : afterSpecifiers tokens = .ok (declaration, rest)) :
    ∃ token after, tokens = token :: after ∧ token.BeginsDeclaration := by
  obtain ⟨found, between, parsedKeyword, -⟩ := bind_ok parsed
  obtain ⟨token, rfl, stands⟩ := keyword_ok parsedKeyword
  exact ⟨token, between, rfl, Keyword.beginsDeclaration stands⟩

theorem begins_of_modifiers {tokens between rest : List Token} {modifiers : List Modifier}
    {declaration : Declaration} (parsed : Modifier.parseAll tokens = .ok (modifiers, between))
    (read : afterSpecifiers between = .ok (declaration, rest)) :
    ∃ token after, tokens = token :: after ∧ token.BeginsDeclaration := by
  rcases Modifier.parseAll_ok parsed with rfl | found
  · exact afterSpecifiers_ok read
  · exact found

end Declaration

theorem Token.afterNewlines_newline {token : Token} (isBreak : token.kind = .newline)
    (rest : List Token) : afterNewlines (token :: rest) = afterNewlines rest :=
  List.dropWhile_cons_of_pos (by simp [isNewline, isBreak])

theorem Token.afterNewlines_other {token : Token} (noBreak : token.kind ≠ .newline)
    (rest : List Token) : afterNewlines (token :: rest) = token :: rest :=
  List.dropWhile_cons_of_neg (by simp [isNewline, noBreak])

theorem Token.beginsWithObserver_afterNewlines (tokens : List Token) :
    beginsWithObserver (afterNewlines tokens) = beginsWithObserver tokens := by
  induction tokens with
  | nil => rfl
  | cons token rest ih =>
    by_cases isBreak : token.kind = .newline
    · rw [afterNewlines_newline isBreak, ih, beginsWithObserver_newline isBreak]
    · rw [afterNewlines_other isBreak]

theorem Token.BeginsDeclaration.no_observer {token : Token} (begins : token.BeginsDeclaration)
    (after : List Token) : beginsWithObserver (token :: after) = false := by
  have isWord := begins.isWord
  rw [beginsWithObserver_other (by simp [isWord]) (by simp [isWord])]
  rw [begins.not_isWord (by simp), begins.not_isWord (by simp)]
  rfl

/-- An attribute is a mark, a name, and maybe a group in parentheses. -/
theorem Attribute.parse_ok {tokens rest : List Token} {found : Attribute}
    (parsed : parse tokens = .ok (found, rest)) :
    ∃ mark name after, tokens = mark :: name :: after ∧ mark.kind = .at ∧
      (rest = after ∨ ∃ bracket group, after = bracket :: group ∧ bracket.kind = .leftParen) := by
  obtain ⟨mark, between, first, named⟩ := bind_ok parsed
  obtain ⟨name, after, second, continued⟩ := bind_ok named
  obtain ⟨opened, remains, bracket, finished⟩ := bind_ok continued
  obtain ⟨rfl, isAt⟩ := expect_ok first
  obtain ⟨rfl, -⟩ := expect_ok second
  refine ⟨mark, name, after, rfl, isAt, ?_⟩
  rcases acceptIf_ok bracket with ⟨token, rfl, rfl, passed⟩ | ⟨rfl, rfl⟩
  · refine .inr ⟨token, remains, rfl, ?_⟩
    simp only [Bool.and_eq_true, beq_iff_eq] at passed
    exact passed.1
  · cases finished
    exact .inl rfl

def Attribute.step (more : Parser (List Attribute)) : Parser (List Attribute) := do
  if (← nextKind) = some .at then
    let first ← parse
    newlines
    return first :: (← more)
  else
    return []

theorem Attribute.parseAll_eq : parseAll = fix step :=
  rfl

theorem Attribute.step_at {tokens : List Token} (isAt : Token.kindAt 0 tokens = some .at)
    (more : Parser (List Attribute)) :
    step more tokens = (do
      let first ← parse
      newlines
      return first :: (← more) : Parser (List Attribute)) tokens := by
  rw [step, bind_of_ok (show nextKind tokens = .ok (_, tokens) from rfl), if_pos isAt]

theorem Attribute.step_other {tokens : List Token} (notAt : Token.kindAt 0 tokens ≠ some .at)
    (more : Parser (List Attribute)) : step more tokens = .ok ([], tokens) := by
  rw [step, bind_of_ok (show nextKind tokens = .ok (_, tokens) from rfl), if_neg notAt]
  rfl

/-- The attributes before a declaration do not look like those of an observer. -/
theorem Attribute.no_observer {depth : Nat} {tokens rest : List Token} {found : List Attribute}
    (parsed : fixWithin step depth tokens = .ok (found, rest))
    (plain : Token.beginsWithObserver rest = false) : Token.beginsWithObserver tokens = false := by
  induction depth generalizing tokens found with
  | zero => cases parsed
  | succ depth ih =>
    rw [fixWithin_succ] at parsed
    by_cases ahead : Token.kindAt 0 tokens = some .at
    · rw [step_at ahead] at parsed
      obtain ⟨first, after, read, continued⟩ := bind_ok parsed
      obtain ⟨_, between, dropped, continued⟩ := bind_ok continued
      cases dropped
      obtain ⟨others, remains, more, finished⟩ := bind_ok continued
      cases finished
      have later : Token.beginsWithObserver after = false := by
        rw [← Token.beginsWithObserver_afterNewlines]
        exact ih more
      obtain ⟨mark, name, group, rfl, isAt, same | ⟨bracket, inside, rfl, isParen⟩⟩ := parse_ok read
      · rw [Token.beginsWithObserver_at isAt, ← same]
        exact later
      · rw [Token.beginsWithObserver_at isAt,
          Token.beginsWithObserver_other (by simp [isParen]) (by simp [isParen])]
        simp [Token.isWord, isParen]
    · rw [step_other ahead] at parsed
      cases parsed
      exact plain

namespace Declaration

/-- A declaration begins with a compiler control line, an attribute or one of its words, and not
with an observer. -/
theorem parse_ok {tokens rest : List Token} {declaration : Declaration}
    (parsed : parse tokens = .ok (declaration, rest)) :
    ∃ token after, tokens = token :: after ∧ token.Opens ∧
      Token.beginsWithObserver tokens = false := by
  obtain ⟨kind, between, view, parsed⟩ := bind_ok parsed
  cases view
  split at parsed
  · obtain ⟨mark, after, expected, -⟩ := bind_ok parsed
    obtain ⟨rfl, isHash⟩ := expect_ok expected
    refine ⟨mark, after, rfl, .hash isHash, ?_⟩
    rw [Token.beginsWithObserver_other (by simp [isHash]) (by simp [isHash])]
    simp [Token.isWord, isHash]
  · obtain ⟨attributes, between, parsedAttributes, parsed⟩ := bind_ok parsed
    obtain ⟨modifiers, remains, parsedModifiers, parsed⟩ := bind_ok parsed
    obtain ⟨inside, last, read, -⟩ := bind_ok parsed
    obtain ⟨word, after, rfl, begins⟩ := begins_of_modifiers parsedModifiers read
    rw [Attribute.parseAll_eq] at parsedAttributes
    have plain := Attribute.no_observer parsedAttributes (begins.no_observer after)
    obtain ⟨kind, start, view, parsedAttributes⟩ := bind_ok parsedAttributes
    cases view
    split at parsedAttributes
    · obtain ⟨first, later, read, -⟩ := bind_ok parsedAttributes
      obtain ⟨mark, name, group, rfl, isAt, -⟩ := Attribute.parse_ok read
      exact ⟨mark, name :: group, rfl, .attribute isAt, plain⟩
    · cases parsedAttributes
      exact ⟨word, after, rfl, .word begins, plain⟩

end Declaration

namespace Fresh

variable {later : List Token} (fresh : Fresh later)

include fresh

theorem cases_separators :
    later.dropWhile Token.isSeparator = [] ∨
      ∃ token after, later.dropWhile Token.isSeparator = token :: after ∧ token.Opens ∧
        Token.beginsWithObserver (later.dropWhile Token.isSeparator) = false := by
  obtain ⟨declarations, rest, parsed⟩ := fresh
  obtain ⟨_, between, dropped, parsed⟩ := bind_ok parsed
  cases dropped
  obtain ⟨kind, between, view, parsed⟩ := bind_ok parsed
  cases view
  split at parsed
  · next ended =>
    left
    cases remains : later.dropWhile Token.isSeparator with
    | nil => rfl
    | cons token after => simp [remains, Token.kindAt] at ended
  · obtain ⟨first, middle, read, -⟩ := bind_ok parsed
    exact .inr (Declaration.parse_ok read)

omit fresh in
theorem dropWhile_afterNewlines (tokens : List Token) :
    (Token.afterNewlines tokens).dropWhile Token.isSeparator =
      tokens.dropWhile Token.isSeparator := by
  induction tokens with
  | nil => rfl
  | cons token rest ih =>
    by_cases isBreak : token.kind = .newline
    · have separates : token.isSeparator = true := by simp [Token.isSeparator, isBreak]
      rw [Token.afterNewlines_newline isBreak, ih, List.dropWhile_cons_of_pos separates]
    · rw [Token.afterNewlines_other isBreak]

/-- What stands first after the line breaks belongs to nothing before it. -/
theorem cases_newlines :
    Token.afterNewlines later = [] ∨
      ∃ token after, Token.afterNewlines later = token :: after ∧ token.StandsApart ∧
        Token.beginsWithObserver (token :: after) = false := by
  have same := dropWhile_afterNewlines later
  cases first : Token.afterNewlines later with
  | nil => exact .inl rfl
  | cons token after =>
    refine .inr ⟨token, after, rfl, ?_⟩
    have noBreak : token.kind ≠ .newline := by
      have stopped := List.head?_dropWhile_not Token.isNewline later
      rw [show later.dropWhile Token.isNewline = token :: after from first] at stopped
      simpa [Token.isNewline] using stopped
    rw [first] at same
    by_cases isSemicolon : token.kind = .semicolon
    · refine ⟨.semicolon isSemicolon, ?_⟩
      rw [Token.beginsWithObserver_other noBreak (by simp [isSemicolon])]
      simp [Token.isWord, isSemicolon]
    · rw [List.dropWhile_cons_of_neg (by simp [Token.isSeparator, noBreak, isSemicolon])] at same
      rcases fresh.cases_separators with none | ⟨opening, others, found, opens, plain⟩
      · rw [none] at same
        cases same
      · rw [← same] at plain found
        cases found
        exact ⟨.opening opens, plain⟩

theorem kind_mem {kind : Token.Kind} (found : Token.kindAt 0 later = some kind) :
    kind ∈ [Token.Kind.newline, .semicolon, .hash, .at, .identifier] := by
  cases later with
  | nil => cases found
  | cons head tail =>
    simp only [Token.kindAt, List.getElem?_cons_zero, Option.map_some, Option.some.injEq] at found
    rw [← found]
    by_cases isBreak : head.kind = .newline
    · simp [isBreak]
    · rcases fresh.cases_newlines with none | ⟨token, after, first, apart, -⟩
      · rw [Token.afterNewlines_other isBreak] at none
        cases none
      · rw [Token.afterNewlines_other isBreak] at first
        cases first
        exact List.mem_cons_of_mem _ apart.kind_mem

theorem no_observer : Token.beginsWithObserver later = false := by
  rw [← Token.beginsWithObserver_afterNewlines]
  rcases fresh.cases_newlines with none | ⟨token, after, first, -, plain⟩
  · rw [none]
    rfl
  · rw [first]
    exact plain

end Fresh
end SwiftLens
