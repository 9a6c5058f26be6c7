import SwiftLens.Proofs.Concatenation.Fresh

namespace SwiftLens

open SwiftLens.Parser

/-- The right list goes on with a line break and `later` where the left one ends. A line break at
the end of the left list is part of the one between the files. -/
inductive Joined (later : List Token) : List Token → List Token → Prop
  | ended {line : Token} (isBreak : line.kind = .newline) : Joined later [] (line :: later)
  | endedLine {last line : Token} (lastBreak : last.kind = .newline)
      (isBreak : line.kind = .newline) : Joined later [last] (line :: later)
  | cons (token : Token) {rest others : List Token} (joined : Joined later rest others) :
      Joined later (token :: rest) (token :: others)

abbrev Continues (later : List Token) {α : Type} (left right : Parser α) : Prop :=
  Simulates (Joined later) Eq left right

namespace Joined

variable {later tokens others : List Token}

theorem length_add (joined : Joined later tokens others) :
    tokens.length + later.length ≤ others.length := by
  induction joined with
  | ended isBreak => simp
  | endedLine lastBreak isBreak => simp [Nat.add_comm]
  | cons token joined ih =>
    simp only [List.length_cons]
    omega

theorem length_le (joined : Joined later tokens others) : tokens.length ≤ others.length :=
  Nat.le_of_add_right_le joined.length_add

/-- Dropping tokens, line breaks among them, runs into `later` or stops in the first file. -/
theorem dropWhile (joined : Joined later tokens others) {passes : Token → Bool}
    (skips : ∀ {token : Token}, token.kind = .newline → passes token = true) :
    (tokens.dropWhile passes = [] ∧ others.dropWhile passes = later.dropWhile passes) ∨
      ∃ token rest remains, tokens.dropWhile passes = token :: rest ∧
        others.dropWhile passes = token :: remains ∧ Joined later rest remains := by
  induction joined with
  | ended isBreak => exact .inl ⟨rfl, List.dropWhile_cons_of_pos (skips isBreak)⟩
  | endedLine lastBreak isBreak =>
    refine .inl ⟨?_, List.dropWhile_cons_of_pos (skips isBreak)⟩
    rw [List.dropWhile_cons_of_pos (skips lastBreak), List.dropWhile_nil]
  | cons token joined ih =>
    by_cases passed : passes token = true
    · rw [List.dropWhile_cons_of_pos passed, List.dropWhile_cons_of_pos passed]
      exact ih
    · rw [List.dropWhile_cons_of_neg passed, List.dropWhile_cons_of_neg passed]
      exact .inr ⟨token, _, _, rfl, rfl, joined⟩

theorem dropWhile_inside (joined : Joined later tokens others) {passes : Token → Bool}
    (stops : ∀ {token : Token}, token.kind = .newline → passes token = false) :
    Joined later (tokens.dropWhile passes) (others.dropWhile passes) := by
  induction joined with
  | ended isBreak =>
    rw [List.dropWhile_cons_of_neg (by simp [stops isBreak])]
    exact .ended isBreak
  | endedLine lastBreak isBreak =>
    rw [List.dropWhile_cons_of_neg (by simp [stops lastBreak]),
      List.dropWhile_cons_of_neg (by simp [stops isBreak])]
    exact .endedLine lastBreak isBreak
  | cons token joined ih =>
    by_cases passed : passes token = true
    · rw [List.dropWhile_cons_of_pos passed, List.dropWhile_cons_of_pos passed]
      exact ih
    · rw [List.dropWhile_cons_of_neg passed, List.dropWhile_cons_of_neg passed]
      exact .cons token joined

theorem takeWhile_inside (joined : Joined later tokens others) {passes : Token → Bool}
    (stops : ∀ {token : Token}, token.kind = .newline → passes token = false) :
    tokens.takeWhile passes = others.takeWhile passes := by
  induction joined with
  | ended isBreak => rw [List.takeWhile_cons_of_neg (by simp [stops isBreak]), List.takeWhile_nil]
  | endedLine lastBreak isBreak =>
    rw [List.takeWhile_cons_of_neg (by simp [stops lastBreak]),
      List.takeWhile_cons_of_neg (by simp [stops isBreak])]
  | cons token joined ih => simp only [List.takeWhile_cons, ih]

theorem afterNewlines (joined : Joined later tokens others) :
    (Token.afterNewlines tokens = [] ∧ Token.afterNewlines others = Token.afterNewlines later) ∨
      ∃ token rest remains, Token.afterNewlines tokens = token :: rest ∧
        Token.afterNewlines others = token :: remains ∧ Joined later rest remains :=
  joined.dropWhile (by simp [Token.isNewline])

theorem kindAt_zero (joined : Joined later tokens others) {kind : Token.Kind}
    (noBreak : kind ≠ .newline) :
    Token.kindAt 0 tokens = some kind ↔ Token.kindAt 0 others = some kind := by
  cases joined with
  | ended isBreak => simp [Token.kindAt, isBreak, noBreak.symm]
  | endedLine lastBreak isBreak => simp [Token.kindAt, lastBreak, isBreak]
  | cons token joined => simp [Token.kindAt]

theorem wordAt_zero (joined : Joined later tokens others) :
    Token.wordAt 0 tokens = Token.wordAt 0 others := by
  cases joined with
  | ended isBreak => simp [Token.wordAt, isBreak]
  | endedLine lastBreak isBreak => simp [Token.wordAt, lastBreak, isBreak]
  | cons token joined => simp [Token.wordAt]

theorem drop_of_kindAt (joined : Joined later tokens others)
    {kind : Token.Kind} (noBreak : kind ≠ .newline) (found : Token.kindAt 0 tokens = some kind) :
    Joined later (tokens.drop 1) (others.drop 1) := by
  cases joined with
  | ended isBreak => cases found
  | endedLine lastBreak isBreak =>
    rw [Token.kindAt, List.getElem?_cons_zero, Option.map_some, lastBreak] at found
    exact absurd (Option.some.inj found).symm noBreak
  | cons token joined => exact joined

variable (fresh : Fresh later)

include fresh

theorem kindAt_one_colon (joined : Joined later tokens others) :
    Token.kindAt 1 tokens = some .colon ↔ Token.kindAt 1 others = some .colon := by
  have noColon : Token.kindAt 0 later ≠ some .colon := by
    intro isColon
    simpa using fresh.kind_mem isColon
  cases joined with
  | ended isBreak => simpa [Token.kindAt] using noColon
  | endedLine lastBreak isBreak => simpa [Token.kindAt] using noColon
  | cons token joined => simpa [Token.kindAt] using joined.kindAt_zero (by simp)

/-- What is seen after the line breaks: the same token, or the end of the first file beside a token
that stands apart. -/
theorem cases_afterNewlines (joined : Joined later tokens others) :
    (Token.afterNewlines tokens = [] ∧ (Token.afterNewlines others = [] ∨
        ∃ token after, Token.afterNewlines others = token :: after ∧ token.StandsApart ∧
          Token.beginsWithObserver (token :: after) = false)) ∨
      ∃ token rest remains, Token.afterNewlines tokens = token :: rest ∧
        Token.afterNewlines others = token :: remains ∧ Joined later rest remains := by
  rcases joined.afterNewlines with ⟨left, right⟩ | inside
  · rw [right]
    exact .inl ⟨left, fresh.cases_newlines⟩
  · exact .inr inside

theorem continuesSignature (joined : Joined later tokens others) :
    Parser.continuesSignature tokens = Parser.continuesSignature others := by
  unfold Parser.continuesSignature
  rcases joined.cases_afterNewlines fresh with
    ⟨left, right | ⟨token, after, right, apart, -⟩⟩ | ⟨token, rest, remains, left, right, -⟩
  · rw [left, right]
  · simp [left, right, apart.kind_ne, apart.not_isWord]
  · rw [left, right]

theorem continuesExpression (joined : Joined later tokens others) :
    Parser.continuesExpression tokens = Parser.continuesExpression others := by
  unfold Parser.continuesExpression
  rcases joined.cases_afterNewlines fresh with
    ⟨left, right | ⟨token, after, right, apart, -⟩⟩ | ⟨token, rest, remains, left, right, -⟩
  · rw [left, right]
  · have listed := apart.kind_mem
    simp only [List.mem_cons, List.not_mem_nil, or_false] at listed
    rcases listed with kind | kind | kind | kind <;> simp [left, right, Token.kindAt, kind]
  · rw [left, right]
    rfl

theorem opensBlock (joined : Joined later tokens others) :
    Storage.opensBlock tokens = Storage.opensBlock others := by
  unfold Storage.opensBlock
  rcases joined.cases_afterNewlines fresh with
    ⟨left, right | ⟨token, after, right, apart, -⟩⟩ | ⟨token, rest, remains, left, right, -⟩
  · rw [left, right]
  · simp [left, right, Token.kindAt, apart.kind_ne]
  · rw [left, right]
    rfl

theorem whereAhead (joined : Joined later tokens others) :
    (Token.afterNewlines tokens).head?.any (·.isWord "where") =
      (Token.afterNewlines others).head?.any (·.isWord "where") := by
  rcases joined.cases_afterNewlines fresh with
    ⟨left, right | ⟨token, after, right, apart, -⟩⟩ | ⟨token, rest, remains, left, right, -⟩
  · rw [left, right]
  · simp [left, right, apart.not_isWord]
  · rw [left, right]
    rfl

/-- Neither the end of the first file nor the beginning of the second looks like an observer, also
after a hop over the line break between them. -/
theorem beginsWithObserver (joined : Joined later tokens others) :
    Token.beginsWithObserver tokens = Token.beginsWithObserver others := by
  have ended : ∀ {line : Token}, line.kind = .newline →
      Token.beginsWithObserver (line :: later) = false := by
    intro line isBreak
    rw [Token.beginsWithObserver_newline isBreak, fresh.no_observer]
  fun_induction Token.beginsWithObserver tokens generalizing others with
  | case1 =>
    cases joined with
    | ended isBreak => exact (ended isBreak).symm
  | case2 token rest isBreak ih =>
    cases joined with
    | endedLine lastBreak isBreak => rw [ended isBreak, Token.beginsWithObserver]
    | cons token joined => rw [Token.beginsWithObserver_newline isBreak, ih joined]
  -- The token after the mark of an attribute is skipped unseen, even the line break between the files.
  | case3 token noBreak isAt =>
    cases joined with
    | endedLine lastBreak isBreak => exact absurd lastBreak noBreak
    | cons token joined =>
      cases joined with
      | ended isBreak => rw [Token.beginsWithObserver_at isAt, fresh.no_observer]
  | case4 token noBreak isAt skipped more ih =>
    cases joined with
    | cons token joined =>
      cases joined with
      | endedLine lastBreak isBreak =>
        rw [Token.beginsWithObserver_at isAt, fresh.no_observer, Token.beginsWithObserver]
      | cons skipped joined => rw [Token.beginsWithObserver_at isAt, ih joined]
  | case5 token rest noBreak notAt =>
    cases joined with
    | endedLine lastBreak isBreak => exact absurd lastBreak noBreak
    | cons token joined => rw [Token.beginsWithObserver_other noBreak notAt]

theorem opensObservers (joined : Joined later tokens others) :
    Token.opensObservers tokens = Token.opensObservers others := by
  unfold Token.opensObservers
  rcases joined.cases_afterNewlines fresh with
    ⟨left, right | ⟨token, after, right, apart, -⟩⟩ | ⟨token, rest, remains, left, right, joined⟩
  · rw [left, right]
  · simp [left, right, apart.kind_ne]
  · simp only [left, right, joined.beginsWithObserver fresh]

theorem opensObserversHere (joined : Joined later tokens others) :
    Storage.opensObserversHere tokens = Storage.opensObserversHere others := by
  have here : Token.kindAt 0 tokens = some .leftBrace ↔ Token.kindAt 0 others = some .leftBrace :=
    joined.kindAt_zero (by simp)
  rw [Storage.opensObserversHere, Storage.opensObserversHere, joined.opensObservers fresh]
  congr 1
  rw [Bool.eq_iff_iff, beq_iff_eq, beq_iff_eq, here]

end Joined

/-- A token is taken in the first file as in the joined files, and the line break between them is
never taken. -/
structure Settled (later : List Token) (passes : Token → List Token → Bool) : Prop where
  alike : ∀ (token : Token) {rest remains : List Token}, Joined later rest remains →
    passes token rest = passes token remains
  stops : ∀ {line : Token}, line.kind = .newline →
    passes line [] = false ∧ passes line later = false

section Primitives

variable {later : List Token} {α β : Type}

theorem settled_token (passes : Token → Bool)
    (stops : ∀ {token : Token}, token.kind = .newline → passes token = false) :
    Settled later fun token _ => passes token where
  alike _ _ _ _ := rfl
  stops isBreak := ⟨stops isBreak, stops isBreak⟩

theorem takeIf_joined {passes : Token → List Token → Bool} (settled : Settled later passes) :
    Simulates (Joined later)
      (fun found image => found = image ∧ ∀ token, found = some token → ∃ rest, passes token rest)
      (takeIf passes) (takeIf passes) := by
  constructor
  intro tokens others found rest joined parsed
  cases joined with
  | @ended line isBreak =>
    cases parsed
    refine ⟨none, line :: later, ?_, ⟨rfl, by simp⟩, .ended isBreak⟩
    rw [takeIf_cons, (settled.stops isBreak).2]
    rfl
  | @endedLine last line lastBreak isBreak =>
    rw [takeIf_cons, (settled.stops lastBreak).1] at parsed
    cases parsed
    refine ⟨none, line :: later, ?_, ⟨rfl, by simp⟩, .endedLine lastBreak isBreak⟩
    rw [takeIf_cons, (settled.stops isBreak).2]
    rfl
  | @cons token rest remains joined =>
    rw [takeIf_cons] at parsed ⊢
    rw [← settled.alike token joined]
    split at parsed
    · next taken =>
      cases parsed
      rw [if_pos taken]
      exact ⟨_, _, rfl, ⟨rfl, by rintro _ ⟨⟩; exact ⟨_, taken⟩⟩, joined⟩
    · next left =>
      cases parsed
      rw [if_neg left]
      exact ⟨_, _, rfl, ⟨rfl, by simp⟩, .cons token joined⟩

theorem continues_takeIf {passes : Token → List Token → Bool} (settled : Settled later passes) :
    Continues later (takeIf passes) (takeIf passes) := by
  constructor
  intro tokens others found rest joined parsed
  obtain ⟨image, remains, taken, ⟨same, -⟩, joined⟩ := (takeIf_joined settled).reads joined parsed
  exact ⟨image, remains, taken, same, joined⟩

theorem continues_acceptIf {passes : Token → List Token → Bool} (settled : Settled later passes) :
    Continues later (acceptIf passes) (acceptIf passes) :=
  simulates_bind_eq (continues_takeIf settled) fun _ => simulates_pure rfl

theorem continues_accept {kind : Token.Kind} (noBreak : kind ≠ .newline) :
    Continues later (accept kind) (accept kind) := by
  refine continues_acceptIf (settled_token (·.kind == kind) ?_)
  intro token isBreak
  simp [isBreak, noBreak.symm]

theorem continues_acceptTouching {kind : Token.Kind} (noBreak : kind ≠ .newline) :
    Continues later (acceptTouching kind) (acceptTouching kind) := by
  refine continues_acceptIf (settled_token (fun token => token.kind == kind && token.touches) ?_)
  intro token isBreak
  simp [isBreak, noBreak.symm]

theorem continues_acceptWord (word : String) :
    Continues later (acceptWord word) (acceptWord word) := by
  refine continues_acceptIf (settled_token (·.isWord word) ?_)
  intro token isBreak
  simp [Token.isWord, isBreak]

theorem continues_expect {kind : Token.Kind} (noBreak : kind ≠ .newline) (expected : String) :
    Continues later (expect kind expected) (expect kind expected) := by
  refine simulates_bind_eq (continues_takeIf (settled_token (·.kind == kind) ?_)) ?_
  · intro token isBreak
    simp [isBreak, noBreak.symm]
  · rintro (_ | token)
    · exact simulates_fail
    · exact simulates_pure rfl

/-- Tokens are dropped, line breaks among them, before something is read that needs input: then the
first file has not ended. -/
theorem continues_dropWhile_bind {passes : Token → Bool}
    (skips : ∀ {token : Token}, token.kind = .newline → passes token = true)
    {next other : Unit → Parser α} (needs : NeedsInput (next ()))
    (continues : Continues later (next ()) (other ())) :
    Continues later (dropWhile passes >>= next) (dropWhile passes >>= other) := by
  constructor
  intro tokens others value rest joined parsed
  obtain ⟨_, between, dropped, read⟩ := bind_ok parsed
  cases dropped
  rcases joined.dropWhile skips with ⟨ended, -⟩ | ⟨token, after, remains, left, right, joined⟩
  · rw [ended] at read
    exact absurd read (needs value rest)
  · rw [left] at read
    rw [bind_of_ok (show dropWhile passes others = .ok ((), token :: remains) from right ▸ rfl)]
    exact continues.reads (.cons token joined) read

theorem continues_newlines_bind {next other : Unit → Parser α} (needs : NeedsInput (next ()))
    (continues : Continues later (next ()) (other ())) :
    Continues later (newlines >>= next) (newlines >>= other) :=
  continues_dropWhile_bind (by simp [Token.isNewline]) needs continues

theorem continues_separators_bind {next other : Unit → Parser α} (needs : NeedsInput (next ()))
    (continues : Continues later (next ()) (other ())) :
    Continues later (separators >>= next) (separators >>= other) :=
  continues_dropWhile_bind (by simp +contextual [Token.isSeparator]) needs continues

theorem continues_dropWhile {passes : Token → Bool}
    (stops : ∀ {token : Token}, token.kind = .newline → passes token = false) :
    Continues later (dropWhile passes) (dropWhile passes) := by
  constructor
  intro tokens others value rest joined parsed
  cases parsed
  exact ⟨_, _, rfl, rfl, joined.dropWhile_inside stops⟩

theorem continues_takeWhile {passes : Token → Bool}
    (stops : ∀ {token : Token}, token.kind = .newline → passes token = false) :
    Continues later (takeWhile passes) (takeWhile passes) := by
  constructor
  intro tokens others value rest joined parsed
  cases parsed
  exact ⟨_, _, rfl, joined.takeWhile_inside stops, joined.dropWhile_inside stops⟩

theorem continues_nextKind_ite {kind : Token.Kind} (noBreak : kind ≠ .newline)
    {left right leftElse rightElse : Parser α} (yes : Continues later left right)
    (no : Continues later leftElse rightElse) :
    Continues later (nextKind >>= fun found => if found = some kind then left else leftElse)
      (nextKind >>= fun found => if found = some kind then right else rightElse) := by
  constructor
  intro tokens others value rest joined parsed
  obtain ⟨found, between, seen, read⟩ := bind_ok parsed
  cases seen
  rw [bind_of_ok (show nextKind others = .ok (Token.kindAt 0 others, others) from rfl)]
  have same := joined.kindAt_zero noBreak
  split at read
  · next here =>
    rw [if_pos (same.mp here)]
    exact yes.reads joined read
  · next elsewhere =>
    rw [if_neg (mt same.mpr elsewhere)]
    exact no.reads joined read

/-- A choice by the kind of the next token that gives up at the end of the input. -/
theorem continues_nextKind_bind {expected : String} {next other : Option Token.Kind → Parser α}
    (atEnd : next none = fail expected)
    (continues : ∀ kind, Continues later (next (some kind)) (other (some kind))) :
    Continues later (nextKind >>= next) (nextKind >>= other) := by
  constructor
  intro tokens others value rest joined parsed
  obtain ⟨found, between, seen, read⟩ := bind_ok parsed
  cases seen
  rw [bind_of_ok (show nextKind others = .ok (Token.kindAt 0 others, others) from rfl)]
  cases joined with
  | ended isBreak =>
    rw [show Token.kindAt 0 [] = none from rfl, atEnd] at read
    cases read
  | @endedLine last line lastBreak isBreak =>
    rw [show Token.kindAt 0 [last] = some last.kind from rfl, lastBreak] at read
    rw [show Token.kindAt 0 (line :: later) = some line.kind from rfl, isBreak]
    exact (continues _).reads (.endedLine lastBreak isBreak) read
  | cons token joined => exact (continues token.kind).reads (.cons token joined) read

end Primitives
end SwiftLens
