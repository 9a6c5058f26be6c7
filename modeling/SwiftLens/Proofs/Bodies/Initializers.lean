import SwiftLens.Proofs.Bodies.Expressions
import SwiftLens.Proofs.Concatenation.Tokens
import SwiftLens.Proofs.Printing.Roundtrip

namespace SwiftLens

open SwiftLens.Parser SwiftLens.Token

namespace Token

/-- Tokens up to the end of a text are the same before a line feed, and what follows the line feed
comes after them. -/
theorem scan_before_feed {source later : List Char} {body more : List Token}
    (scanned : scan true source = .ok (body ++ [⟨.endOfFile, "", ""⟩]))
    (inLine : ∀ last, body.getLast? = some last → last.kind ≠ .newline)
    (fed : scan true ('\n' :: later) = .ok more) :
    scan true (source ++ '\n' :: later) = .ok (body ++ more) := by
  induction length : source.length using Nat.strongRecOn generalizing source body with
  | ind size ih =>
    rcases scan_cases scanned with
      ⟨ended, same⟩ | ⟨c, rest, kind, after, tail, found, lexed, read, same⟩
    · unfold withGap at same
      split at same
      · obtain rfl : body = [⟨.newline, String.ofList source, ""⟩] := by
          simpa using congrArg List.dropLast same
        exact absurd rfl (inLine _ rfl)
      · obtain rfl : body = [] := by simpa using congrArg List.dropLast same
        obtain rfl : source = [] := by simpa using same.symm
        exact fed
    · obtain ⟨front, gap, rfl, -⟩ := (laid_of_scan read).ends
      rw [← List.append_assoc] at same
      obtain ⟨rfl, last⟩ := List.append_inj' same rfl
      obtain rfl : "" = gap := by simpa using last
      have shorter := rest_shorter found lexed
      have inLineAfter : ∀ last, front.getLast? = some last → last.kind ≠ .newline := by
        intro last isLast
        exact inLine last (by simp [List.getLast?_append, isLast])
      have readMore := ih after.length (by omega) read inLineAfter rfl
      have skips := Trivia.skip_join later found
      rw [if_neg (by simp), List.cons_append] at skips
      have joined := scan_of_token skips (Lexeme.skip_join later lexed) readMore true
      rw [joined, ← List.cons_append, charsBefore_join (Trivia.skip_suffix found),
        charsBefore_join ((Lexeme.skip_suffix lexed).trans (List.suffix_cons _ _)),
        List.append_assoc]

/-- A text that begins with its first token, after a space and before a line feed. -/
theorem scan_between {text later : List Char} {first : Token} {body more : List Token}
    (scanned : scan false text = .ok (first :: body ++ [⟨.endOfFile, "", ""⟩]))
    (touches : first.gap = "")
    (inLine : ∀ last, (first :: body).getLast? = some last → last.kind ≠ .newline)
    (fed : scan true ('\n' :: later) = .ok more) :
    scan true (' ' :: (text ++ '\n' :: later)) = .ok (first.regapped " " :: body ++ more) := by
  rcases scan_cases scanned with
    ⟨-, same⟩ | ⟨c, rest, kind, after, tail, found, lexed, read, same⟩
  · simp [withGap] at same
  · rw [withGap, if_neg (by simp), List.cons_append, List.singleton_append, List.cons.injEq] at same
    obtain ⟨rfl, rfl⟩ := same
    obtain ⟨gap, rfl⟩ := Trivia.skip_suffix found
    obtain rfl : gap = [] := by simpa [charsBefore_of_append] using touches
    have inLineAfter : ∀ last, body.getLast? = some last → last.kind ≠ .newline := by
      intro last isLast
      exact inLine last (by simp [List.getLast?_cons, isLast])
    have readMore := scan_before_feed read inLineAfter fed
    have skips : Trivia.skip (' ' :: (c :: rest ++ '\n' :: later)) =
        .ok (c :: (rest ++ '\n' :: later)) := by
      have begins := Trivia.skip_join later found
      rw [if_neg (by simp)] at begins
      rw [Trivia.skip_blank (by decide)]
      exact begins
    have joined := scan_of_token skips (Lexeme.skip_join later lexed) readMore true
    have gap : charsBefore (' ' :: (c :: rest ++ '\n' :: later)) (c :: (rest ++ '\n' :: later)) =
        [' '] :=
      charsBefore_of_append [' '] _
    have covered : charsBefore (c :: (rest ++ '\n' :: later)) (after ++ '\n' :: later) =
        charsBefore (c :: rest) after :=
      charsBefore_join ((Lexeme.skip_suffix lexed).trans (List.suffix_cons _ _)) _
    rw [gap, covered] at joined
    exact joined

end Token

theorem ExpressionTokens.regapped {following body : List Token} {first : Token}
    (isExpression : ExpressionTokens following (first :: body)) (gap : String) :
    ExpressionTokens following (first.regapped gap :: body) := by
  cases isExpression with
  | plain stands more => exact .plain stands more
  | group opens balanced closes noObservers more =>
    have sameObservers : ∀ rest, opensObservers (first.regapped gap :: rest) =
        opensObservers (first :: rest) := by
      intro rest
      by_cases isBreak : first.kind = .newline
      · simp [opensObservers, afterNewlines, isNewline, Token.regapped, isBreak]
      · simp [opensObservers, afterNewlines, isNewline, Token.regapped, isBreak]
    exact .group opens balanced closes ((sameObservers _).trans noObservers) more
  | continued isBreak goesOn more => exact .continued isBreak goesOn more

namespace InitializedConstant

def constantOf (name : String) (initializer : Option String) : Declaration :=
  .letDeclaration .none [⟨.identifier (.plain name) (some (.simple "T")), initializer⟩]

def headerLine : List Token :=
  [word "" "struct", word " " "S", ⟨.leftBrace, " ", "\x7b"⟩]

def openingLine : List Token :=
  [word "" "let", word " " "x", ⟨.colon, "", ":"⟩, word " " "T", ⟨.equal, " ", "="⟩]

def nextLine : List Token :=
  [word "" "let", word " " "y", ⟨.colon, "", ":"⟩, word " " "T"]

def text (initializer : String) : String :=
  "struct S \x7b\nlet x: T = " ++ initializer ++ "\nlet y: T\n\x7d"

def tokens (body : List Token) : List Token :=
  headerLine ++ ⟨.newline, "\n", ""⟩ :: (openingLine ++
    (body ++ ⟨.newline, "\n", ""⟩ :: (nextLine ++ closingBefore [])))

theorem scan_closing :
    scan true ('\n' :: "let y: T\n\x7d".toList) =
      .ok (⟨.newline, "\n", ""⟩ :: (nextLine ++ closingBefore [⟨.endOfFile, "", ""⟩])) := by
  have written : Written nextLine := by
    simp +decide [nextLine, Written, Legible, word]
  have writtenClosing : Written [⟨.rightBrace, "", "\x7d"⟩] := by
    simp +decide [Written, Legible]
  have text : '\n' :: "let y: T\n\x7d".toList = '\n' :: (sourceOf nextLine).toList ++
      ('\n' :: (sourceOf [⟨.rightBrace, "", "\x7d"⟩]).toList ++ []) := by
    decide +kernel
  have last := writtenClosing.scan_fed rfl Lexeme.stopsWord_nil (scan_of_end rfl true)
  rw [text]
  exact written.scan_fed rfl (Lexeme.stopsWord_feed _) last

section Text

variable {initializer : String} {first : Token} {body : List Token}
  (read : tokenize initializer = .ok (first :: body ++ [⟨.endOfFile, "", ""⟩]))
  (touches : first.gap = "") (isExpression : ExpressionTokens [] (first :: body))

include read touches isExpression

theorem scan_text :
    scan false (text initializer).toList =
      .ok (tokens (first.regapped " " :: body) ++ [⟨.endOfFile, "", ""⟩]) := by
  have inLine : ∀ last, (first :: body).getLast? = some last → last.kind ≠ .newline :=
    fun _ isLast => isExpression.ends_inLine isLast
  have between := scan_between (tokenize_ok read) touches inLine scan_closing
  have writtenHeader : Written headerLine := by
    simp +decide [headerLine, Written, Legible, word]
  have writtenOpening : Written openingLine := by
    simp +decide [openingLine, Written, Legible, word]
  have whole : (text initializer).toList = (sourceOf headerLine).toList ++
      ('\n' :: (sourceOf openingLine).toList ++
        ' ' :: (initializer.toList ++ '\n' :: "let y: T\n\x7d".toList)) := by
    have front : "struct S \x7b\nlet x: T = " =
        sourceOf headerLine ++ "\n" ++ sourceOf openingLine ++ " " := by
      decide +kernel
    have back : "\nlet y: T\n\x7d" = "\n" ++ "let y: T\n\x7d" := by
      decide +kernel
    have spelled := congrArg₂ (fun front back => front ++ initializer ++ back) front back
    exact (congrArg String.toList spelled).trans (by simp)
  have space : Lexeme.StopsWord (' ' :: (initializer.toList ++ '\n' :: "let y: T\n\x7d".toList)) := by
    refine Lexeme.stopsWord_cons ?_ _
    rw [Lexeme.continuesIdentifier_ascii (by decide)]
    decide
  have opened := writtenOpening.scan_fed rfl space between
  rw [whole]
  refine (writtenHeader.scan_start rfl (Lexeme.stopsWord_feed _) opened).trans ?_
  simp [tokens, headerLine, openingLine, closingBefore, closingTokens]

omit isExpression in
/-- The text of the initializer is kept. -/
theorem slice_initializer (gap : String) :
    slice (first.regapped gap :: body) = initializer := by
  have whole := sourceOf_scan (tokenize_ok read)
  rw [String.ofList_toList] at whole
  rw [← whole]
  simp [slice, sourceOf, source, touches, Token.regapped]

end Text

/-- The line of the constant is read up to the line feed behind its initializer. -/
theorem parseAll_binding {body rest : List Token} (filled : body ≠ [])
    (isExpression : ExpressionTokens (⟨.newline, "\n", ""⟩ :: rest) body)
    (ends : continuesExpression rest = false) :
    Binding.parseAll (openingLine.tail ++ (body ++ ⟨.newline, "\n", ""⟩ :: rest)) =
      .ok ([⟨.identifier (.plain "x") (some (.simple "T")), some (slice body)⟩],
        ⟨.newline, "\n", ""⟩ :: rest) := by
  have isName : IsName "x" := by decide
  have isType : (TypeExpr.simple "T").Printable := TypeExpr.printable_simple (by decide)
  have pattern := Pattern.parse_typed (Name.parse_word isName " ") (by simp [word]) isType
    (.cons (by simp [TypeExpr.closers]) _ :
      FollowedBy _ (⟨.equal, " ", "="⟩ :: (body ++ ⟨.newline, "\n", ""⟩ :: rest)))
  have ended : expressionPiece (⟨.newline, "\n", ""⟩ :: rest) =
      .ok ([], ⟨.newline, "\n", ""⟩ :: rest) := by
    rw [expressionPiece_break rfl, if_neg (by simp [ends])]
  have shape : openingLine.tail ++ (body ++ ⟨.newline, "\n", ""⟩ :: rest) =
      word " " "x" :: ⟨.colon, "", ":"⟩ :: ((TypeExpr.simple "T").tokens " " ++
        ⟨.equal, " ", "="⟩ :: (body ++ ⟨.newline, "\n", ""⟩ :: rest)) := rfl
  rw [shape, Binding.parseAll, fix_apply, bind_of_ok pattern,
    bind_of_ok (initializer?_append filled isExpression ended),
    bind_of_ok (accept_of_ne (by simp) _)]
  rfl

def QuietFollows (tokens : List Token) : Prop :=
  LineFollows tokens ∧ beginsWithObserver tokens = false

theorem QuietFollows.ends {following : List Token} (quiet : QuietFollows following) :
    ∃ rest, following = ⟨.newline, "\n", ""⟩ :: rest ∧ continuesExpression rest = false ∧
      beginsWithObserver rest = false := by
  obtain ⟨⟨first, rest, rfl, kinds⟩, quiet⟩ := quiet
  refine ⟨first :: rest, rfl, ?_, by rwa [beginsWithObserver_newline rfl] at quiet⟩
  simp only [List.mem_cons, List.not_mem_nil, or_false] at kinds
  rcases kinds with kind | kind <;>
    simp [continuesExpression, afterNewlines, isNewline, kindAt, kind]

theorem specified_opening {body following : List Token} (filled : body ≠ [])
    (isExpression : ExpressionTokens [] body) (quiet : QuietFollows following)
    (inner : Parser Declaration) :
    Declaration.specified (Declaration.step inner) (openingLine ++ (body ++ following)) =
      .ok (constantOf "x" (some (slice body)), following) := by
  have before := quiet.2
  obtain ⟨rest, rfl, ends, behind⟩ := quiet.ends
  have bindings := parseAll_binding filled (isExpression.before before behind) ends
  have read : Declaration.afterKeyword inner .letDeclaration
      (openingLine.tail ++ (body ++ ⟨.newline, "\n", ""⟩ :: rest)) =
        .ok (constantOf "x" (some (slice body)), ⟨.newline, "\n", ""⟩ :: rest) := by
    rw [Declaration.afterKeyword, bind_of_ok bindings]
    rfl
  exact Declaration.specified_word ⟨rfl, rfl⟩ (Declaration.step_keyword rfl read)

section Structure

variable {body : List Token} (filled : body ≠ []) (isExpression : ExpressionTokens [] body)

include filled isExpression

theorem members_tokens (inner : Parser Declaration) :
    Declaration.members (Declaration.step inner) (⟨.newline, "\n", ""⟩ :: (openingLine ++
      (body ++ ⟨.newline, "\n", ""⟩ :: (nextLine ++ closingBefore [])))) =
        .ok ([constantOf "x" (some (slice body)), constantOf "y" none], []) := by
  let lines : List (List Token × Declaration) :=
    [(⟨.newline, "\n", ""⟩ :: (openingLine ++ body), constantOf "x" (some (slice body))),
      (⟨.newline, "\n", ""⟩ :: nextLine, constantOf "y" none)]
  have read : Declaration.members (Declaration.step inner) (lines.flatMap Prod.fst ++
      closingBefore []) = .ok (lines.map Prod.snd, []) := by
    have closed : QuietFollows (closingBefore []) := ⟨closingBefore_follows [], by decide⟩
    refine Declaration.members_items closed ?_ ?_
    · intro line isLine after _
      simp only [lines, List.mem_cons, List.not_mem_nil, or_false] at isLine
      rcases isLine with rfl | rfl
      · exact ⟨⟨⟨_, _, rfl, by simp [word]⟩, rfl⟩, by simp⟩
      · exact ⟨⟨⟨_, _, rfl, by simp [word]⟩, rfl⟩, by simp⟩
    · intro line isLine after quiet
      simp only [lines, List.mem_cons, List.not_mem_nil, or_false] at isLine
      rcases isLine with rfl | rfl
      · have opening := specified_opening filled isExpression quiet inner
        exact ⟨_, _, rfl, by simp [openingLine], opening⟩
      · have lexable : FieldOutline.Lexable ⟨false, "y", "T", false⟩ := by decide
        exact ⟨_, _, rfl, rfl, FieldOutline.specified_tokens lexable inner quiet.1⟩
  have shape : lines.flatMap Prod.fst ++ closingBefore [] = ⟨.newline, "\n", ""⟩ ::
      (openingLine ++ (body ++ ⟨.newline, "\n", ""⟩ :: (nextLine ++ closingBefore []))) := by
    simp [lines]
  rw [← shape]
  exact read

theorem parseAll_tokens :
    Declaration.parseAll (tokens body) = .ok ([.composite ⟨.structType, .none, .plain "S", [], none,
      [constantOf "x" (some (slice body)), constantOf "y" none]⟩], []) := by
  have isName : IsName "S" := by decide
  have read : ∀ inner, Declaration.afterKeyword (Declaration.step inner) (.composite .structType)
      (tokens body).tail = .ok (.composite ⟨.structType, .none, .plain "S", [], none,
        [constantOf "x" (some (slice body)), constantOf "y" none]⟩, []) := by
    intro inner
    have shape : (tokens body).tail = word " " "S" :: ⟨.leftBrace, " ", "\x7b"⟩ ::
      ⟨.newline, "\n", ""⟩ :: (openingLine ++
        (body ++ ⟨.newline, "\n", ""⟩ :: (nextLine ++ closingBefore []))) := rfl
    rw [shape, Declaration.afterKeyword, bind_of_ok (Name.parse_word isName " " _),
      bind_of_ok (Declaration.genericParameters_of_ne (by simp) _),
      bind_of_ok (Declaration.inheritance?_brace _), bind_of_ok (Declaration.whereClause_brace _),
      bind_of_ok (Declaration.openBody_brace _),
      bind_of_ok (members_tokens filled isExpression inner)]
    rfl
  exact Declaration.parseAll_alone ⟨rfl, rfl⟩ fun inner => Declaration.step_keyword rfl (read inner)

end Structure
end InitializedConstant

end SwiftLens
