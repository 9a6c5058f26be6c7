import SwiftLens.Proofs.Tokens.Spelling
import SwiftLens.Proofs.Lens.Lines

namespace SwiftLens

def SpaceFollows (after : List Char) : Prop :=
  ∀ c, after.head? = some c → Trivia.isGapBlank c = true

theorem SpaceFollows.head?_ne {after : List Char} (spaced : SpaceFollows after) {c : Char}
    (visible : Trivia.isGapBlank c = false) : after.head? ≠ some c := by
  intro first
  exact absurd (spaced c first) (by simp [visible])

theorem stopsRun_dropWhile (passes : Char → Bool) (chars : List Char) :
    StopsRun passes (chars.dropWhile passes) := by
  intro c first
  have stops := List.head?_dropWhile_not passes chars
  rw [first] at stops
  simpa using stops

/-- What may follow a token in place of `after`: a blank, or `after` cut short. -/
def MayFollow (after other : List Char) : Prop :=
  SpaceFollows other ∨ other <+: after

namespace MayFollow

variable {after other : List Char} (follows : MayFollow after other)

include follows

theorem head?_ne {c : Char} (visible : Trivia.isGapBlank c = false)
    (absent : after.head? ≠ some c) : other.head? ≠ some c := by
  rcases follows with spaced | ⟨more, rfl⟩
  · exact spaced.head?_ne visible
  · intro first
    exact absent (by simp [first])

theorem stopsRun {passes : Char → Bool} (stops : StopsRun passes after)
    (blanks : ∀ c, Trivia.isGapBlank c = true → passes c = false) : StopsRun passes other := by
  rcases follows with spaced | ⟨more, rfl⟩
  · exact fun c first => blanks c (spaced c first)
  · exact fun c first => stops c (by simp [first])

end MayFollow

namespace StringLiteral

theorem skip_anywhere {afterQuote rest : List Char} (skipped : skip afterQuote = .ok rest) :
    ∃ text, afterQuote = text ++ rest ∧
      ∀ other, MayFollow rest other → skip (text ++ other) = .ok other := by
  unfold skip at skipped
  split at skipped
  · next body =>
    obtain ⟨text, rfl, closes⟩ := skipPlain_anywhere skipped
    refine ⟨'"' :: '"' :: text, rfl, ?_⟩
    intro other follows
    exact closes.drops [⟨.multiline, '"' :: '"' :: '"' :: (text ++ other)⟩] rfl other
  · next noBlock =>
    obtain ⟨text, rfl, closes⟩ := skipPlain_anywhere skipped
    refine ⟨text, rfl, ?_⟩
    intro other follows
    have single : ∀ more, text ++ other = '"' :: '"' :: more → False := by
      intro more same
      match text, closes.long with
      | [last], _ =>
        rw [List.singleton_append, List.cons.injEq] at same
        obtain ⟨rfl, rfl⟩ := same
        have noQuote : rest.head? ≠ some '"' := by
          intro first
          obtain ⟨tail, rfl⟩ := List.head?_eq_some_iff.mp first
          exact noBlock tail rfl
        exact follows.head?_ne (by decide) noQuote rfl
      | first :: second :: others, _ =>
        exact no_quotes_before (by simp) noBlock other more same
    rw [skip.eq_2 _ single]
    exact closes.drops [⟨.singleLine, '"' :: (text ++ other)⟩] rfl other

theorem skipRaw_anywhere {marks : Nat} {afterQuote rest : List Char}
    (skipped : skipRaw (1 + marks) afterQuote = some rest) :
    ∃ text, afterQuote = text ++ rest ∧ ∀ after, skipRaw (1 + marks) (text ++ after) = some after := by
  unfold skipRaw at skipped
  split at skipped
  · obtain ⟨text, rfl, -, closes⟩ := skipRawBlock_anywhere skipped
    exact ⟨'"' :: '"' :: text, rfl, closes.drops⟩
  · next noBlock =>
    obtain ⟨text, rfl, closes⟩ := skipRawLine_anywhere skipped
    refine ⟨text, rfl, ?_⟩
    intro after
    have long : 2 ≤ text.length := by
      obtain ⟨front, rfl⟩ := closes.ends
      simp
      omega
    rw [skipRaw.eq_2 _ _ (no_quotes_before long noBlock after)]
    exact closes.drops after

end StringLiteral

namespace Lexeme

theorem continuesNumber_of_blank (c : Char) (blank : Trivia.isGapBlank c = true) :
    continuesNumber c = false := by
  simp only [Trivia.isGapBlank, Bool.or_eq_true, beq_iff_eq] at blank
  rcases blank with ((rfl | rfl) | rfl) | rfl <;> decide

theorem continuesIdentifier_of_blank (c : Char) (blank : Trivia.isGapBlank c = true) :
    continuesIdentifier c = false := by
  simp only [Trivia.isGapBlank, Bool.or_eq_true, beq_iff_eq] at blank
  rcases blank with ((rfl | rfl) | rfl) | rfl <;>
    (rw [continuesIdentifier_ascii (by decide)]; decide)

theorem noMark_of_blank (c : Char) (blank : Trivia.isGapBlank c = true) : (c == '#') = false := by
  rw [beq_eq_false_iff_ne]
  rintro rfl
  exact absurd blank (by decide)

def NoFraction (after : List Char) : Prop :=
  ∀ digit fraction, after = '.' :: digit :: fraction → digit.isDigit = false

theorem NoFraction.mayFollow {after other : List Char} (whole : NoFraction after)
    (follows : MayFollow after other) : NoFraction other := by
  rintro digit fraction rfl
  rcases follows with spaced | ⟨more, rfl⟩
  · exact absurd (spaced '.' rfl) (by decide)
  · exact whole digit (fraction ++ more) rfl

/-- Without a fraction a number ends where its digits end. -/
theorem skipNumber_of_run {run after : List Char} (digits : run.all continuesNumber = true)
    (stops : StopsRun continuesNumber after) (whole : NoFraction after) :
    skipNumber (run ++ after) = (.integer, after) := by
  unfold skipNumber
  rw [stops.dropWhile_append digits]
  split
  · next digit fraction => rw [if_neg (by simp [whole digit fraction rfl])]
  · rfl

theorem skipNumber_anywhere {rest after : List Char} {kind : Token.Kind}
    (skipped : skipNumber rest = (kind, after)) :
    ∃ tail, rest = tail ++ after ∧
      ∀ other, MayFollow after other → skipNumber (tail ++ other) = (kind, other) := by
  have run := rest.takeWhile_append_dropWhile (p := continuesNumber)
  have digits := rest.all_takeWhile (p := continuesNumber)
  -- A number without a fraction ends where its run of digits ends.
  have integer : NoFraction (rest.dropWhile continuesNumber) →
      ∀ other, MayFollow (rest.dropWhile continuesNumber) other →
        skipNumber (rest.takeWhile continuesNumber ++ other) = (.integer, other) := by
    intro whole other follows
    exact skipNumber_of_run digits
      (follows.stopsRun (stopsRun_dropWhile _ _) continuesNumber_of_blank) (whole.mayFollow follows)
  unfold skipNumber at skipped
  split at skipped
  · next digit fraction dropped =>
    split at skipped
    · next isDigit =>
      cases skipped
      rw [dropped] at run
      have fractionRun := fraction.takeWhile_append_dropWhile (p := continuesNumber)
      refine ⟨rest.takeWhile continuesNumber ++ '.' :: digit :: fraction.takeWhile continuesNumber,
        ?_, ?_⟩
      · rw [List.append_assoc, List.cons_append, List.cons_append, fractionRun, run]
      · intro other follows
        have stops := follows.stopsRun (stopsRun_dropWhile _ _) continuesNumber_of_blank
        unfold skipNumber
        rw [List.append_assoc, List.dropWhile_append_of_pos (List.all_eq_true.mp digits),
          List.cons_append, List.dropWhile_cons_of_neg (by decide)]
        simp only [List.cons_append, isDigit, if_true]
        rw [stops.dropWhile_append List.all_takeWhile]
    · next noDigit =>
      cases skipped
      rw [← dropped]
      refine ⟨_, run.symm, integer ?_⟩
      intro other more same
      rw [dropped] at same
      cases same
      simpa using noDigit
  · next noDot =>
    cases skipped
    refine ⟨_, run.symm, integer ?_⟩
    intro other more same
    exact (noDot other more same).elim

theorem skipMarked_anywhere {rest after : List Char} {kind : Token.Kind}
    (skipped : skipMarked rest = .ok (kind, after)) :
    ∃ tail, rest = tail ++ after ∧
      ∀ other, MayFollow after other → skipMarked (tail ++ other) = .ok (kind, other) := by
  have run := rest.takeWhile_append_dropWhile (p := (· == '#'))
  have marks := rest.all_takeWhile (p := (· == '#'))
  unfold skipMarked at skipped
  dsimp only at skipped
  split at skipped
  · next afterQuote quoted =>
    rw [quoted] at run
    split at skipped
    · next found =>
      cases skipped
      obtain ⟨text, rfl, drops⟩ := StringLiteral.skipRaw_anywhere found
      refine ⟨rest.takeWhile (· == '#') ++ '"' :: text, by simpa using run.symm, ?_⟩
      intro other follows
      unfold skipMarked
      rw [List.append_assoc, List.takeWhile_append_of_pos (List.all_eq_true.mp marks),
        List.dropWhile_append_of_pos (List.all_eq_true.mp marks)]
      simp [drops other]
    · cases skipped
  · next noQuote =>
    cases skipped
    refine ⟨rest.takeWhile (· == '#'), run.symm, ?_⟩
    intro other follows
    have stops := follows.stopsRun (stopsRun_dropWhile _ _) noMark_of_blank
    have unquoted : (rest.dropWhile (· == '#')).head? ≠ some '"' := by
      intro first
      obtain ⟨tail, quoted⟩ := List.head?_eq_some_iff.mp first
      exact noQuote tail quoted
    unfold skipMarked
    rw [stops.takeWhile_append marks, stops.dropWhile_append marks]
    dsimp only
    split
    · exact absurd rfl (follows.head?_ne (by decide) unquoted)
    · rfl

theorem skip_digit {c : Char} (digit : c.isDigit = true) (rest : List Char) :
    skip c rest = .ok (skipNumber rest) := by
  have noMark : punctuation? c = none := by
    unfold punctuation?
    split <;> first
      | exact absurd digit (by decide)
      | rfl
  have noHash : c ≠ '#' := by
    rintro rfl
    exact absurd digit (by decide)
  have noQuote : c ≠ '"' := by
    rintro rfl
    exact absurd digit (by decide)
  have noTick : c ≠ '\x60' := by
    rintro rfl
    exact absurd digit (by decide)
  simp [skip, noMark, noHash, noQuote, noTick, digit]

theorem skip_operator {c : Char} (operator : isOperator c = true) {rest : List Char}
    (noArrow : c = '-' → rest.head? ≠ some '>') : skip c rest = .ok (.operator, rest) := by
  simp only [isOperator, Bool.or_eq_true, beq_iff_eq] at operator
  rcases operator with (((((((rfl | rfl) | rfl) | rfl) | rfl) | rfl) | rfl) | rfl) | rfl <;>
    simp_all [skip, punctuation?, startsIdentifier_ascii, isOperator]

/-- A token is the same token wherever a blank follows or what followed is cut short. -/
theorem skip_anywhere {c : Char} {rest after : List Char} {kind : Token.Kind}
    (lexed : skip c rest = .ok (kind, after)) :
    ∃ tail, rest = tail ++ after ∧
      ∀ other, MayFollow after other → skip c (tail ++ other) = .ok (kind, other) := by
  rcases skip_cases lexed with ⟨isMark, rfl⟩ | ⟨rfl, marked⟩ | ⟨rfl, rfl, literal⟩ |
    ⟨rfl, rfl, closed⟩ | ⟨digit, number⟩ | ⟨starts, rfl, rfl⟩ | ⟨rfl, rfl, rfl⟩ | ⟨operator, rfl, rfl⟩
  · exact ⟨[], rfl, fun other _ => skip_mark isMark other⟩
  · obtain ⟨tail, rfl, reads⟩ := skipMarked_anywhere marked
    exact ⟨tail, rfl, reads⟩
  · obtain ⟨text, rfl, drops⟩ := StringLiteral.skip_anywhere literal
    refine ⟨text, rfl, ?_⟩
    intro other follows
    simp [skip, punctuation?, drops other follows, Except.map]
  · obtain ⟨name, rfl, inside⟩ := spells_backticked closed
    refine ⟨name ++ ['\x60'], by simp, ?_⟩
    intro other _
    simpa using skip_backticked inside other
  · obtain ⟨tail, rfl, reads⟩ := skipNumber_anywhere number
    refine ⟨tail, rfl, ?_⟩
    intro other follows
    rw [skip_digit digit, reads other follows]
  · refine ⟨_, rest.takeWhile_append_dropWhile.symm, ?_⟩
    intro other follows
    exact skip_word starts List.all_takeWhile
      (follows.stopsRun (stopsRun_dropWhile _ _) continuesIdentifier_of_blank)
  · exact ⟨['>'], rfl, fun other _ => skip_arrow other⟩
  · refine ⟨[], rfl, ?_⟩
    intro other follows
    apply skip_operator operator
    rintro rfl
    apply follows.head?_ne (by decide)
    intro points
    obtain ⟨tail, rfl⟩ := List.head?_eq_some_iff.mp points
    rw [skip_arrow] at lexed
    cases lexed

/-- A slash that begins a token is an operator. -/
theorem rest_of_slash {rest after : List Char} {kind : Token.Kind}
    (lexed : skip '/' rest = .ok (kind, after)) : after = rest := by
  have noLetter : startsIdentifier '/' = false := by
    rw [startsIdentifier_ascii (by decide)]
    decide
  have operator : skip '/' rest = .ok (.operator, rest) := by
    simp [skip, punctuation?, noLetter, isOperator, Char.isDigit]
  rw [operator] at lexed
  cases lexed
  rfl

end Lexeme

theorem isGapBlank_of_isBlank {c : Char} (visible : isBlank c = false) :
    Trivia.isGapBlank c = false := by
  rw [Bool.eq_false_iff]
  intro blank
  simp only [Trivia.isGapBlank, Bool.or_eq_true, beq_iff_eq] at blank
  rcases blank with ((rfl | rfl) | rfl) | rfl <;> exact absurd visible (by decide)

namespace Token

def spelling (token : Token) : String :=
  if token.kind = .newline then "\n" else token.text

/-- The tokens before the end of the file with single spaces between them. -/
def respaced (tokens : List Token) : String :=
  " ".intercalate ((tokens.filter (·.kind ≠ .endOfFile)).map spelling)

def trail (tokens : List Token) : List Char :=
  tokens.flatMap fun token => ' ' :: token.spelling.toList

theorem spaceFollows_trail (tokens : List Token) : SpaceFollows (trail tokens) := by
  intro c first
  cases tokens with
  | nil => cases first
  | cons token rest =>
    cases first
    decide

def respacedGap (gap : List Char) : List Char :=
  if gap.contains '\n' then [' ', '\n', ' '] else [' ']

theorem isGapBlank_respacedGap (gap : List Char) :
    (respacedGap gap).all Trivia.isGapBlank = true := by
  unfold respacedGap
  split <;> decide

theorem trail_withGap {kind : Kind} (noBreak : kind ≠ .newline) (gap text : List Char) :
    trail (withGap true gap kind text) = respacedGap gap ++ text := by
  unfold withGap respacedGap
  rw [Bool.true_and]
  split
  · simp [trail, spelling, noBreak]
  · simp [trail, spelling, noBreak]

/-- Whether there is a line break is all that a gap adds to the kinds and texts. -/
theorem map_sign_respacedGap (gap text : List Char) (kind : Kind) :
    (withGap true (respacedGap gap) kind text).map sign = (withGap true gap kind text).map sign := by
  unfold withGap respacedGap
  rw [Bool.true_and, Bool.true_and]
  split
  · simp [sign]
  · simp [sign]

/-- The first character of a token begins no comment before a blank. -/
theorem begins_of_skip {c : Char} {tail after other : List Char} {kind : Kind}
    (lexed : Lexeme.skip c (tail ++ after) = .ok (kind, after)) (spaced : SpaceFollows other) :
    Trivia.skip (c :: (tail ++ other)) = .ok (c :: (tail ++ other)) := by
  obtain ⟨_, _, spelled⟩ := Lexeme.spells_of_skip lexed
  apply Trivia.skip_visible (isGapBlank_of_isBlank (spelled.tight.first c rfl))
  rintro rfl
  obtain rfl : tail = [] := by simpa using Lexeme.rest_of_slash lexed
  exact ⟨spaced.head?_ne (by decide), spaced.head?_ne (by decide)⟩

/-- A token of a source is read in a respaced text. -/
theorem scan_respaced_token {c : Char} {rest after : List Char} {kind : Kind}
    (lexed : Lexeme.skip c rest = .ok (kind, after)) {later : List Char} {more : List Token}
    (spaced : SpaceFollows later) (scanned : scan true later = .ok more) {gap : List Char}
    (blank : gap.all Trivia.isGapBlank = true) (afterToken : Bool) :
    scan afterToken (gap ++ charsBefore (c :: rest) after ++ later) =
      .ok (withGap afterToken gap kind (charsBefore (c :: rest) after) ++ more) := by
  obtain ⟨tail, rfl, reads⟩ := Lexeme.skip_anywhere lexed
  have text : charsBefore (c :: (tail ++ after)) after = c :: tail :=
    charsBefore_of_append (c :: tail) after
  rw [text]
  exact scan_of_begins blank (begins_of_skip lexed spaced) (reads later (.inl spaced)) scanned
    afterToken

theorem trail_append (front back : List Token) : trail (front ++ back) = trail front ++ trail back :=
  List.flatMap_append

/-- The end of the file keeps its line break. -/
theorem scan_trail_end (gap : List Char) :
    ∃ others, scan true (trail (withGap true gap .endOfFile []).dropLast) = .ok others ∧
      others.map sign = (withGap true gap .endOfFile []).map sign := by
  unfold withGap
  split
  · have blank : [' ', '\n'].all Trivia.isGapBlank = true := by decide
    have read := scan_of_end (Trivia.skip_blanks blank) true
    exact ⟨_, by simpa [trail, spelling] using read, by simp [withGap, sign]⟩
  · exact ⟨[⟨.endOfFile, "", ""⟩], scan_of_end rfl true, rfl⟩

/-- The tokens after a first one, respaced, have the same kinds and texts. -/
theorem scan_trail {source : List Char} {tokens : List Token}
    (scanned : scan true source = .ok tokens) :
    ∃ others, scan true (trail tokens.dropLast) = .ok others ∧
      others.map sign = tokens.map sign := by
  induction length : source.length using Nat.strongRecOn generalizing source tokens with
  | ind size ih =>
    rcases scan_cases scanned with
      ⟨ended, rfl⟩ | ⟨c, rest, kind, after, more, found, lexed, read, rfl⟩
    · exact scan_trail_end source
    · have shorter := rest_shorter found lexed
      obtain ⟨others, readOthers, same⟩ := ih after.length (by omega) read rfl
      have here := scan_respaced_token lexed (spaceFollows_trail _) readOthers
        (isGapBlank_respacedGap (charsBefore source (c :: rest))) true
      rw [← trail_withGap (Lexeme.skip_kind lexed).1, ← trail_append,
        ← List.dropLast_append_of_ne_nil (scan_ne_nil read)] at here
      refine ⟨_, here, ?_⟩
      rw [List.map_append, List.map_append, map_sign_respacedGap, same]

theorem toList_intercalate_spelling (first : Token) (rest : List Token) :
    (" ".intercalate ((first :: rest).map spelling)).toList =
      first.spelling.toList ++ trail rest := by
  induction rest generalizing first with
  | nil => simp [trail]
  | cons second rest ih =>
    rw [List.map_cons, List.map_cons, String.intercalate_cons_cons, ← List.map_cons,
      String.toList_append, ih]
    simp [trail]

/-- All tokens but the last are respaced. -/
theorem respaced_of_scan {afterToken : Bool} {source : List Char} {tokens : List Token}
    (scanned : scan afterToken source = .ok tokens) :
    respaced tokens = " ".intercalate (tokens.dropLast.map spelling) := by
  obtain ⟨front, gap, rfl, goesOn⟩ := (laid_of_scan scanned).ends
  have kept : front.filter (·.kind ≠ .endOfFile) = front := by
    simpa [List.filter_eq_self] using goesOn
  rw [respaced, List.dropLast_concat, List.filter_append, kept]
  simp

theorem respaced_eq_of_sign {tokens others : List Token}
    (same : others.map sign = tokens.map sign) : respaced others = respaced tokens := by
  -- A respaced text is a function of the kinds and texts.
  have bySign : ∀ list : List Token, respaced list =
      " ".intercalate (((list.map sign).filter (·.1 ≠ .endOfFile)).map
        fun entry => if entry.1 = .newline then "\n" else entry.2) := by
    intro list
    rw [List.filter_map, List.map_map]
    rfl
  rw [bySign, bySign, same]

end Token

/-- Tokens do not depend on the gaps between them: respaced, they are read again. -/
theorem tokenize_respaced {source : String} {tokens : List Token}
    (read : tokenize source = .ok tokens) :
    ∃ others, tokenize (Token.respaced tokens) = .ok others ∧
      others.map Token.sign = tokens.map Token.sign ∧
      Token.respaced others = Token.respaced tokens := by
  have scanned := tokenize_ok read
  suffices again : ∃ others, Token.scan false (Token.respaced tokens).toList = .ok others ∧
      others.map Token.sign = tokens.map Token.sign by
    obtain ⟨others, readAgain, same⟩ := again
    refine ⟨others, ?_, same, Token.respaced_eq_of_sign same⟩
    rw [tokenize, readAgain]
    rfl
  rw [Token.respaced_of_scan scanned]
  rcases Token.scan_cases scanned with
    ⟨ended, rfl⟩ | ⟨c, rest, kind, after, more, found, lexed, readMore, rfl⟩
  · exact ⟨_, Token.scan_of_end rfl false, by simp [Token.withGap, Token.sign]⟩
  · obtain ⟨others, readOthers, same⟩ := Token.scan_trail readMore
    have here := Token.scan_respaced_token lexed (Token.spaceFollows_trail _) readOthers
      (List.all_nil : [].all Trivia.isGapBlank = true) false
    have noBreak := (Lexeme.skip_kind lexed).1
    rw [List.dropLast_append_of_ne_nil (Token.scan_ne_nil readMore), Token.withGap, if_neg (by simp),
      List.singleton_append, Token.toList_intercalate_spelling, Token.spelling, if_neg noBreak,
      String.toList_ofList]
    refine ⟨_, here, ?_⟩
    simp [Token.withGap, Token.sign, same]

/-- Comments and touching tokens: a float before a dot, an operator before a mark that opens no raw
literal, and a literal inside another one. -/
theorem tokenize_respaced_comments :
    tokenize "1.5.a//-\n\n/#/*-*/\"\\(\"\")\"" =
        .ok [⟨.float, "", "1.5"⟩, ⟨.dot, "", "."⟩, ⟨.identifier, "", "a"⟩,
          ⟨.newline, "//-\n\n", ""⟩, ⟨.operator, "", "/"⟩, ⟨.hash, "", "#"⟩,
          ⟨.string, "/*-*/", "\"\\(\"\")\""⟩, ⟨.endOfFile, "", ""⟩] ∧
      ∃ others, tokenize "1.5 . a \n / # \"\\(\"\")\"" = .ok others ∧
        others.map Token.sign = [(.float, "1.5"), (.dot, "."), (.identifier, "a"), (.newline, ""),
          (.operator, "/"), (.hash, "#"), (.string, "\"\\(\"\")\""), (.endOfFile, "")] ∧
        Token.respaced others = "1.5 . a \n / # \"\\(\"\")\"" := by
  have read : tokenize "1.5.a//-\n\n/#/*-*/\"\\(\"\")\"" =
      .ok [⟨.float, "", "1.5"⟩, ⟨.dot, "", "."⟩, ⟨.identifier, "", "a"⟩,
        ⟨.newline, "//-\n\n", ""⟩, ⟨.operator, "", "/"⟩, ⟨.hash, "", "#"⟩,
        ⟨.string, "/*-*/", "\"\\(\"\")\""⟩, ⟨.endOfFile, "", ""⟩] := by decide +kernel
  have written : Token.respaced [⟨.float, "", "1.5"⟩, ⟨.dot, "", "."⟩, ⟨.identifier, "", "a"⟩,
      ⟨.newline, "//-\n\n", ""⟩, ⟨.operator, "", "/"⟩, ⟨.hash, "", "#"⟩,
      ⟨.string, "/*-*/", "\"\\(\"\")\""⟩, ⟨.endOfFile, "", ""⟩] =
        "1.5 . a \n / # \"\\(\"\")\"" := by decide +kernel
  have again := tokenize_respaced read
  rw [written] at again
  exact ⟨read, again⟩

end SwiftLens
