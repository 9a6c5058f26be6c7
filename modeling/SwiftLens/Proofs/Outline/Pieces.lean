import SwiftLens.Proofs.Outline.Text

namespace SwiftLens

def StopsRun (passes : Char → Bool) (after : List Char) : Prop :=
  ∀ c, after.head? = some c → passes c = false

namespace StopsRun

variable {passes : Char → Bool} {run after : List Char} (stops : StopsRun passes after)

include stops

theorem dropWhile_append (inRun : run.all passes = true) :
    (run ++ after).dropWhile passes = after := by
  rw [List.dropWhile_append_of_pos (by simpa using inRun)]
  cases after with
  | nil => rfl
  | cons c rest => exact List.dropWhile_cons_of_neg (by simp [stops c rfl])

theorem takeWhile_append (inRun : run.all passes = true) :
    (run ++ after).takeWhile passes = run := by
  rw [List.takeWhile_append_of_pos (by simpa using inRun)]
  cases after with
  | nil => simp
  | cons c rest => simp [stops c rfl]

end StopsRun

namespace Lexeme

theorem ne_of_startsIdentifier {c other : Char} (starts : startsIdentifier c = true)
    (ascii : other.toNat < 128)
    (excluded : (other.isAlpha || other == '_' || other == '$') = false) : c ≠ other := by
  rintro rfl
  rw [startsIdentifier_ascii ascii, excluded] at starts
  cases starts

theorem punctuation?_of_startsIdentifier {c : Char} (starts : startsIdentifier c = true) :
    punctuation? c = none := by
  unfold punctuation?
  split <;> first
    | rfl
    | exact absurd rfl (ne_of_startsIdentifier starts (by decide) (by decide))

/-- Marks neither are blank nor begin a comment nor go on with an identifier. -/
theorem mark_apart {c : Char} {kind : Token.Kind} (isMark : punctuation? c = some kind) :
    Trivia.isGapBlank c = false ∧ c ≠ '/' ∧ continuesIdentifier c = false := by
  unfold punctuation? at isMark
  split at isMark <;> first
    | cases isMark; done
    | refine ⟨by decide, by decide, ?_⟩
      rw [continuesIdentifier_ascii (by decide)]
      decide

theorem not_isDigit_of_startsIdentifier {c : Char} (starts : startsIdentifier c = true) :
    c.isDigit = false := by
  rw [Bool.eq_false_iff]
  intro digit
  simp only [Char.isDigit, Bool.and_eq_true, decide_eq_true_eq, ge_iff_le,
    UInt32.le_iff_toNat_le] at digit
  have low : 48 ≤ c.toNat := digit.1
  have high : c.toNat ≤ 57 := digit.2
  refine ne_of_startsIdentifier starts (show c.toNat < 128 by omega) ?_ rfl
  have noLine : c ≠ '_' := by
    rintro rfl
    revert high
    decide
  have noDollar : c ≠ '$' := by
    rintro rfl
    revert low
    decide
  have noAlpha : c.isAlpha = false := by
    delta Char.isAlpha Char.isUpper Char.isLower
    simp only [ge_iff_le, UInt32.le_iff_toNat_le, Char.toNat_val, Char.reduceVal,
      UInt32.reduceToNat, Bool.decide_and, Bool.or_eq_false_iff, Bool.and_eq_false_imp,
      decide_eq_true_eq, decide_eq_false_iff_not, Nat.not_le]
    omega
  simp [noAlpha, noLine, noDollar]

def StopsWord (after : List Char) : Prop :=
  ∀ c, after.head? = some c → continuesIdentifier c = false

theorem dropWhile_word {word after : List Char} (continues : word.all continuesIdentifier = true)
    (stops : StopsWord after) : (word ++ after).dropWhile continuesIdentifier = after :=
  StopsRun.dropWhile_append stops continues

theorem skip_word {c : Char} {rest after : List Char} (starts : startsIdentifier c = true)
    (continues : rest.all continuesIdentifier = true) (stops : StopsWord after) :
    skip c (rest ++ after) = .ok (.identifier, after) := by
  have noMark : c ≠ '#' := ne_of_startsIdentifier starts (by decide) (by decide)
  have noQuote : c ≠ '"' := ne_of_startsIdentifier starts (by decide) (by decide)
  have noTick : c ≠ '\x60' := ne_of_startsIdentifier starts (by decide) (by decide)
  simp [skip, punctuation?_of_startsIdentifier starts, noMark, noQuote, noTick,
    not_isDigit_of_startsIdentifier starts, starts, dropWhile_word continues stops]

theorem skip_mark {c : Char} {kind : Token.Kind} (isMark : punctuation? c = some kind)
    (after : List Char) : skip c after = .ok (kind, after) := by
  simp [skip, isMark]

end Lexeme

theorem Trivia.skip_blank {c : Char} (blank : isGapBlank c = true) (rest : List Char) :
    skip (c :: rest) = skip rest := by
  have noSlash : c ≠ '/' := by
    rintro rfl
    exact absurd blank (by decide)
  unfold skip
  rw [skipFrom.eq_4 _ _ (fun _ isSlash => absurd isSlash noSlash)
    (fun _ isSlash => absurd isSlash noSlash), if_pos blank]

theorem Trivia.skip_blanks_append {gap : List Char} (blank : gap.all isGapBlank = true)
    (rest : List Char) : skip (gap ++ rest) = skip rest := by
  induction gap with
  | nil => rfl
  | cons first others ih =>
    rw [List.all_cons, Bool.and_eq_true] at blank
    rw [List.cons_append, skip_blank blank.1]
    exact ih blank.2

theorem Trivia.skip_visible {c : Char} {rest : List Char} (visible : isGapBlank c = false)
    (noComment : c = '/' → rest.head? ≠ some '/' ∧ rest.head? ≠ some '*') :
    skip (c :: rest) = .ok (c :: rest) := by
  have noLine : ∀ more, c = '/' → rest = '/' :: more → False := by
    rintro more isSlash rfl
    exact (noComment isSlash).1 rfl
  have noBlock : ∀ more, c = '/' → rest = '*' :: more → False := by
    rintro more isSlash rfl
    exact (noComment isSlash).2 rfl
  unfold skip
  rw [skipFrom.eq_4 _ _ noLine noBlock, if_neg (by simp [visible])]

namespace Token

def word (gap text : String) : Token :=
  ⟨.identifier, gap, text⟩

/-- A token after a gap of blanks is read if its text is read and begins no comment. -/
theorem scan_of_begins {gap rest after : List Char} {c : Char} {kind : Kind} {more : List Token}
    (blank : gap.all Trivia.isGapBlank = true)
    (begins : Trivia.skip (c :: (rest ++ after)) = .ok (c :: (rest ++ after)))
    (lexed : Lexeme.skip c (rest ++ after) = .ok (kind, after))
    (scanned : scan true after = .ok more) (afterToken : Bool) :
    scan afterToken (gap ++ c :: rest ++ after) =
      .ok (withGap afterToken gap kind (c :: rest) ++ more) := by
  have skipped : Trivia.skip (gap ++ c :: (rest ++ after)) = .ok (c :: (rest ++ after)) := by
    rw [Trivia.skip_blanks_append blank, begins]
  have covered : charsBefore (c :: (rest ++ after)) after = c :: rest :=
    charsBefore_of_append (c :: rest) after
  rw [List.append_assoc, List.cons_append, scan_of_token skipped lexed scanned,
    charsBefore_of_append, covered]

theorem scan_of_reads {gap rest after : List Char} {c : Char} {kind : Kind} {more : List Token}
    (blank : gap.all Trivia.isGapBlank = true) (visible : Trivia.isGapBlank c = false)
    (noSlash : c ≠ '/') (lexed : Lexeme.skip c (rest ++ after) = .ok (kind, after))
    (scanned : scan true after = .ok more) (afterToken : Bool) :
    scan afterToken (gap ++ c :: rest ++ after) =
      .ok (withGap afterToken gap kind (c :: rest) ++ more) := by
  have begins : Trivia.skip (c :: (rest ++ after)) = .ok (c :: (rest ++ after)) :=
    Trivia.skip_visible visible fun isSlash => absurd isSlash noSlash
  exact scan_of_begins blank begins lexed scanned afterToken

structure IsPiece (token : Token) : Prop where
  gap : token.gap = "" ∨ token.gap = " " ∨ token.gap = "\n"
  text : (token.kind = .identifier ∧ Lexeme.isWord token.text = true) ∨
    ∃ c, Lexeme.punctuation? c = some token.kind ∧ token.text = String.singleton c

def StandsOff (tokens : List Token) : Prop :=
  ∀ token, tokens.head? = some token → token.gap ≠ "" ∨ token.kind ≠ .identifier

inductive ArePieces : List Token → Prop
  | nil : ArePieces []
  | cons {token : Token} {rest : List Token} (isPiece : token.IsPiece)
      (apart : token.kind = .identifier → StandsOff rest) (others : ArePieces rest) :
      ArePieces (token :: rest)

def broken (token : Token) : List Token :=
  if token.gap = "\n" then [⟨.newline, "\n", ""⟩, ⟨token.kind, "", token.text⟩] else [token]

theorem IsPiece.reads {token : Token} (isPiece : token.IsPiece) {after : List Char}
    (stops : token.kind = .identifier → Lexeme.StopsWord after) :
    ∃ c rest, token.text.toList = c :: rest ∧ Trivia.isGapBlank c = false ∧ c ≠ '/' ∧
      Lexeme.skip c (rest ++ after) = .ok (token.kind, after) := by
  rcases isPiece.text with ⟨isWord, spelled⟩ | ⟨c, isMark, spelled⟩
  · unfold Lexeme.isWord at spelled
    split at spelled
    · cases spelled
    · next c rest chars =>
      rw [Bool.and_eq_true] at spelled
      obtain ⟨starts, continues⟩ := spelled
      refine ⟨c, rest, chars, ?_, Lexeme.ne_of_startsIdentifier starts (by decide) (by decide), ?_⟩
      · have noSpace : c ≠ ' ' := Lexeme.ne_of_startsIdentifier starts (by decide) (by decide)
        have noTab : c ≠ '\t' := Lexeme.ne_of_startsIdentifier starts (by decide) (by decide)
        have noReturn : c ≠ '\r' := Lexeme.ne_of_startsIdentifier starts (by decide) (by decide)
        have noFeed : c ≠ '\n' := Lexeme.ne_of_startsIdentifier starts (by decide) (by decide)
        simp [Trivia.isGapBlank, noSpace, noTab, noReturn, noFeed]
      · rw [isWord]
        exact Lexeme.skip_word starts continues (stops isWord)
  · obtain ⟨visible, noSlash, -⟩ := Lexeme.mark_apart isMark
    exact ⟨c, [], by simp [spelled], visible, noSlash, Lexeme.skip_mark isMark after⟩

theorem IsPiece.withGap_eq {token : Token} (isPiece : token.IsPiece) {afterToken : Bool}
    (inside : afterToken = true ∨ token.gap ≠ "\n") :
    withGap afterToken token.gap.toList token.kind token.text.toList = token.broken := by
  obtain ⟨kind, gap, text⟩ := token
  rcases isPiece.gap with rfl | rfl | rfl
  · simp [withGap, broken]
  · simp [withGap, broken]
  · have afterFirst : afterToken = true := by simpa using inside
    simp [withGap, broken, afterFirst]

/-- A piece is read as its own token, after a line break if a line feed stands before it. -/
theorem IsPiece.scan_source {token : Token} (isPiece : token.IsPiece) {after : List Char}
    {more : List Token} (stops : token.kind = .identifier → Lexeme.StopsWord after)
    (scanned : scan true after = .ok more) {afterToken : Bool}
    (inside : afterToken = true ∨ token.gap ≠ "\n") :
    scan afterToken (token.source.toList ++ after) = .ok (token.broken ++ more) := by
  obtain ⟨c, rest, chars, visible, noSlash, lexed⟩ := isPiece.reads stops
  have whole : token.source.toList ++ after = token.gap.toList ++ c :: rest ++ after := by
    simp [source, chars]
  have blank : token.gap.toList.all Trivia.isGapBlank = true := by
    rcases isPiece.gap with gap | gap | gap <;> rw [gap] <;> decide
  rw [whole, scan_of_reads blank visible noSlash lexed scanned, ← chars]
  rw [isPiece.withGap_eq inside]

/-- The beginning of a list of pieces ends a word if its first piece does not touch it. -/
theorem ArePieces.stopsWord {tokens : List Token} (pieces : ArePieces tokens)
    (apart : StandsOff tokens) : Lexeme.StopsWord (sourceOf tokens).toList := by
  cases pieces with
  | nil =>
    intro c first
    cases first
  | @cons token rest isPiece _ others =>
    intro c first
    rw [sourceOf, source, String.toList_append, String.toList_append] at first
    have space : Lexeme.continuesIdentifier ' ' = false := by
      rw [Lexeme.continuesIdentifier_ascii (by decide)]
      decide
    -- The first character is that of the gap, or of a mark if there is no gap.
    rcases isPiece.gap with gap | gap | gap
    · rcases isPiece.text with ⟨isWord, -⟩ | ⟨mark, isMark, spelled⟩
      · rcases apart token rfl with spaced | noWord
        · exact absurd gap spaced
        · exact absurd isWord noWord
      · rw [gap, spelled] at first
        obtain rfl : mark = c := by simpa using first
        exact (Lexeme.mark_apart isMark).2.2
    · rw [gap] at first
      obtain rfl : ' ' = c := by simpa using first
      exact space
    · rw [gap] at first
      obtain rfl : '\n' = c := by simpa using first
      exact Lexeme.continuesIdentifier_feed

theorem ArePieces.scan_source {tokens : List Token} (pieces : ArePieces tokens) :
    scan true (sourceOf tokens).toList = .ok (tokens.flatMap broken ++ [⟨.endOfFile, "", ""⟩]) := by
  induction pieces with
  | nil => exact scan_of_end rfl true
  | @cons token rest isPiece apart others ih =>
    rw [sourceOf, String.toList_append, List.flatMap_cons, List.append_assoc]
    exact isPiece.scan_source (fun isWord => others.stopsWord (apart isWord)) ih (.inl rfl)

theorem scan_pieces {first : Token} {rest : List Token} (pieces : ArePieces (first :: rest))
    (begins : first.gap ≠ "\n") :
    scan false (sourceOf (first :: rest)).toList =
      .ok (first :: rest.flatMap broken ++ [⟨.endOfFile, "", ""⟩]) := by
  cases pieces with
  | cons isPiece apart others =>
    have alone : first.broken = [first] := if_neg begins
    rw [sourceOf, String.toList_append, isPiece.scan_source
      (fun isWord => others.stopsWord (apart isWord)) others.scan_source (.inr begins), alone]
    rfl

@[simp]
theorem standsOff_nil : StandsOff [] := by
  intro token first
  cases first

theorem standsOff_cons {token : Token} {rest : List Token}
    (apart : token.gap ≠ "" ∨ token.kind ≠ .identifier) : StandsOff (token :: rest) := by
  rintro _ ⟨⟩
  exact apart

theorem StandsOff.append {front back : List Token} (apart : StandsOff front)
    (apartBack : StandsOff back) : StandsOff (front ++ back) := by
  cases front with
  | nil => exact apartBack
  | cons token rest => exact standsOff_cons (apart token rfl)

theorem ArePieces.append {front back : List Token} (pieces : ArePieces front)
    (piecesBack : ArePieces back) (apart : StandsOff back) : ArePieces (front ++ back) := by
  induction pieces with
  | nil => exact piecesBack
  | cons isPiece standsOff others ih =>
    exact .cons isPiece (fun isWord => (standsOff isWord).append apart) ih

structure IsLine (line : List Token) : Prop where
  pieces : ArePieces line
  inLine : ∀ token ∈ line, token.gap ≠ "\n"
  begins : ∃ first rest, line = first :: rest ∧ first.gap = ""

def fed : List Token → List Token
  | [] => []
  | first :: rest => ⟨first.kind, "\n", first.text⟩ :: rest

def brokenLines (lines : List (List Token)) : List Token :=
  lines.flatMap fun line => ⟨.newline, "\n", ""⟩ :: line

theorem flatMap_broken {tokens : List Token} (inLine : ∀ token ∈ tokens, token.gap ≠ "\n") :
    tokens.flatMap broken = tokens := by
  induction tokens with
  | nil => rfl
  | cons token rest ih =>
    have alone : token.broken = [token] := if_neg (inLine token List.mem_cons_self)
    rw [List.flatMap_cons, alone, ih fun other member => inLine other (List.mem_cons_of_mem _ member)]
    rfl

namespace IsLine

variable {line : List Token} (isLine : IsLine line)

include isLine

theorem broken_fed : (fed line).flatMap broken = ⟨.newline, "\n", ""⟩ :: line := by
  obtain ⟨first, rest, rfl, touches⟩ := isLine.begins
  obtain ⟨kind, gap, text⟩ := first
  subst touches
  rw [fed, List.flatMap_cons,
    flatMap_broken fun token member => isLine.inLine token (List.mem_cons_of_mem _ member)]
  rfl

theorem sourceOf_fed : sourceOf (fed line) = "\n" ++ sourceOf line := by
  obtain ⟨first, rest, rfl, touches⟩ := isLine.begins
  simp [fed, sourceOf, source, touches, String.append_assoc]

theorem arePieces_fed : ArePieces (fed line) := by
  obtain ⟨first, rest, rfl, touches⟩ := isLine.begins
  cases isLine.pieces with
  | cons isPiece apart others => exact .cons ⟨.inr (.inr rfl), isPiece.text⟩ apart others

theorem standsOff_fed : StandsOff (fed line) := by
  obtain ⟨first, rest, rfl, touches⟩ := isLine.begins
  exact standsOff_cons (.inl (by simp))

end IsLine

theorem arePieces_lines {lines : List (List Token)} (areLines : ∀ line ∈ lines, IsLine line) :
    ArePieces (lines.flatMap fed) ∧ StandsOff (lines.flatMap fed) := by
  induction lines with
  | nil => exact ⟨.nil, standsOff_nil⟩
  | cons line rest ih =>
    obtain ⟨pieces, apart⟩ := ih fun other member => areLines other (List.mem_cons_of_mem _ member)
    have isLine := areLines line List.mem_cons_self
    exact ⟨isLine.arePieces_fed.append pieces apart, isLine.standsOff_fed.append apart⟩

theorem broken_lines {lines : List (List Token)} (areLines : ∀ line ∈ lines, IsLine line) :
    (lines.flatMap fed).flatMap broken = brokenLines lines := by
  induction lines with
  | nil => rfl
  | cons line rest ih =>
    rw [List.flatMap_cons, List.flatMap_append, (areLines line List.mem_cons_self).broken_fed,
      ih fun other member => areLines other (List.mem_cons_of_mem _ member)]
    rfl

theorem sourceOf_lines {header : List Token} {lines : List (List Token)}
    (areLines : ∀ line ∈ lines, IsLine line) :
    sourceOf (header ++ lines.flatMap fed) =
      "\n".intercalate (sourceOf header :: lines.map sourceOf) := by
  induction lines generalizing header with
  | nil => simp
  | cons line rest ih =>
    have isLine := areLines line List.mem_cons_self
    rw [List.flatMap_cons, sourceOf_append, sourceOf_append, isLine.sourceOf_fed, List.map_cons,
      String.intercalate_cons_cons,
      ← ih fun other member => areLines other (List.mem_cons_of_mem _ member), sourceOf_append]
    simp [String.append_assoc]

/-- Lines of words and marks are read back line by line. -/
theorem scan_lines {header : List Token} {lines : List (List Token)} (isHeader : IsLine header)
    (areLines : ∀ line ∈ lines, IsLine line) :
    scan false ("\n".intercalate (sourceOf header :: lines.map sourceOf)).toList =
      .ok (header ++ brokenLines lines ++ [⟨.endOfFile, "", ""⟩]) := by
  obtain ⟨pieces, apart⟩ := arePieces_lines areLines
  obtain ⟨first, rest, rfl, touches⟩ := isHeader.begins
  have all : ArePieces (first :: (rest ++ lines.flatMap fed)) :=
    isHeader.pieces.append pieces apart
  rw [← sourceOf_lines areLines, List.cons_append, scan_pieces all (by simp [touches]),
    List.flatMap_append, broken_lines areLines,
    flatMap_broken fun token member => isHeader.inLine token (List.mem_cons_of_mem _ member)]
  rfl

end Token
end SwiftLens
