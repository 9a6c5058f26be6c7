import SwiftLens.Proofs.Tokens.Literals
import SwiftLens.Proofs.Tokens.Tiling
import SwiftLens.Proofs.Outline.Pieces
import SwiftLens.Text.Blank

namespace SwiftLens

def CharRange.Apart (left right : List CharRange) : Prop :=
  ∀ range ∈ left, ∀ other ∈ right, range.last < other.first ∨ other.last < range.first

instance (left right : List CharRange) : Decidable (CharRange.Apart left right) :=
  inferInstanceAs (Decidable (∀ range ∈ left, ∀ other ∈ right,
    range.last < other.first ∨ other.last < range.first))

theorem CharRange.Apart.not_both {left right : List CharRange} (apart : Apart left right) {c : Char}
    (inLeft : anyContains left c = true) : anyContains right c = false := by
  rw [Bool.eq_false_iff]
  intro inRight
  obtain ⟨range, listed, low, high⟩ := (anyContains_iff left c).mp inLeft
  obtain ⟨other, otherListed, otherLow, otherHigh⟩ := (anyContains_iff right c).mp inRight
  rcases apart range listed other otherListed with before | before <;> omega

def alphanumRanges : List CharRange :=
  [⟨0x30, 0x39⟩, ⟨0x41, 0x5A⟩, ⟨0x61, 0x7A⟩]

theorem anyContains_of_isAlphanum {c : Char} (ascii : c.isAlphanum = true) :
    CharRange.anyContains alphanumRanges c = true := by
  have ranges : (decide (65 ≤ c.val ∧ c.val ≤ 90) || decide (97 ≤ c.val) && decide (c.val ≤ 122) ||
      decide (48 ≤ c.val) && decide (c.val ≤ 57)) = true := ascii
  simp only [Bool.or_eq_true, Bool.and_eq_true, decide_eq_true_eq, UInt32.le_iff_toNat_le] at ranges
  rw [CharRange.anyContains_iff]
  rcases ranges with (⟨low, high⟩ | ⟨low, high⟩) | ⟨low, high⟩
  · exact ⟨⟨0x41, 0x5A⟩, by simp [alphanumRanges], low, high⟩
  · exact ⟨⟨0x61, 0x7A⟩, by simp [alphanumRanges], low, high⟩
  · exact ⟨⟨0x30, 0x39⟩, by simp [alphanumRanges], low, high⟩

theorem isBlank_of_isAlphanum {c : Char} (ascii : c.isAlphanum = true) : isBlank c = false := by
  have apart : CharRange.Apart alphanumRanges blankRanges := by decide
  exact apart.not_both (anyContains_of_isAlphanum ascii)

theorem isBlank_of_isLetterOrNumeral {c : Char} (letter : isLetterOrNumeral c = true) :
    isBlank c = false := by
  have letters : CharRange.Apart letterRanges blankRanges := by decide +kernel
  have numerals : CharRange.Apart numeralRanges blankRanges := by decide +kernel
  simp only [isLetterOrNumeral, isLetter, isNumeral, Bool.or_eq_true] at letter
  rcases letter with (alpha | listed) | (digit | listed)
  · exact isBlank_of_isAlphanum (by simp [Char.isAlphanum, alpha])
  · exact letters.not_both listed
  · exact isBlank_of_isAlphanum (by simp [Char.isAlphanum, digit])
  · exact numerals.not_both listed

structure Tight (text : List Char) : Prop where
  filled : text ≠ []
  first : ∀ c, text.head? = some c → isBlank c = false
  last : ∀ c, text.getLast? = some c → isBlank c = false

theorem tight_of_all {c : Char} {rest : List Char} (visible : isBlank c = false)
    (others : ∀ other ∈ rest, isBlank other = false) : Tight (c :: rest) where
  filled := by simp
  first := by simpa using visible
  last other found := by
    rcases List.mem_cons.mp (List.mem_of_getLast? found) with rfl | member
    · exact visible
    · exact others other member

theorem tight_concat {c last : Char} {between : List Char} (visible : isBlank c = false)
    (visibleLast : isBlank last = false) : Tight (c :: (between ++ [last])) where
  filled := by simp
  first := by simpa using visible
  last other found := by
    rw [← List.cons_append, List.getLast?_concat] at found
    cases found
    exact visibleLast

theorem Tight.append {front between back : List Char} (tightFront : Tight front)
    (tightBack : Tight back) : Tight (front ++ between ++ back) where
  filled := by simp [tightFront.filled]
  first c found := by
    rw [List.append_assoc, List.head?_append_of_ne_nil _ tightFront.filled] at found
    exact tightFront.first c found
  last c found := by
    rw [List.getLast?_append_of_ne_nil _ tightBack.filled] at found
    exact tightBack.last c found

namespace StringLiteral

def ClosesByQuote (frames : List Frame) : Prop :=
  ∀ frame, frames.getLast? = some frame → ∀ parens, frame.context ≠ .interpolation parens

theorem closesByQuote_singleton {context : Context} {opening : List Char}
    (literal : ∀ parens, context ≠ .interpolation parens) : ClosesByQuote [⟨context, opening⟩] := by
  rintro _ ⟨⟩ parens
  exact literal parens

theorem ClosesByQuote.tail {frame : Frame} {outer : List Frame}
    (closes : ClosesByQuote (frame :: outer)) : ClosesByQuote outer := by
  intro last found
  cases outer with
  | nil => cases found
  | cons next others => exact closes last (by rw [List.getLast?_cons_cons, found])

theorem ClosesByQuote.pushed {frame : Frame} {outer : List Frame}
    (closes : ClosesByQuote (frame :: outer)) (other : Frame) :
    ClosesByQuote (other :: frame :: outer) := by
  intro last found
  rw [List.getLast?_cons_cons] at found
  exact closes last found

/-- An interpolation has a literal around it. -/
theorem ClosesByQuote.counted {parens : Nat} {opening : List Char} {outer : List Frame}
    (closes : ClosesByQuote (⟨.interpolation parens, opening⟩ :: outer)) (frame : Frame) :
    ClosesByQuote (frame :: outer) ∧ outer ≠ [] := by
  cases outer with
  | nil => exact absurd rfl (closes _ rfl parens)
  | cons next others => exact ⟨closes.tail.pushed frame, by simp⟩

def EndsByQuote (source after : List Char) : Prop :=
  ∃ body, source = body ++ '"' :: after

theorem EndsByQuote.cons {source after : List Char} (ends : EndsByQuote source after) (c : Char) :
    EndsByQuote (c :: source) after := by
  obtain ⟨body, rfl⟩ := ends
  exact ⟨c :: body, rfl⟩

/-- A closing quote comes last, or the literal around it is closed later. -/
theorem endsByQuote_of_closed {outer : List Frame} {rest after : List Char}
    (skipped : skipPlain outer rest = .ok after) (later : outer ≠ [] → EndsByQuote rest after) :
    EndsByQuote ('"' :: rest) after := by
  cases outer with
  | nil =>
    rw [skipPlain] at skipped
    cases skipped
    exact ⟨[], rfl⟩
  | cons frame others => exact (later (by simp)).cons _

theorem endsByQuote_of_skipPlain {frames : List Frame} {source after : List Char}
    (skipped : skipPlain frames source = .ok after) (closes : ClosesByQuote frames)
    (isOpen : frames ≠ []) : EndsByQuote source after := by
  fun_induction skipPlain frames source with
  | case1 => exact absurd rfl isOpen
  | case2 => cases skipped
  | case3 parens opening outer rest ih =>
    exact (ih skipped (closes.counted _).1 (by simp)).cons _
  | case4 opening outer rest ih =>
    exact (ih skipped closes.tail (closes.counted ⟨.singleLine, []⟩).2).cons _
  | case5 opening outer parens rest ih => exact (ih skipped (closes.counted _).1 (by simp)).cons _
  | case6 parens opening outer rest ih =>
    exact (((ih skipped (closes.pushed _) (by simp)).cons _).cons _).cons _
  | case7 parens opening outer rest _ ih => exact (ih skipped (closes.pushed _) (by simp)).cons _
  | case8 parens opening outer c rest _ _ _ _ _ ih => exact (ih skipped closes (by simp)).cons _
  | case9 frame outer rest _ ih => exact ((ih skipped (closes.pushed _) (by simp)).cons _).cons _
  | case10 frame outer c rest _ _ ih => exact ((ih skipped closes (by simp)).cons _).cons _
  | case11 opening outer rest ih =>
    exact ((endsByQuote_of_closed skipped (ih skipped closes.tail)).cons _).cons _
  | case12 opening outer c rest _ _ _ ih => exact (ih skipped closes (by simp)).cons _
  | case13 opening outer rest ih => exact endsByQuote_of_closed skipped (ih skipped closes.tail)
  | case14 => cases skipped
  | case15 opening outer c rest _ _ _ _ ih => exact (ih skipped closes (by simp)).cons _

theorem endsByQuote_of_skip {afterQuote after : List Char} (skipped : skip afterQuote = .ok after) :
    EndsByQuote afterQuote after := by
  unfold skip at skipped
  split at skipped
  · have ends := endsByQuote_of_skipPlain skipped (closesByQuote_singleton (by simp)) (by simp)
    exact (ends.cons _).cons _
  · exact endsByQuote_of_skipPlain skipped (closesByQuote_singleton (by simp)) (by simp)

def EndsByMarks (marks : Nat) (source after : List Char) : Prop :=
  ∃ body, source = body ++ '"' :: (List.replicate marks '#' ++ after)

theorem EndsByMarks.cons {marks : Nat} {source after : List Char}
    (ends : EndsByMarks marks source after) (c : Char) : EndsByMarks marks (c :: source) after := by
  obtain ⟨body, rfl⟩ := ends
  exact ⟨c :: body, rfl⟩

theorem ClosesRaw.endsByMarks {skips : List Char → Option (List Char)} {marks : Nat}
    {text : List Char} (closes : ClosesRaw skips marks text) (after : List Char) :
    EndsByMarks marks (text ++ after) after := by
  obtain ⟨front, rfl⟩ := closes.ends
  exact ⟨front, by simp⟩

theorem endsByMarks_of_skipRaw {marks : Nat} {afterQuote after : List Char}
    (skipped : skipRaw marks afterQuote = some after) : EndsByMarks marks afterQuote after := by
  unfold skipRaw at skipped
  split at skipped
  · obtain ⟨text, rfl, -, closes⟩ := skipRawBlock_anywhere skipped
    exact ((closes.endsByMarks after).cons _).cons _
  · obtain ⟨text, rfl, closes⟩ := skipRawLine_anywhere skipped
    exact closes.endsByMarks after

end StringLiteral

namespace Lexeme

/-- What a lexeme is, by its first character. -/
theorem skip_cases {c : Char} {rest after : List Char} {kind : Token.Kind}
    (lexed : skip c rest = .ok (kind, after)) :
    (punctuation? c = some kind ∧ after = rest) ∨
      (c = '#' ∧ skipMarked rest = .ok (kind, after)) ∨
      (c = '"' ∧ kind = .string ∧ StringLiteral.skip rest = .ok after) ∨
      (c = '\x60' ∧ kind = .backticked ∧ skipBackticked rest = .ok after) ∨
      (c.isDigit = true ∧ skipNumber rest = (kind, after)) ∨
      (startsIdentifier c = true ∧ kind = .identifier ∧ after = rest.dropWhile continuesIdentifier) ∨
      (c = '-' ∧ kind = .arrow ∧ rest = '>' :: after) ∨
      (isOperator c = true ∧ kind = .operator ∧ after = rest) := by
  unfold skip at lexed
  split at lexed
  · next isMark =>
    cases lexed
    exact .inl ⟨isMark, rfl⟩
  split at lexed
  · next isHash => exact .inr (.inl ⟨isHash, lexed⟩)
  split at lexed
  · next isQuote =>
    cases literal : StringLiteral.skip rest with
    | error failure =>
      rw [literal] at lexed
      cases lexed
    | ok found =>
      rw [literal] at lexed
      cases lexed
      exact .inr (.inr (.inl ⟨isQuote, rfl, rfl⟩))
  split at lexed
  · next isTick =>
    cases name : skipBackticked rest with
    | error failure =>
      rw [name] at lexed
      cases lexed
    | ok found =>
      rw [name] at lexed
      cases lexed
      exact .inr (.inr (.inr (.inl ⟨isTick, rfl, rfl⟩)))
  split at lexed
  · next digit => exact .inr (.inr (.inr (.inr (.inl ⟨digit, Except.ok.inj lexed⟩))))
  split at lexed
  · next starts =>
    cases lexed
    exact .inr (.inr (.inr (.inr (.inr (.inl ⟨starts, rfl, rfl⟩)))))
  split at lexed
  · next arrow =>
    cases lexed
    rw [Bool.and_eq_true, decide_eq_true_eq, beq_iff_eq] at arrow
    obtain ⟨rfl, points⟩ := arrow
    cases rest with
    | nil => cases points
    | cons second others =>
      cases points
      exact .inr (.inr (.inr (.inr (.inr (.inr (.inl ⟨rfl, rfl, rfl⟩))))))
  split at lexed
  · next operator =>
    cases lexed
    exact .inr (.inr (.inr (.inr (.inr (.inr (.inr ⟨operator, rfl, rfl⟩))))))
  · cases lexed

structure Spells (kind : Token.Kind) (text : List Char) : Prop where
  tight : Tight text
  word : kind = .identifier → isWord (String.ofList text) = true
  quoted : kind = .backticked →
    ∃ name, text = '\x60' :: (name ++ ['\x60']) ∧ name.all continuesBackticked = true

theorem isBlank_of_continuesIdentifier {c : Char} (continues : continuesIdentifier c = true) :
    isBlank c = false := by
  simp only [continuesIdentifier, Bool.or_eq_true, beq_iff_eq] at continues
  rcases continues with (letter | rfl) | rfl
  · exact isBlank_of_isLetterOrNumeral letter
  · decide
  · decide

theorem isBlank_of_startsIdentifier {c : Char} (starts : startsIdentifier c = true) :
    isBlank c = false := by
  simp only [startsIdentifier, Bool.or_eq_true, beq_iff_eq] at starts
  rcases starts with (letter | rfl) | rfl
  · exact isBlank_of_isLetterOrNumeral (isLetterOrNumeral_of_isLetter letter)
  · decide
  · decide

theorem isBlank_of_continuesNumber {c : Char} (continues : continuesNumber c = true) :
    isBlank c = false := by
  simp only [continuesNumber, Bool.or_eq_true, beq_iff_eq] at continues
  rcases continues with ascii | rfl
  · exact isBlank_of_isAlphanum ascii
  · decide

theorem isBlank_of_isDigit {c : Char} (digit : c.isDigit = true) : isBlank c = false :=
  isBlank_of_isAlphanum (by simp [Char.isAlphanum, digit])

theorem isBlank_of_punctuation? {c : Char} {kind : Token.Kind} (isMark : punctuation? c = some kind) :
    isBlank c = false := by
  unfold punctuation? at isMark
  split at isMark <;> first
    | cases isMark; done
    | decide

theorem isBlank_of_isOperator {c : Char} (operator : isOperator c = true) : isBlank c = false := by
  simp only [isOperator, Bool.or_eq_true, beq_iff_eq] at operator
  rcases operator with (((((((rfl | rfl) | rfl) | rfl) | rfl) | rfl) | rfl) | rfl) | rfl <;> decide

/-- The characters that a run drops are visible if the run is made of visible ones. -/
theorem isBlank_of_mem_takeWhile {passes : Char → Bool}
    (visible : ∀ c, passes c = true → isBlank c = false) (rest : List Char) :
    ∀ c ∈ rest.takeWhile passes, isBlank c = false :=
  fun c member => visible c (List.all_eq_true.mp List.all_takeWhile c member)

theorem spells_number {c : Char} {rest after : List Char} {kind : Token.Kind}
    (digit : c.isDigit = true) (skipped : skipNumber rest = (kind, after)) :
    ∃ tail, rest = tail ++ after ∧ Tight (c :: tail) := by
  have run := rest.takeWhile_append_dropWhile (p := continuesNumber)
  have visible := isBlank_of_mem_takeWhile (fun _ => isBlank_of_continuesNumber) rest
  unfold skipNumber at skipped
  split at skipped
  · next first fraction dropped =>
    split at skipped
    · next isDigit =>
      cases skipped
      have fractionRun := fraction.takeWhile_append_dropWhile (p := continuesNumber)
      have visibleFraction := isBlank_of_mem_takeWhile (fun _ => isBlank_of_continuesNumber) fraction
      refine ⟨rest.takeWhile continuesNumber ++ '.' :: first :: fraction.takeWhile continuesNumber,
        ?_, tight_of_all (isBlank_of_isDigit digit) ?_⟩
      · simp only [List.append_assoc, List.cons_append, fractionRun, ← dropped, run]
      · intro other member
        rcases List.mem_append.mp member with inRun | member
        · exact visible other inRun
        rcases List.mem_cons.mp member with rfl | member
        · decide
        rcases List.mem_cons.mp member with rfl | inFraction
        · exact isBlank_of_isDigit isDigit
        · exact visibleFraction other inFraction
    · cases skipped
      rw [dropped] at run
      exact ⟨_, run.symm, tight_of_all (isBlank_of_isDigit digit) visible⟩
  · cases skipped
    exact ⟨_, run.symm, tight_of_all (isBlank_of_isDigit digit) visible⟩

theorem spells_marked {rest after : List Char} {kind : Token.Kind}
    (skipped : skipMarked rest = .ok (kind, after)) :
    ∃ tail, rest = tail ++ after ∧ Tight ('#' :: tail) := by
  have run := rest.takeWhile_append_dropWhile (p := (· == '#'))
  have hash : isBlank '#' = false := by decide
  have visible : ∀ c ∈ rest.takeWhile (· == '#'), isBlank c = false := by
    apply isBlank_of_mem_takeWhile
    intro c isHash
    rw [beq_iff_eq] at isHash
    exact isHash ▸ hash
  unfold skipMarked at skipped
  simp only at skipped
  split at skipped
  · next afterQuote dropped =>
    split at skipped
    · next found =>
      cases skipped
      obtain ⟨body, rfl⟩ := StringLiteral.endsByMarks_of_skipRaw found
      rw [Nat.add_comm, List.replicate_succ'] at dropped
      refine ⟨rest.takeWhile (· == '#') ++ '"' :: (body ++ '"' ::
        List.replicate (rest.takeWhile (· == '#')).length '#') ++ ['#'], ?_,
        tight_concat hash hash⟩
      conv_lhs => rw [← run, dropped]
      simp
    · cases skipped
  · cases skipped
    exact ⟨_, run.symm, tight_of_all hash visible⟩

theorem spells_backticked {rest after : List Char} (skipped : skipBackticked rest = .ok after) :
    ∃ name, rest = name ++ '\x60' :: after ∧ name.all continuesBackticked = true := by
  have run := rest.takeWhile_append_dropWhile (p := continuesBackticked)
  unfold skipBackticked at skipped
  split at skipped
  · next dropped =>
    cases skipped
    rw [dropped] at run
    exact ⟨_, run.symm, by simp⟩
  · cases skipped

/-- A lexeme is spelled as its kind asks. -/
theorem spells_of_skip {c : Char} {rest after : List Char} {kind : Token.Kind}
    (lexed : skip c rest = .ok (kind, after)) :
    ∃ tail, rest = tail ++ after ∧ Spells kind (c :: tail) := by
  rcases skip_cases lexed with ⟨isMark, rfl⟩ | ⟨rfl, marked⟩ | ⟨rfl, rfl, literal⟩ |
    ⟨rfl, rfl, closed⟩ | ⟨digit, number⟩ | ⟨starts, rfl, rfl⟩ | ⟨rfl, rfl, rfl⟩ | ⟨operator, rfl, rfl⟩
  · refine ⟨[], rfl, tight_of_all (isBlank_of_punctuation? isMark) (by simp), ?_, ?_⟩
    · rintro rfl
      unfold punctuation? at isMark
      split at isMark <;> cases isMark
    · rintro rfl
      unfold punctuation? at isMark
      split at isMark <;> cases isMark
  · obtain ⟨tail, rfl, tight⟩ := spells_marked marked
    have kinds := skipMarked_kind marked
    exact ⟨tail, rfl, tight, by grind, by grind⟩
  · obtain ⟨body, rfl⟩ := StringLiteral.endsByQuote_of_skip literal
    exact ⟨body ++ ['"'], by simp, tight_concat (by decide) (by decide), by simp, by simp⟩
  · obtain ⟨name, rfl, inside⟩ := spells_backticked closed
    exact ⟨name ++ ['\x60'], by simp, tight_concat (by decide) (by decide), by simp,
      fun _ => ⟨name, rfl, inside⟩⟩
  · obtain ⟨tail, rfl, tight⟩ := spells_number digit number
    have kinds := skipNumber_kind (tail ++ after)
    rw [number] at kinds
    exact ⟨tail, rfl, tight, by grind, by grind⟩
  · refine ⟨_, rest.takeWhile_append_dropWhile.symm, ?_, ?_, by simp⟩
    · exact tight_of_all (isBlank_of_startsIdentifier starts)
        (isBlank_of_mem_takeWhile (fun _ => isBlank_of_continuesIdentifier) rest)
    · intro _
      simp [isWord, starts]
  · exact ⟨['>'], rfl, tight_of_all (by decide) (List.forall_mem_singleton.mpr (by decide)), by simp,
      by simp⟩
  · exact ⟨[], rfl, tight_of_all (isBlank_of_isOperator operator) (by simp), by simp, by simp⟩

end Lexeme

namespace Token

/-- Tokens as they are read from a source: line breaks have no text and stand alone before a token
that touches them, all others are spelled as their kinds ask. -/
structure WellRead (tokens : List Token) : Prop where
  breaks : ∀ token ∈ tokens, token.kind = .newline → token.text = ""
  spelled : ∀ token ∈ tokens, token.kind ≠ .newline → Lexeme.Spells token.kind token.text.toList
  touching : tokens.IsChain fun left right =>
    left.kind = .newline → right.kind ≠ .newline ∧ right.gap = ""

theorem WellRead.run {file tokens : List Token} (wellRead : WellRead file)
    (within : tokens <:+: file) : WellRead tokens where
  breaks token member := wellRead.breaks token (within.subset member)
  spelled token member := wellRead.spelled token (within.subset member)
  touching := by
    obtain ⟨front, back, rfl⟩ := within
    exact (List.isChain_append.mp (List.isChain_append.mp wellRead.touching).1).2.1

theorem wellRead_withGap {afterToken : Bool} {gap text : List Char} {kind : Kind} {more : List Token}
    (spelled : Lexeme.Spells kind text) (noBreak : kind ≠ .newline) (wellRead : WellRead more) :
    WellRead (withGap afterToken gap kind text ++ more) where
  breaks token member isBreak := by
    rcases List.mem_append.mp member with here | later
    · unfold withGap at here
      split at here
      · rcases List.mem_cons.mp here with rfl | here
        · rfl
        · rw [List.mem_singleton.mp here] at isBreak
          exact absurd isBreak noBreak
      · rw [List.mem_singleton.mp here] at isBreak
        exact absurd isBreak noBreak
    · exact wellRead.breaks token later isBreak
  spelled token member inLine := by
    rcases List.mem_append.mp member with here | later
    · rcases mem_withGap here with isBreak | ⟨rfl, written⟩
      · exact absurd isBreak inLine
      · rw [written, String.toList_ofList]
        exact spelled
    · exact wellRead.spelled token later inLine
  touching := by
    unfold withGap
    split
    · simp [List.isChain_cons, wellRead.touching, noBreak]
    · simp [List.isChain_cons, wellRead.touching, noBreak]

/-- The tokens before the end of the file are well read. -/
theorem wellRead_of_scan {afterToken : Bool} {source : List Char} {tokens : List Token}
    (scanned : scan afterToken source = .ok tokens) : WellRead tokens.dropLast := by
  fun_induction scan afterToken source generalizing tokens with
  | case1 => cases scanned
  | case2 afterToken source skipped =>
    cases scanned
    unfold withGap
    split
    · exact ⟨by simp, by simp, by simp⟩
    · exact ⟨by simp, by simp, by simp⟩
  | case3 => cases scanned
  | case4 => cases scanned
  | case5 afterToken source c rest skipped kind after lexed shorter more scannedMore ih =>
    cases scanned
    obtain ⟨tail, rfl, spelled⟩ := Lexeme.spells_of_skip lexed
    rw [List.dropLast_append_of_ne_nil (scan_ne_nil scannedMore), ← List.cons_append,
      charsBefore_of_append]
    exact wellRead_withGap spelled (Lexeme.skip_kind lexed).1 (ih scannedMore)

end Token
end SwiftLens
