import SwiftLens.Lens.File
import SwiftLens.Proofs.Outline.Pieces

namespace SwiftLens

namespace Lexeme

theorem skip_arrow (after : List Char) : skip '-' ('>' :: after) = .ok (.arrow, after) := by
  have noLetter : startsIdentifier '-' = false := by
    rw [startsIdentifier_ascii (by decide)]
    decide
  simp [skip, punctuation?, noLetter, Char.isDigit]

theorem skip_backticked {name : List Char} (inside : name.all continuesBackticked = true)
    (after : List Char) : skip '\x60' (name ++ '\x60' :: after) = .ok (.backticked, after) := by
  have closing : continuesBackticked '\x60' = false := by decide
  have dropped : (name ++ '\x60' :: after).dropWhile continuesBackticked = '\x60' :: after := by
    rw [List.dropWhile_append_of_pos (by simpa using inside),
      List.dropWhile_cons_of_neg (by simp [closing])]
  simp [skip, punctuation?, skipBackticked, dropped, Except.map]

theorem stopsWord_nil : StopsWord [] := by
  intro c first
  cases first

theorem stopsWord_cons {c : Char} (stops : continuesIdentifier c = false) (rest : List Char) :
    StopsWord (c :: rest) := by
  rintro _ ⟨⟩
  exact stops

theorem stopsWord_feed (rest : List Char) : StopsWord ('\n' :: rest) :=
  stopsWord_cons continuesIdentifier_feed rest

end Lexeme

theorem unlines_nil : unlines [] = "" := by
  simp [unlines]

theorem unlines_cons (line : String) (rest : List String) :
    unlines (line :: rest) = line ++ "\n" ++ unlines rest := by
  simp [unlines, String.join_cons]

/-- A gap of blanks at the end of a text. -/
theorem Trivia.skip_blanks {gap : List Char} (blank : gap.all isGapBlank = true) :
    skip gap = .ok [] := by
  rw [← List.append_nil gap, skip_blanks_append blank]
  rfl

namespace Token

def Legible : Kind → String → Prop
  | .identifier, text => Lexeme.isWord text = true
  | .backticked, text =>
    ∃ name, text = inBackticks name ∧ name.toList.all Lexeme.continuesBackticked = true
  | .arrow, text => text = "->"
  | kind, text => text.toList.map Lexeme.punctuation? = [some kind]

/-- A line of tokens that can be read back: words end before the next token, gaps are spaces. -/
def Written : List Token → Prop
  | [] => True
  | token :: rest =>
    token.gap.toList.all (· == ' ') = true ∧ Legible token.kind token.text ∧
      (token.kind = .identifier → StandsOff rest) ∧ Written rest

theorem source_mk (kind : Kind) (gap text : String) : source ⟨kind, gap, text⟩ = gap ++ text := rfl

theorem source_word (gap text : String) : (word gap text).source = gap ++ text := rfl

theorem sourceOf_flatMap {ι : Type} (tokensOf : ι → List Token) (items : List ι) :
    sourceOf (items.flatMap tokensOf) =
      String.join (items.map fun item => sourceOf (tokensOf item)) := by
  induction items with
  | nil => simp [sourceOf]
  | cons item rest ih => simp [ih]

@[simp]
theorem standsOff_cons_iff {token : Token} {rest : List Token} :
    StandsOff (token :: rest) ↔ token.gap ≠ "" ∨ token.kind ≠ .identifier := by
  constructor
  · intro off
    exact off token rfl
  · exact standsOff_cons

namespace Legible

variable {kind : Kind} {text : String}

theorem cases_kind (legible : Legible kind text) :
    (kind = .identifier ∧ Lexeme.isWord text = true) ∨ (kind = .arrow ∧ text = "->") ∨
      (kind = .backticked ∧
        ∃ name, text = inBackticks name ∧ name.toList.all Lexeme.continuesBackticked = true) ∨
      ∃ c, Lexeme.punctuation? c = some kind ∧ text = String.singleton c := by
  unfold Legible at legible
  split at legible
  · exact .inl ⟨rfl, legible⟩
  · exact .inr (.inr (.inl ⟨rfl, legible⟩))
  · exact .inr (.inl ⟨rfl, legible⟩)
  · obtain ⟨c, chars, isMark⟩ := List.map_eq_singleton_iff.mp legible
    have spelled : text = String.singleton c := by
      rw [← String.toList_inj, chars, String.toList_singleton]
    exact .inr (.inr (.inr ⟨c, isMark, spelled⟩))

/-- The text is read as one token up to what follows it. -/
theorem reads (legible : Legible kind text) {after : List Char}
    (stops : kind = .identifier → Lexeme.StopsWord after) :
    ∃ c rest, text.toList = c :: rest ∧ Trivia.isGapBlank c = false ∧ c ≠ '/' ∧
      Lexeme.skip c (rest ++ after) = .ok (kind, after) := by
  rcases legible.cases_kind with isWord | ⟨rfl, rfl⟩ | ⟨rfl, name, rfl, inside⟩ | isMark
  · have isPiece : IsPiece ⟨kind, "", text⟩ := ⟨.inl rfl, .inl isWord⟩
    exact isPiece.reads stops
  · exact ⟨'-', ['>'], rfl, by decide, by decide, Lexeme.skip_arrow after⟩
  · have chars : (inBackticks name).toList = '\x60' :: (name.toList ++ ['\x60']) := by
      simp [inBackticks]
    have read := Lexeme.skip_backticked inside after
    exact ⟨'\x60', _, chars, by decide, by decide, by simpa using read⟩
  · have isPiece : IsPiece ⟨kind, "", text⟩ := ⟨.inl rfl, .inr isMark⟩
    exact isPiece.reads stops

/-- A word ends before any token that is not a word itself. -/
theorem stopsWord (legible : Legible kind text) (noWord : kind ≠ .identifier) (after : List Char) :
    Lexeme.StopsWord (text.toList ++ after) := by
  rcases legible.cases_kind with ⟨isWord, -⟩ | ⟨-, rfl⟩ | ⟨-, name, rfl, -⟩ | ⟨c, isMark, rfl⟩
  · exact absurd isWord noWord
  · have dash : Lexeme.continuesIdentifier '-' = false := by
      rw [Lexeme.continuesIdentifier_ascii (by decide)]
      decide
    exact Lexeme.stopsWord_cons dash _
  · have tick : Lexeme.continuesIdentifier '\x60' = false := by
      rw [Lexeme.continuesIdentifier_ascii (by decide)]
      decide
    have chars :
        (inBackticks name).toList ++ after = '\x60' :: (name.toList ++ '\x60' :: after) := by
      simp [inBackticks]
    rw [chars]
    exact Lexeme.stopsWord_cons tick _
  · rw [String.toList_singleton]
    exact Lexeme.stopsWord_cons (Lexeme.mark_apart isMark).2.2 _

theorem scan_text (legible : Legible kind text) {gap after : List Char}
    (blank : gap.all Trivia.isGapBlank = true)
    (stops : kind = .identifier → Lexeme.StopsWord after) {more : List Token}
    (scanned : scan true after = .ok more) (afterToken : Bool) :
    scan afterToken (gap ++ text.toList ++ after) =
      .ok (withGap afterToken gap kind text.toList ++ more) := by
  obtain ⟨c, rest, chars, visible, noSlash, lexed⟩ := legible.reads stops
  rw [chars]
  exact scan_of_reads blank visible noSlash lexed scanned afterToken

end Legible

theorem isGapBlank_of_spaces {gap : List Char} (spaces : gap.all (· == ' ') = true) :
    gap.all Trivia.isGapBlank = true := by
  rw [List.all_eq_true] at spaces ⊢
  intro c member
  obtain rfl : c = ' ' := by simpa using spaces c member
  decide

theorem noFeed_of_spaces {gap : List Char} (spaces : gap.all (· == ' ') = true) :
    '\n' ∉ gap := by
  rw [List.all_eq_true] at spaces
  intro member
  exact absurd (spaces '\n' member) (by decide)

namespace Written

variable {line : List Token}

theorem stopsWord (written : Written line) (off : StandsOff line) {after : List Char}
    (stops : Lexeme.StopsWord after) : Lexeme.StopsWord ((sourceOf line).toList ++ after) := by
  cases line with
  | nil => exact stops
  | cons token rest =>
    obtain ⟨spaces, legible, -, -⟩ := written
    have whole : (sourceOf (token :: rest)).toList ++ after =
        token.gap.toList ++ (token.text.toList ++ ((sourceOf rest).toList ++ after)) := by
      simp [sourceOf, source]
    rw [whole]
    cases gap : token.gap.toList with
    | nil =>
      have touches : token.gap = "" := by simpa using gap
      have noWord := (off token rfl).resolve_left (not_not_intro touches)
      exact legible.stopsWord noWord _
    | cons c others =>
      obtain ⟨rfl, -⟩ : c = ' ' ∧ _ := by simpa [gap] using spaces
      have space : Lexeme.continuesIdentifier ' ' = false := by
        rw [Lexeme.continuesIdentifier_ascii (by decide)]
        decide
      exact Lexeme.stopsWord_cons space _

/-- The tokens of a line are read up to what follows the line. -/
theorem scan_line (written : Written line) {after : List Char} (stops : Lexeme.StopsWord after)
    {more : List Token} (scanned : scan true after = .ok more) :
    scan true ((sourceOf line).toList ++ after) = .ok (line ++ more) := by
  induction line with
  | nil => exact scanned
  | cons token rest ih =>
    obtain ⟨spaces, legible, off, others⟩ := written
    have ends : token.kind = .identifier →
        Lexeme.StopsWord ((sourceOf rest).toList ++ after) :=
      fun isWord => others.stopsWord (off isWord) stops
    have read := legible.scan_text (isGapBlank_of_spaces spaces) ends (ih others) true
    have alone : withGap true token.gap.toList token.kind token.text.toList = [token] := by
      simp [withGap, noFeed_of_spaces spaces]
    rw [alone] at read
    simpa [sourceOf, source] using read

/-- A line after a gap is read up to what follows the line. -/
theorem scan_from {first : Token} (written : Written (first :: line)) {gap : List Char}
    (blank : gap.all Trivia.isGapBlank = true) {after : List Char}
    (stops : Lexeme.StopsWord after) {more : List Token} (scanned : scan true after = .ok more)
    (afterToken : Bool) :
    scan afterToken (gap ++ (sourceOf (first :: line)).toList ++ after) =
      .ok (withGap afterToken (gap ++ first.gap.toList) first.kind first.text.toList ++ line ++
        more) := by
  obtain ⟨spaces, legible, off, others⟩ := written
  have blanks : (gap ++ first.gap.toList).all Trivia.isGapBlank = true := by
    rw [List.all_append, blank, isGapBlank_of_spaces spaces]
    rfl
  have read := legible.scan_text blanks (fun isWord => others.stopsWord (off isWord) stops)
    (others.scan_line stops scanned) afterToken
  simpa [sourceOf, source] using read

section Touching

variable {first : Token} (written : Written (first :: line)) (touches : first.gap = "")
  {after : List Char} (stops : Lexeme.StopsWord after) {more : List Token}
  (scanned : scan true after = .ok more)

include written touches stops scanned

theorem scan_start :
    scan false ((sourceOf (first :: line)).toList ++ after) = .ok (first :: line ++ more) := by
  obtain ⟨kind, gap, text⟩ := first
  subst touches
  have noGap : ([] : List Char).all Trivia.isGapBlank = true := rfl
  have read := written.scan_from noGap stops scanned false
  simpa [withGap] using read

theorem scan_fed :
    scan true ('\n' :: (sourceOf (first :: line)).toList ++ after) =
      .ok (⟨.newline, "\n", ""⟩ :: first :: line ++ more) := by
  obtain ⟨kind, gap, text⟩ := first
  subst touches
  have feed : ['\n'].all Trivia.isGapBlank = true := by decide
  have read := written.scan_from feed stops scanned true
  simpa [withGap] using read

end Touching

theorem append {front back : List Token} (written : Written front) (writtenBack : Written back)
    (off : StandsOff back) : Written (front ++ back) := by
  induction front with
  | nil => exact writtenBack
  | cons token rest ih =>
    obtain ⟨spaces, legible, apart, others⟩ := written
    exact ⟨spaces, legible, fun isWord => (apart isWord).append off, ih others⟩

theorem flatMap {ι : Type} {tokensOf : ι → List Token} {items : List ι}
    (written : ∀ item ∈ items, Written (tokensOf item) ∧ StandsOff (tokensOf item)) :
    Written (items.flatMap tokensOf) ∧ StandsOff (items.flatMap tokensOf) := by
  induction items with
  | nil => exact ⟨trivial, standsOff_nil⟩
  | cons item rest ih =>
    obtain ⟨first, firstOff⟩ := written item List.mem_cons_self
    obtain ⟨later, laterOff⟩ := ih fun other member => written other (List.mem_cons_of_mem _ member)
    exact ⟨first.append later laterOff, firstOff.append laterOff⟩

/-- Empty lines between blocks of lines are lines too. -/
theorem blocks {blocks : List (List (List Token))}
    (written : ∀ block ∈ blocks, ∀ line ∈ block, Written line) :
    ∀ line ∈ [[]].intercalate blocks, Written line := by
  induction blocks with
  | nil => simp
  | cons block rest ih =>
    obtain ⟨first, later⟩ := List.forall_mem_cons.mp written
    cases rest with
    | nil => simpa using first
    | cons next others =>
      rw [List.intercalate_cons_cons, List.forall_mem_append, List.forall_mem_append]
      exact ⟨⟨first, by simp [Written]⟩, ih later⟩

end Written

def ofLines (afterToken : Bool) (gap : List Char) : List (List Token) → List Token
  | [] => withGap afterToken gap .endOfFile []
  | [] :: rest => ofLines afterToken (gap ++ ['\n']) rest
  | (first :: line) :: rest =>
    withGap afterToken (gap ++ first.gap.toList) first.kind first.text.toList ++ line ++
      ofLines true ['\n'] rest

theorem ofLines_ne_nil (afterToken : Bool) (gap : List Char) (lines : List (List Token)) :
    ofLines afterToken gap lines ≠ [] := by
  fun_induction ofLines afterToken gap lines with
  | case1 => exact withGap_ne_nil _ _ _ _
  | case2 afterToken gap rest ih => exact ih
  | case3 => simp [withGap_ne_nil]

theorem scan_unlines {lines : List (List Token)} (written : ∀ line ∈ lines, Written line)
    {gap : List Char} (blank : gap.all Trivia.isGapBlank = true) (afterToken : Bool) :
    scan afterToken (gap ++ (unlines (lines.map sourceOf)).toList) =
      .ok (ofLines afterToken gap lines) := by
  fun_induction ofLines afterToken gap lines with
  | case1 afterToken gap =>
    rw [List.map_nil, unlines_nil, String.toList_empty, List.append_nil]
    exact scan_of_end (Trivia.skip_blanks blank) afterToken
  | case2 afterToken gap rest ih =>
    have blanks : (gap ++ ['\n']).all Trivia.isGapBlank = true := by
      rw [List.all_append, blank]
      decide
    have read := ih (fun line member => written line (List.mem_cons_of_mem _ member)) blanks
    rw [List.map_cons, unlines_cons, sourceOf, String.empty_append]
    simpa using read
  | case3 afterToken gap first line rest ih =>
    have here := written (first :: line) List.mem_cons_self
    have later := ih (fun other member => written other (List.mem_cons_of_mem _ member)) (by decide)
    have read := here.scan_from blank (Lexeme.stopsWord_feed _) later afterToken
    rw [List.map_cons, unlines_cons]
    simpa using read

def sign (token : Token) : Kind × String :=
  (token.kind, token.text)

/-- The kinds and texts that lines are read as: a break after each line that is not empty, then
the end. -/
def signsOf (lines : List (List Token)) : List (Kind × String) :=
  (lines.filter (!·.isEmpty)).flatMap (fun line => line.map sign ++ [(.newline, "")]) ++
    [(.endOfFile, "")]

/-- Lines after a line feed follow a line break. -/
theorem map_sign_ofLines_of_feed {gap : List Char} (feed : '\n' ∈ gap) (lines : List (List Token)) :
    (ofLines true gap lines).map sign = (.newline, "") :: signsOf lines := by
  induction lines generalizing gap with
  | nil => simp [ofLines, signsOf, withGap, feed, sign]
  | cons line rest ih =>
    cases line with
    | nil =>
      rw [ofLines, ih (List.mem_append_left _ feed)]
      simp [signsOf]
    | cons first line =>
      rw [ofLines, List.map_append, ih List.mem_cons_self]
      simp [signsOf, withGap, feed, sign]

theorem map_sign_ofLines (first : Token) (line : List Token) (rest : List (List Token)) :
    (ofLines false [] ((first :: line) :: rest)).map sign = signsOf ((first :: line) :: rest) := by
  rw [ofLines, List.map_append, map_sign_ofLines_of_feed List.mem_cons_self]
  simp [signsOf, withGap, sign]

/-- A text of lines is read as the lines. -/
theorem tokenize_unlines {first : Token} {line : List Token} {rest : List (List Token)}
    (written : ∀ other ∈ (first :: line) :: rest, Written other) :
    ∃ tokens, tokenize (unlines (((first :: line) :: rest).map sourceOf)) = .ok tokens ∧
      tokens.map sign = signsOf ((first :: line) :: rest) := by
  have noGap : ([] : List Char).all Trivia.isGapBlank = true := rfl
  have read := scan_unlines written noGap false
  refine ⟨_, ?_, map_sign_ofLines first line rest⟩
  rw [tokenize, ← List.nil_append (String.toList _), read]
  rfl

end Token
end SwiftLens
