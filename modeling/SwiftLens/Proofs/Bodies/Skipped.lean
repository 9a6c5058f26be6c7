import SwiftLens.Extraction
import SwiftLens.Proofs.Bodies.Groups
import SwiftLens.Proofs.Concatenation.Tokens
import SwiftLens.Proofs.Lens.Lines
import SwiftLens.Proofs.Outline.Reading
import SwiftLens.Proofs.Tokens.Tiling

namespace SwiftLens

open SwiftLens.Parser SwiftLens.Token

theorem Joined.exists_append {later tokens others : List Token}
    (joined : Joined later tokens others) :
    ∃ front line, line.kind = .newline ∧ others = front ++ line :: later ∧
      (tokens = front ∨ ∃ last, last.kind = .newline ∧ tokens = front ++ [last]) := by
  induction joined with
  | @ended line isBreak => exact ⟨[], line, isBreak, rfl, .inl rfl⟩
  | @endedLine last line lastBreak isBreak =>
    exact ⟨[], line, isBreak, rfl, .inr ⟨last, lastBreak, rfl⟩⟩
  | cons token _ ih =>
    obtain ⟨front, line, isBreak, rfl, same | ⟨last, lastBreak, same⟩⟩ := ih
    · exact ⟨token :: front, line, isBreak, rfl, .inl (congrArg (token :: ·) same)⟩
    · exact ⟨token :: front, line, isBreak, rfl, .inr ⟨last, lastBreak, congrArg (token :: ·) same⟩⟩

namespace Token

/-- The last token of a scan is no brace. -/
theorem braces_dropLast {afterToken : Bool} {source : List Char} {tokens : List Token}
    (scanned : scan afterToken source = .ok tokens) :
    brackets .leftBrace tokens.dropLast = brackets .leftBrace tokens := by
  obtain ⟨front, gap, rfl, -⟩ := (laid_of_scan scanned).ends
  rw [List.dropLast_concat, brackets_append]
  simp [brackets, Kind.closing]

end Token

theorem Joined.braces {later tokens others : List Token} (joined : Joined later tokens others) :
    ∃ front, others = front ++ later ∧ front ≠ [] ∧
      brackets .leftBrace front = brackets .leftBrace tokens := by
  obtain ⟨front, line, isBreak, rfl, rfl | ⟨last, lastBreak, rfl⟩⟩ := joined.exists_append
  · exact ⟨tokens ++ [line], by simp, by simp, by simp [brackets, isBreak, Kind.closing]⟩
  · exact ⟨front ++ [line], by simp, by simp,
      by simp [brackets, isBreak, lastBreak, Kind.closing]⟩

namespace Token

/-- A text on lines of its own has the braces that it has alone before what follows it. -/
theorem scan_before {body closing : List Char} {inside back : List Token} {first : Token}
    (scanned : scan false body = .ok inside) (closed : scan false closing = .ok (first :: back))
    (touches : first.gap = "") :
    ∃ head more between, scan false (body ++ '\n' :: closing) = .ok (head :: more) ∧
      (head.regapped "" :: more).dropLast = between ++ (first :: back).dropLast ∧
        brackets .leftBrace between = brackets .leftBrace inside := by
  have kept : first.regapped "" = first := by
    rw [regapped, ← touches]
  rcases scan_join scanned closed with ⟨-, none, gap, read⟩ | ⟨others, read, joined⟩
  · refine ⟨_, _, [], read, ?_, ?_⟩
    · show (first.regapped "" :: back).dropLast = _
      rw [kept, List.nil_append]
    · rw [← braces_dropLast scanned, none]
  · obtain ⟨front, split, some, braces⟩ := joined.braces
    rw [braces_dropLast scanned] at braces
    rw [kept] at split
    obtain ⟨head, rest, rfl⟩ := List.exists_cons_of_ne_nil some
    obtain ⟨other, more, rfl⟩ := List.exists_cons_of_ne_nil (scan_ne_nil read)
    have long : more ≠ [] := by
      rintro rfl
      simp at split
    rw [List.dropLast_cons_of_ne_nil long, List.cons_append] at split
    obtain ⟨rfl, tail⟩ := List.cons.inj split
    refine ⟨other, more, other.regapped "" :: rest, read, ?_, ?_⟩
    · rw [List.dropLast_cons_of_ne_nil long, tail]
      rfl
    · rw [← braces]
      rfl

/-- A text between an opening and a closing text, on lines of its own. -/
theorem scan_enclosed {opening body closing : List Char} {front inside back : List Token}
    {brace last first : Token} (opened : scan false opening = .ok (front ++ [brace, last]))
    (inLine : brace.kind ≠ .newline) (scanned : scan false body = .ok inside)
    (closed : scan false closing = .ok (first :: back)) (touches : first.gap = "") :
    ∃ tokens between, scan false (opening ++ '\n' :: (body ++ '\n' :: closing)) = .ok tokens ∧
      tokens.dropLast = front ++ brace :: (between ++ (first :: back).dropLast) ∧
        brackets .leftBrace between = brackets .leftBrace inside := by
  obtain ⟨head, more, between, read, split, braces⟩ := scan_before scanned closed touches
  have opens : (front ++ [brace, last]).dropLast = front ++ [brace] := by
    rw [List.dropLast_append_of_ne_nil (by simp)]
    rfl
  rcases scan_join opened read with ⟨-, none, -⟩ | ⟨others, readAll, joined⟩
  · rw [opens] at none
    simp at none
  · rw [opens, split] at joined
    obtain ⟨before, line, isBreak, whole, same | ⟨feed, isFeed, same⟩⟩ := joined.exists_append
    · refine ⟨others, line :: between, readAll, ?_, ?_⟩
      · rw [whole, ← same]
        simp
      · rw [← braces]
        simp [brackets, isBreak, Kind.closing]
    · have isBrace : brace = feed := by simpa using (List.append_inj' same rfl).2
      exact absurd (isBrace ▸ isFeed) inLine

end Token

/-- What a text with a body in it declares, in terms of its tokens. -/
theorem SourceFile.parse_enclosed {opening body closing : String} {front inside back : List Token}
    {brace last first : Token} {declarations : List Declaration}
    (opened : scan false opening.toList = .ok (front ++ [brace, last]))
    (inLine : brace.kind ≠ .newline) (read : tokenize body = .ok inside)
    (closed : scan false closing.toList = .ok (first :: back)) (touches : first.gap = "")
    (parsed : ∀ between, brackets .leftBrace between = brackets .leftBrace inside →
      Declaration.parseAll (front ++ brace :: (between ++ (first :: back).dropLast)) =
        .ok (declarations, [])) :
    parse (opening ++ "\n" ++ body ++ "\n" ++ closing) = .ok ⟨declarations⟩ := by
  obtain ⟨tokens, between, scanned, split, braces⟩ :=
    scan_enclosed opened inLine (tokenize_ok read) closed touches
  have text : (opening ++ "\n" ++ body ++ "\n" ++ closing).toList =
      opening.toList ++ '\n' :: (body.toList ++ '\n' :: closing.toList) := by
    simp
  rw [← text] at scanned
  have all := parsed between braces
  rw [← split] at all
  exact parse_of_ok scanned all

inductive BodyHeader
  | function
  | initializer
  | deinitializer
  | subscript
deriving DecidableEq, Repr

namespace BodyHeader

def text : BodyHeader → String
  | function => "func f(a: Int) -> Int"
  | initializer => "init()"
  | deinitializer => "deinit"
  | subscript => "subscript(i: Int) -> Int"

def declaration : BodyHeader → Declaration
  | function => .function .none "f" true
  | initializer => .initializer .none false
  | deinitializer => .deinitializer
  | subscript => .subscript .none

def constant : Declaration :=
  .letDeclaration .none [⟨.identifier (.plain "z") (some (.simple "Int")), none⟩]

def atTop (header : BodyHeader) (body : String) : String :=
  header.text ++ " \x7b\n" ++ body ++ "\n\x7d\nlet z: Int"

def inStructure (header : BodyHeader) (body : String) : String :=
  "struct S \x7b\n" ++ header.text ++ " \x7b\n" ++ body ++ "\n\x7d\nlet z: Int\n\x7d"

def keywordText : BodyHeader → String
  | function => "func"
  | initializer => "init"
  | deinitializer => "deinit"
  | subscript => "subscript"

def keyword : BodyHeader → Declaration.Keyword
  | function => .function
  | initializer => .initializer
  | deinitializer => .deinitializer
  | subscript => .subscript

def parameterTokens (name : String) : List Token :=
  [⟨.leftParen, "", "("⟩, word "" name, ⟨.colon, "", ":"⟩, word " " "Int", ⟨.rightParen, "", ")"⟩,
    ⟨.arrow, " ", "->"⟩, word " " "Int"]

def tailTokens : BodyHeader → List Token
  | function => word " " "f" :: parameterTokens "a"
  | initializer => [⟨.leftParen, "", "("⟩, ⟨.rightParen, "", ")"⟩]
  | deinitializer => []
  | subscript => parameterTokens "i"

theorem signatureTokens_parameters (name : String) : SignatureTokens (parameterTokens name) := by
  have balanced : Token.Balanced .leftParen [word "" name, ⟨.colon, "", ":"⟩, word " " "Int"] :=
    show Closes .leftParen 0 [] by decide
  exact .parameters rfl balanced rfl (.plain (by decide) (.plain (by decide) .nil))

def lineTokens (header : BodyHeader) : List Token :=
  word "" header.keywordText :: (header.tailTokens ++ [⟨.leftBrace, " ", "\x7b"⟩])

def tokensWith (header : BodyHeader) (inside rest : List Token) : List Token :=
  word "" header.keywordText :: (header.tailTokens ++
    ⟨.leftBrace, " ", "\x7b"⟩ :: (inside ++ ⟨.rightBrace, "", "\x7d"⟩ :: rest))

def constantLine : List Token :=
  [word "" "let", word " " "z", ⟨.colon, "", ":"⟩, word " " "Int"]

theorem written_lineTokens (header : BodyHeader) : Written header.lineTokens := by
  cases header <;>
    simp +decide [lineTokens, keywordText, tailTokens, parameterTokens, Written, Legible, word]

theorem written_constantLine : Written constantLine := by
  simp +decide [constantLine, Written, Legible, word]

theorem written_closing : Written [⟨.rightBrace, "", "\x7d"⟩] := by
  simp +decide [Written, Legible]

theorem scan_opening (header : BodyHeader) :
    scan false (header.text ++ " \x7b").toList =
      .ok (word "" header.keywordText :: header.tailTokens ++
        [⟨.leftBrace, " ", "\x7b"⟩, ⟨.endOfFile, "", ""⟩]) := by
  have text : (header.text ++ " \x7b").toList = (sourceOf header.lineTokens).toList ++ [] := by
    cases header <;> decide +kernel
  have read := header.written_lineTokens.scan_start rfl Lexeme.stopsWord_nil (scan_of_end rfl true)
  rw [text]
  refine read.trans ?_
  simp [withGap]

theorem scan_structureOpening (header : BodyHeader) :
    scan false ("struct S \x7b\n" ++ header.text ++ " \x7b").toList =
      .ok (word "" "struct" :: word " " "S" :: ⟨.leftBrace, " ", "\x7b"⟩ ::
        ⟨.newline, "\n", ""⟩ :: word "" header.keywordText :: header.tailTokens ++
          [⟨.leftBrace, " ", "\x7b"⟩, ⟨.endOfFile, "", ""⟩]) := by
  have written : Written [word "" "struct", word " " "S", ⟨.leftBrace, " ", "\x7b"⟩] := by
    simp +decide [Written, Legible, word]
  have text : ("struct S \x7b\n" ++ header.text ++ " \x7b").toList =
      (sourceOf [word "" "struct", word " " "S", ⟨.leftBrace, " ", "\x7b"⟩]).toList ++
        ('\n' :: (sourceOf header.lineTokens).toList ++ []) := by
    cases header <;> decide +kernel
  have fed := header.written_lineTokens.scan_fed rfl Lexeme.stopsWord_nil (scan_of_end rfl true)
  rw [text]
  refine (written.scan_start rfl (Lexeme.stopsWord_feed _) fed).trans ?_
  simp [withGap]

theorem scan_closing :
    scan false "\x7d\nlet z: Int".toList = .ok (⟨.rightBrace, "", "\x7d"⟩ ::
      ⟨.newline, "\n", ""⟩ :: (constantLine ++ [⟨.endOfFile, "", ""⟩])) := by
  have text : "\x7d\nlet z: Int".toList = (sourceOf [⟨.rightBrace, "", "\x7d"⟩]).toList ++
      ('\n' :: (sourceOf constantLine).toList ++ []) := by
    decide +kernel
  have fed := written_constantLine.scan_fed rfl Lexeme.stopsWord_nil (scan_of_end rfl true)
  rw [text]
  exact written_closing.scan_start rfl (Lexeme.stopsWord_feed _) fed

theorem scan_structureClosing :
    scan false "\x7d\nlet z: Int\n\x7d".toList = .ok (⟨.rightBrace, "", "\x7d"⟩ ::
      ⟨.newline, "\n", ""⟩ :: (constantLine ++ closingBefore [⟨.endOfFile, "", ""⟩])) := by
  have text : "\x7d\nlet z: Int\n\x7d".toList = (sourceOf [⟨.rightBrace, "", "\x7d"⟩]).toList ++
      ('\n' :: (sourceOf constantLine).toList ++
        ('\n' :: (sourceOf [⟨.rightBrace, "", "\x7d"⟩]).toList ++ [])) := by
    decide +kernel
  have last := written_closing.scan_fed rfl Lexeme.stopsWord_nil (scan_of_end rfl true)
  have fed := written_constantLine.scan_fed rfl (Lexeme.stopsWord_feed _) last
  rw [text]
  exact written_closing.scan_start rfl (Lexeme.stopsWord_feed _) fed

section Body

variable {inside : List Token} (balanced : Token.Balanced .leftBrace inside) (rest : List Token)

include balanced

theorem afterKeyword_tokens (inner : Parser Declaration) (header : BodyHeader) :
    Declaration.afterKeyword inner header.keyword (header.tokensWith inside rest).tail =
      .ok (header.declaration, rest) := by
  have skipped : ∀ {front : List Token}, SignatureTokens front →
      signature (front ++ ⟨.leftBrace, " ", "\x7b"⟩ ::
        (inside ++ ⟨.rightBrace, "", "\x7d"⟩ :: rest)) = .ok (true, rest) :=
    fun isSignature => signature_body isSignature rfl balanced rfl rest
  rw [tokensWith, List.tail_cons]
  cases header with
  | function =>
    have name : ∀ more, Declaration.functionName (word " " "f" :: more) = .ok ("f", more) :=
      fun more => rfl
    rw [keyword, Declaration.afterKeyword, tailTokens, List.cons_append, bind_of_ok (name _),
      bind_of_ok (skipped (signatureTokens_parameters "a"))]
    rfl
  | initializer =>
    have none : Token.Balanced .leftParen [] := by decide
    have empty : SignatureTokens [⟨.leftParen, "", "("⟩, ⟨.rightParen, "", ")"⟩] :=
      .parameters rfl none rfl .nil
    rw [keyword, Declaration.afterKeyword, tailTokens, List.cons_append,
      bind_of_ok (acceptIf_of_neg (by rfl)), ← List.cons_append, bind_of_ok (skipped empty)]
    rfl
  | deinitializer =>
    rw [keyword, Declaration.afterKeyword, tailTokens, bind_of_ok (skipped .nil)]
    rfl
  | subscript =>
    rw [keyword, Declaration.afterKeyword, tailTokens,
      bind_of_ok (skipped (signatureTokens_parameters "i"))]
    rfl

theorem step_tokens (inner : Parser Declaration) (header : BodyHeader) :
    Declaration.step inner (header.tokensWith inside rest) = .ok (header.declaration, rest) := by
  have isKeyword : Declaration.Keyword.ofWord? header.keywordText = some header.keyword := by
    cases header <;> rfl
  exact Declaration.step_keyword isKeyword (afterKeyword_tokens balanced rest inner header)

theorem specified_tokens {reads : Parser Declaration} (header : BodyHeader)
    (unfolds : ∀ tokens, ∃ inner, reads tokens = Declaration.step inner tokens) :
    Declaration.specified reads (header.tokensWith inside rest) =
      .ok (header.declaration, rest) := by
  have other : Modifier.IsOther header.keywordText := by
    cases header <;> exact ⟨rfl, rfl⟩
  have alone : header.declaration.withSpecifiers .none = header.declaration := by
    cases header <;> rfl
  obtain ⟨inner, unfolded⟩ := unfolds (header.tokensWith inside rest)
  have read := unfolded.trans (step_tokens balanced rest inner header)
  rw [tokensWith] at read ⊢
  rw [Declaration.specified_word other read, alone]

theorem parseAll_atTop (header : BodyHeader) :
    Declaration.parseAll (header.tokensWith inside (⟨.newline, "\n", ""⟩ :: constantLine)) =
      .ok ([header.declaration, constant], []) := by
  obtain ⟨tail, shape⟩ : ∃ tail, header.tokensWith inside (⟨.newline, "\n", ""⟩ :: constantLine) =
    word "" header.keywordText :: tail := ⟨_, rfl⟩
  have read : Declaration.parse (word "" header.keywordText :: tail) =
      .ok (header.declaration, ⟨.newline, "\n", ""⟩ :: constantLine) := by
    rw [← shape]
    exact specified_tokens balanced _ header fun tokens => ⟨_, fix_apply _ tokens⟩
  -- The constant and the end of the input take two more steps.
  have some : tail.length ≠ 0 := by
    intro none
    have sizes := congrArg List.length shape
    simp [tokensWith, none] at sizes
  obtain ⟨depth, long⟩ := Nat.exists_eq_succ_of_ne_zero some
  have first : separators (word "" header.keywordText :: tail) =
      .ok ((), word "" header.keywordText :: tail) := rfl
  rw [shape, Declaration.parseAll, fix_apply, bind_of_ok first,
    bind_of_ok (show nextKind (word "" header.keywordText :: tail) = .ok (_, _) from rfl),
    if_neg (by simp [Token.kindAt]), bind_of_ok read, List.length_cons, long]
  rfl

theorem members_tokens (inner : Parser Declaration) (header : BodyHeader) :
    Declaration.members (Declaration.step inner) (⟨.newline, "\n", ""⟩ ::
      header.tokensWith inside (⟨.newline, "\n", ""⟩ :: (constantLine ++ closingBefore rest))) =
        .ok ([header.declaration, constant], rest) := by
  let lines : List (List Token × Declaration) :=
    [(⟨.newline, "\n", ""⟩ :: header.tokensWith inside [], header.declaration),
      (⟨.newline, "\n", ""⟩ :: constantLine, constant)]
  have read : Declaration.members (Declaration.step inner) (lines.flatMap Prod.fst ++
      closingBefore rest) = .ok (lines.map Prod.snd, rest) := by
    refine Declaration.members_items (closingBefore_follows rest) ?_ ?_
    · intro line isLine after _
      simp only [lines, List.mem_cons, List.not_mem_nil, or_false] at isLine
      rcases isLine with rfl | rfl
      · exact ⟨⟨_, _, rfl, by simp [word]⟩, by simp⟩
      · exact ⟨⟨_, _, rfl, by simp [word]⟩, by simp⟩
    · intro line isLine after follows
      simp only [lines, List.mem_cons, List.not_mem_nil, or_false] at isLine
      rcases isLine with rfl | rfl
      · have body := specified_tokens balanced after header fun tokens =>
          ⟨inner, (rfl : Declaration.step inner tokens = _)⟩
        exact ⟨_, _, rfl, by simp [tokensWith], body⟩
      · have lexable : FieldOutline.Lexable ⟨false, "z", "Int", false⟩ := by decide
        exact ⟨_, _, rfl, rfl, FieldOutline.specified_tokens lexable inner follows⟩
  have shape : lines.flatMap Prod.fst ++ closingBefore rest = ⟨.newline, "\n", ""⟩ ::
      header.tokensWith inside (⟨.newline, "\n", ""⟩ :: (constantLine ++ closingBefore rest)) := by
    simp [lines, tokensWith]
  rw [← shape]
  exact read

def enclosing (header : BodyHeader) : Declaration :=
  .composite ⟨.structType, .none, .plain "S", [], none, [header.declaration, constant]⟩

theorem parseAll_inStructure (header : BodyHeader) :
    Declaration.parseAll (word "" "struct" :: word " " "S" :: ⟨.leftBrace, " ", "\x7b"⟩ ::
      ⟨.newline, "\n", ""⟩ ::
        header.tokensWith inside (⟨.newline, "\n", ""⟩ :: (constantLine ++ closingBefore []))) =
          .ok ([header.enclosing], []) := by
  have isName : IsName "S" := by decide
  have read : ∀ inner, Declaration.afterKeyword (Declaration.step inner) (.composite .structType)
      (word " " "S" :: ⟨.leftBrace, " ", "\x7b"⟩ :: ⟨.newline, "\n", ""⟩ ::
        header.tokensWith inside (⟨.newline, "\n", ""⟩ :: (constantLine ++ closingBefore []))) =
          .ok (header.enclosing, []) := by
    intro inner
    rw [Declaration.afterKeyword, bind_of_ok (Name.parse_word isName " " _),
      bind_of_ok (Declaration.genericParameters_of_ne (by simp) _),
      bind_of_ok (Declaration.inheritance?_brace _), bind_of_ok (Declaration.whereClause_brace _),
      bind_of_ok (Declaration.openBody_brace _),
      bind_of_ok (members_tokens balanced [] inner header)]
    rfl
  exact Declaration.parseAll_alone ⟨rfl, rfl⟩ fun inner => Declaration.step_keyword rfl (read inner)

end Body

theorem append_lines {opening brace last body first closing : String} (ends : last = brace ++ "\n")
    (begins : first = "\n" ++ closing) :
    opening ++ last ++ body ++ first = opening ++ brace ++ "\n" ++ body ++ "\n" ++ closing := by
  subst ends begins
  simp only [String.append_assoc]

section Text

variable {body : String} {tokens : List Token} (read : tokenize body = .ok tokens)
  (balanced : Token.Balanced .leftBrace tokens) (header : BodyHeader)

include read balanced

theorem parse_atTop :
    SourceFile.parse (header.atTop body) = .ok ⟨[header.declaration, constant]⟩ := by
  have text : header.atTop body =
      header.text ++ " \x7b" ++ "\n" ++ body ++ "\n" ++ "\x7d\nlet z: Int" :=
    append_lines (by decide +kernel) (by decide +kernel)
  rw [text]
  refine SourceFile.parse_enclosed (scan_opening header) (by simp) read scan_closing rfl ?_
  intro between same
  exact parseAll_atTop (balanced.of_brackets same) header

theorem parse_inStructure :
    SourceFile.parse (header.inStructure body) = .ok ⟨[header.enclosing]⟩ := by
  have text : header.inStructure body = "struct S \x7b\n" ++ header.text ++ " \x7b" ++ "\n" ++
      body ++ "\n" ++ "\x7d\nlet z: Int\n\x7d" :=
    append_lines (by decide +kernel) (by decide +kernel)
  rw [text]
  refine SourceFile.parse_enclosed (scan_structureOpening header) (by simp) read
    scan_structureClosing rfl ?_
  intro between same
  exact parseAll_inStructure (balanced.of_brackets same) header

end Text

def extracted (options : ExtractionOptions) (catalog : Catalog) (source : String) :
    Except ParseError Extraction :=
  (SourceFile.parse source).map fun file =>
    Extraction.ofDeclarations options catalog file.declarations

/-- The texts with this body declare and contribute what they do with an empty one. -/
structure SkipsBody (header : BodyHeader) (body : String) : Prop where
  inStructure : SourceFile.parse (header.inStructure body) = .ok ⟨[header.enclosing]⟩
  inStructureEmpty : SourceFile.parse (header.inStructure body) =
    SourceFile.parse (header.inStructure "")
  atTop : SourceFile.parse (header.atTop body) = .ok ⟨[header.declaration, constant]⟩
  atTopEmpty : SourceFile.parse (header.atTop body) = SourceFile.parse (header.atTop "")
  extractedInStructure : ∀ options catalog, extracted options catalog (header.inStructure body) =
    extracted options catalog (header.inStructure "")
  extractedAtTop : ∀ options catalog, extracted options catalog (header.atTop body) =
    extracted options catalog (header.atTop "")

end BodyHeader
end SwiftLens
