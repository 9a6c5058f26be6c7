import SwiftLens.Proofs.Concatenation.Files
import SwiftLens.Proofs.Layout.Declarations
import SwiftLens.Proofs.Outline.Pieces
import SwiftLens.Proofs.Tokens.Tiling

namespace SwiftLens

/-- A character that begins names begins nothing else. -/
theorem Lexeme.skip_name {c : Char} {rest after : List Char} {kind : Token.Kind}
    (begins : startsIdentifier c = true ∨ c = '\x60') (lexed : skip c rest = .ok (kind, after)) :
    kind = .identifier ∨ kind = .backticked := by
  rcases begins with starts | rfl
  · have noMark : c ≠ '#' := ne_of_startsIdentifier starts (by decide) (by decide)
    have noQuote : c ≠ '"' := ne_of_startsIdentifier starts (by decide) (by decide)
    have noTick : c ≠ '\x60' := ne_of_startsIdentifier starts (by decide) (by decide)
    have noDigit := not_isDigit_of_startsIdentifier starts
    simp only [skip, punctuation?_of_startsIdentifier starts, noMark, noQuote, noTick, noDigit,
      starts, if_true, if_false] at lexed
    cases lexed
    exact .inl rfl
  · have quoted : skip '\x60' rest =
        (skipBackticked rest).map fun after => (.backticked, after) := rfl
    rw [quoted] at lexed
    cases name : skipBackticked rest with
    | error failure =>
      rw [name] at lexed
      cases lexed
    | ok found =>
      rw [name] at lexed
      cases lexed
      exact .inr rfl

namespace Token

theorem spelled_of_skip {c : Char} {rest after text : List Char} {token : Token}
    (lexed : Lexeme.skip c rest = .ok (token.kind, after))
    (written : token.text = String.ofList (c :: text)) : token.Spelled := by
  right
  constructor
  · simp [written]
  · intro isWord
    have begins : Lexeme.startsIdentifier c = true ∨ c = '\x60' := by
      simpa [namedByWord, written] using isWord
    rcases Lexeme.skip_name begins lexed with kind | kind
    · simp [Name.ofToken?, kind]
    · simp [Name.ofToken?, kind]

theorem spelled_of_scan {afterToken : Bool} {source : List Char} {tokens : List Token}
    (scanned : scan afterToken source = .ok tokens) :
    ∀ token ∈ tokens, token.kind ≠ .endOfFile → token.Spelled := by
  fun_induction scan afterToken source generalizing tokens with
  | case1 => cases scanned
  | case2 afterToken source skipped =>
    cases scanned
    intro token member goesOn
    rcases mem_withGap member with isBreak | ⟨isEnd, -⟩
    · exact .inl isBreak
    · exact absurd isEnd goesOn
  | case3 => cases scanned
  | case4 => cases scanned
  | case5 afterToken source c rest skipped kind after lexed shorter more scannedMore ih =>
    cases scanned
    intro token member goesOn
    rcases List.mem_append.mp member with here | member
    · rcases mem_withGap here with isBreak | ⟨same, written⟩
      · exact .inl isBreak
      · obtain ⟨tail, rfl⟩ := Lexeme.skip_suffix lexed
        rw [← List.cons_append, charsBefore_of_append] at written
        subst same
        exact spelled_of_skip lexed written
    · exact ih scannedMore token member goesOn

def adjacency (tokens : List Token) : List Bool :=
  List.zipWith (fun left right => left.2.2 == right.2.1) (spans tokens) (spans tokens).tail

theorem touches_eq_end (token : Token) (past : Nat) :
    (past == past + token.gap.utf8ByteSize) = token.touches := by
  have empty : token.gap.utf8ByteSize = 0 ↔ token.gap = "" := String.utf8ByteSize_eq_zero_iff
  rw [Bool.eq_iff_iff, beq_iff_eq, touches, String.isEmpty_iff, ← empty]
  omega

theorem zipWith_spansFrom (offset : Nat) (tokens : List Token) :
    List.zipWith (fun left right => left.2.2 == right.2.1) (spansFrom offset tokens)
      (spansFrom offset tokens).tail = tokens.tail.map touches := by
  induction tokens generalizing offset with
  | nil => rfl
  | cons first rest ih =>
    cases rest with
    | nil => rfl
    | cons second rest =>
      have later := ih (offset + first.gap.utf8ByteSize + first.text.utf8ByteSize)
      simp only [spansFrom, List.tail_cons, List.zipWith_cons_cons, List.map_cons] at later ⊢
      rw [later, touches_eq_end]

theorem adjacency_eq (tokens : List Token) : adjacency tokens = tokens.tail.map touches :=
  zipWith_spansFrom 0 tokens

/-- Token lists with the same kinds, the same texts, and the same tokens next to each other. -/
structure SameTokens (tokens others : List Token) : Prop where
  kinds : tokens.map (·.kind) = others.map (·.kind)
  texts : tokens.map (·.text) = others.map (·.text)
  adjacent : adjacency tokens = adjacency others

theorem SameTokens.symm {tokens others : List Token} (same : SameTokens tokens others) :
    SameTokens others tokens :=
  ⟨same.kinds.symm, same.texts.symm, same.adjacent.symm⟩

end Token

theorem relaid_of_map_eq {tokens others : List Token}
    (spelled : ∀ token ∈ tokens, token.Spelled)
    (kinds : tokens.map (·.kind) = others.map (·.kind))
    (texts : tokens.map (·.text) = others.map (·.text))
    (touching : tokens.map Token.touches = others.map Token.touches) : Relaid tokens others := by
  induction tokens generalizing others with
  | nil =>
    cases others with
    | nil => exact .nil
    | cons other others => cases kinds
  | cons token tokens ih =>
    cases others with
    | nil => cases kinds
    | cons other others =>
      obtain ⟨kind, kinds⟩ := List.cons.inj kinds
      obtain ⟨text, texts⟩ := List.cons.inj texts
      obtain ⟨touches, touching⟩ := List.cons.inj touching
      have later : ∀ token ∈ tokens, token.Spelled :=
        fun token member => spelled token (List.mem_cons_of_mem _ member)
      exact .cons ⟨kind, text, touches, spelled token List.mem_cons_self⟩
        (ih later kinds texts touching)

/-- The first token touches nothing, so its gap is made the same before the lists are compared. -/
theorem Token.SameTokens.relaid {first other : Token} {more later : List Token}
    (same : SameTokens (first :: more) (other :: later))
    (spelled : ∀ token ∈ (other :: later).dropLast, token.Spelled) :
    Relaid (first.regapped other.gap :: more).dropLast (other :: later).dropLast := by
  have touching : (other :: later).map touches = (first.regapped other.gap :: more).map touches := by
    have adjacent := same.adjacent
    rw [adjacency_eq, adjacency_eq] at adjacent
    exact List.cons_eq_cons.mpr ⟨rfl, adjacent.symm⟩
  apply Relaid.symm
  apply relaid_of_map_eq spelled
  · rw [List.map_dropLast, List.map_dropLast]
    exact congrArg List.dropLast same.kinds.symm
  · rw [List.map_dropLast, List.map_dropLast]
    exact congrArg List.dropLast same.texts.symm
  · rw [List.map_dropLast, List.map_dropLast, touching]

theorem Token.spelled_significant {source : List Char} {tokens : List Token}
    (scanned : scan false source = .ok tokens) : ∀ token ∈ tokens.dropLast, token.Spelled := by
  intro token member
  obtain ⟨front, gap, rfl, goesOn⟩ := (laid_of_scan scanned).ends
  rw [List.dropLast_concat] at member
  exact spelled_of_scan scanned token (List.mem_append_left _ member) (goesOn token member)

namespace SourceFile

theorem exists_parse_of_sameTokens {source other : String} {tokens others : List Token}
    (read : tokenize source = .ok tokens) (readOther : tokenize other = .ok others)
    (same : Token.SameTokens tokens others) {file : SourceFile}
    (parsed : parse source = .ok file) :
    ∃ image, parse other = .ok image ∧
      file.declarations.map Declaration.skeleton = image.declarations.map Declaration.skeleton := by
  obtain ⟨found, rest, scanned, declared⟩ := parse_ok parsed
  cases (tokenize_ok read).symm.trans scanned
  have scannedOther := tokenize_ok readOther
  rcases tokens with _ | ⟨first, more⟩
  · exact absurd rfl (Token.scan_ne_nil scanned)
  rcases others with _ | ⟨second, later⟩
  · exact absurd rfl (Token.scan_ne_nil scannedOther)
  obtain ⟨left, again⟩ := Declaration.parseAll_regapped declared second.gap
  have relaid := same.relaid (Token.spelled_significant scannedOther)
  obtain ⟨image, remains, declaredOther, alike, -⟩ :=
    Declaration.agreeOn_parseAll.reads relaid again
  exact ⟨⟨image⟩, parse_of_ok scannedOther declaredOther, alike⟩

/-- Layout is not read: sources with the same tokens, and the same tokens next to each other, are
both source files or neither is, they declare the same apart from texts that are cut out of the
source, and every extraction from them ends alike and leaves the same catalog. -/
theorem parse_of_sameTokens {source other : String} {tokens others : List Token}
    (read : tokenize source = .ok tokens) (readOther : tokenize other = .ok others)
    (same : Token.SameTokens tokens others) :
    ((∃ file, parse source = .ok file) ↔ ∃ image, parse other = .ok image) ∧
      ∀ file image, parse source = .ok file → parse other = .ok image →
        file.declarations.map Declaration.skeleton = image.declarations.map Declaration.skeleton ∧
          ∀ options catalog, Extraction.ofDeclarations options catalog file.declarations =
            Extraction.ofDeclarations options catalog image.declarations := by
  constructor
  · constructor
    · intro ⟨file, parsed⟩
      obtain ⟨image, parsedOther, -⟩ := exists_parse_of_sameTokens read readOther same parsed
      exact ⟨image, parsedOther⟩
    · intro ⟨image, parsedOther⟩
      obtain ⟨file, parsed, -⟩ := exists_parse_of_sameTokens readOther read same.symm parsedOther
      exact ⟨file, parsed⟩
  · intro file image parsed parsedOther
    obtain ⟨found, parsedAgain, skeletons⟩ := exists_parse_of_sameTokens read readOther same parsed
    cases parsedOther.symm.trans parsedAgain
    refine ⟨skeletons, ?_⟩
    intro options catalog
    rw [← Extraction.ofDeclarations_skeleton, skeletons, Extraction.ofDeclarations_skeleton]

def lampTokens (gap : String) : List Token :=
  [⟨.identifier, "", "struct"⟩, ⟨.identifier, gap, "Lamp"⟩, ⟨.leftBrace, gap, "\x7b"⟩,
    ⟨.identifier, gap, "let"⟩, ⟨.identifier, gap, "on"⟩, ⟨.colon, "", ":"⟩,
    ⟨.identifier, gap, "Bool"⟩, ⟨.equal, gap, "="⟩, ⟨.identifier, gap, "a"⟩,
    ⟨.operator, gap, "+"⟩, ⟨.identifier, gap, "b"⟩, ⟨.rightBrace, gap, "\x7d"⟩,
    ⟨.endOfFile, "", ""⟩]

def lampText (gap : String) : String :=
  Token.sourceOf (lampTokens gap)

/-- A lamp written with blanks and with comments. -/
theorem parse_of_sameTokens_lamp :
    tokenize (lampText " ") = .ok (lampTokens " ") ∧
      tokenize (lampText "/*\t*/") = .ok (lampTokens "/*\t*/") ∧
      Token.SameTokens (lampTokens " ") (lampTokens "/*\t*/") ∧
      (parse (lampText " ")).isOk = true ∧
      ((∃ file, parse (lampText " ") = .ok file) ↔ ∃ image, parse (lampText "/*\t*/") = .ok image) ∧
      ∀ file image, parse (lampText " ") = .ok file → parse (lampText "/*\t*/") = .ok image →
        file.declarations.map Declaration.skeleton = image.declarations.map Declaration.skeleton ∧
          ∀ options catalog, Extraction.ofDeclarations options catalog file.declarations =
            Extraction.ofDeclarations options catalog image.declarations := by
  have read : tokenize (lampText " ") = .ok (lampTokens " ") := by decide +kernel
  have readOther : tokenize (lampText "/*\t*/") = .ok (lampTokens "/*\t*/") := by decide +kernel
  have same : Token.SameTokens (lampTokens " ") (lampTokens "/*\t*/") := ⟨rfl, rfl, by decide⟩
  exact ⟨read, readOther, same, by decide +kernel, parse_of_sameTokens read readOther same⟩

end SourceFile
end SwiftLens
