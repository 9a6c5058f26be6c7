import SwiftLens.Proofs.Printing.Openings

namespace SwiftLens

open SwiftLens.Parser SwiftLens.Token

namespace TypeExpr

def ReadBy (inner : Parser TypeExpr) (type : TypeExpr) : Prop :=
  ∀ gap rest, FollowedBy closers rest → inner (type.tokens gap ++ rest) = .ok (type, rest)

def ReadAsPart (inner : Parser TypeExpr) (type : TypeExpr) : Prop :=
  ∀ gap rest, FollowedBy (.ampersand :: closers) rest →
    part inner (type.tokens gap ++ rest) = .ok (type, rest)

inductive MarkFollows : List Token → Prop
  | mark {rest : List Token}
      (follows : FollowedBy (.question :: .bang :: .ampersand :: closers) rest) : MarkFollows rest
  | metatype (kind : Metatype) (after : List Token) :
      MarkFollows (⟨.dot, "", "."⟩ :: word "" kind.keyword :: after)

def ReadWithMarks (inner : Parser TypeExpr) (type : TypeExpr) : Prop :=
  ∀ gap rest, MarkFollows rest → part inner (type.tokens gap ++ rest) = .ok (suffixed type rest)

theorem ofToken?_keyword (kind : Metatype) :
    Metatype.ofToken? (word "" kind.keyword) = some kind := by
  cases kind <;> rfl

theorem MarkFollows.followedBy {rest : List Token} (follows : MarkFollows rest) :
    FollowedBy (.dot :: .question :: .bang :: .ampersand :: closers) rest := by
  cases follows with
  | mark follows => exact follows.mono (List.subset_cons_self _ _)
  | metatype kind after => exact .cons List.mem_cons_self _

/-- The path before a mark has ended. -/
theorem MarkFollows.endsPath {rest : List Token} (follows : MarkFollows rest) :
    acceptIf continuesPath rest = .ok (false, rest) := by
  cases follows with
  | mark follows =>
    have noDot : kindAt 0 _ ≠ some .dot := follows.ne (by decide)
    exact acceptIf_of_kindAt noDot (by simp +contextual [continuesPath])
  | metatype kind after =>
    exact acceptIf_of_neg (by simp [continuesPath, ofToken?_keyword])

theorem suffixed_of_followedBy {rest : List Token}
    (follows : FollowedBy (.ampersand :: closers) rest) (base : TypeExpr) :
    suffixed base rest = (base, rest) := by
  cases rest with
  | nil => rfl
  | cons token tail =>
    have member := follows token.kind rfl
    rw [suffixed.eq_def]
    simp only [closers, List.mem_cons, List.not_mem_nil, or_false] at member
    rcases member with kind | kind | kind | kind | kind | kind | kind <;> simp [kind]

section Levels

variable {inner : Parser TypeExpr} {type : TypeExpr}

theorem ReadWithMarks.readAsPart (reads : ReadWithMarks inner type) : ReadAsPart inner type := by
  intro gap rest follows
  have ends : FollowedBy (.question :: .bang :: .ampersand :: closers) rest :=
    follows.mono (by simp)
  rw [reads gap rest (.mark ends), suffixed_of_followedBy follows]

/-- A type with a mark is read when the type without it is read with marks. -/
theorem ReadWithMarks.marked (reads : ReadWithMarks inner type) (mark : List Token)
    {marked : TypeExpr} (spelled : ∀ gap, marked.tokens gap = type.tokens gap ++ mark)
    (follows : ∀ rest, MarkFollows (mark ++ rest))
    (taken : ∀ rest, suffixed type (mark ++ rest) = suffixed marked rest) :
    ReadWithMarks inner marked := by
  intro gap rest _
  rw [spelled, List.append_assoc, reads gap _ (follows rest), taken]

theorem ReadWithMarks.optional (reads : ReadWithMarks inner type) :
    ReadWithMarks inner (optional type) := by
  refine reads.marked [⟨.question, "", "?"⟩] (fun gap => by rw [tokens])
    (fun rest => .mark (.cons (by simp) _)) ?_
  intro rest
  rw [List.cons_append, suffixed.eq_def]
  rfl

theorem ReadWithMarks.implicitlyUnwrapped (reads : ReadWithMarks inner type) :
    ReadWithMarks inner (implicitlyUnwrapped type) := by
  refine reads.marked [⟨.bang, "", "!"⟩] (fun gap => by rw [tokens])
    (fun rest => .mark (.cons (by simp) _)) ?_
  intro rest
  rw [List.cons_append, suffixed.eq_def]
  rfl

theorem ReadWithMarks.metatype (reads : ReadWithMarks inner type) (kind : Metatype) :
    ReadWithMarks inner (metatype type kind) := by
  refine reads.marked [⟨.dot, "", "."⟩, word "" kind.keyword] (fun gap => by rw [tokens])
    (fun rest => .metatype kind rest) ?_
  intro rest
  rw [List.cons_append, suffixed.eq_def]
  simp [ofToken?_keyword]

end Levels

section Lists

variable {inner : Parser TypeExpr}

theorem arguments_tokens {types : List TypeExpr} (reads : ∀ type ∈ types, ReadBy inner type)
    (filled : types ≠ []) (rest : List Token) :
    arguments inner (joined ⟨.comma, "", ","⟩ " " (types.map tokens) "" ++
      ⟨.greater, "", ">"⟩ :: rest) = .ok (types, ⟨.greater, "", ">"⟩ :: rest) := by
  refine fix_joined filled ?_ ?_ ""
  · intro more gap type member next _ behind
    rw [bind_of_ok (reads type member gap _ (.cons (by simp [closers]) _)),
      bind_of_ok (accept_mark _ _ _ _), if_pos rfl]
  · intro more gap type member
    rw [bind_of_ok (reads type member gap _ (.cons (by simp [closers]) _)),
      bind_of_ok (accept_of_ne (by simp) _)]
    rfl

theorem component_tokens {part : TypeComponent TypeExpr} (wellFormed : part.name.WellFormed)
    (reads : ∀ type ∈ part.arguments, ReadBy inner type) (gap : String) {rest : List Token}
    (noBracket : kindAt 0 rest ≠ some .less) :
    component inner (componentTokens part gap ++ rest) = .ok (part, rest) := by
  obtain ⟨name, arguments⟩ := part
  cases arguments with
  | nil =>
    rw [componentTokens, component, List.cons_append,
      bind_of_ok (wellFormed.parse_ofSpelling gap _), List.nil_append,
      bind_of_ok (acceptTouching_of_kindAt noBracket)]
    rfl
  | cons argument others =>
    have opening : acceptTouching .less (⟨.less, "", "<"⟩ :: (joined ⟨.comma, "", ","⟩ " "
        ((argument :: others).map tokens) "" ++ ⟨.greater, "", ">"⟩ :: rest)) =
          .ok (true, joined ⟨.comma, "", ","⟩ " " ((argument :: others).map tokens) "" ++
            ⟨.greater, "", ">"⟩ :: rest) := acceptIf_of_pos (by simp [touches])
    rw [componentTokens, tokensOf_eq_map, ← List.map_cons, component]
    simp only [List.cons_append, List.append_assoc, List.nil_append]
    rw [bind_of_ok (wellFormed.parse_ofSpelling gap _), bind_of_ok opening, if_pos rfl,
      bind_of_ok (arguments_tokens reads (List.cons_ne_nil _ _) rest),
      bind_of_ok (expect_mark _ _ _ _ _)]
    rfl

theorem ofToken?_of_not_isMetatype {part : TypeComponent TypeExpr}
    (wellFormed : part.name.WellFormed) (noMetatype : ¬part.IsMetatype) (gap : String) :
    Metatype.ofToken? (ofSpelling gap part.name.spelling) = none := by
  have noType : (ofSpelling gap part.name.spelling).isWord "Type" = false :=
    wellFormed.isWord_of_ne gap (by decide) fun same => noMetatype (.inl same)
  have noProtocol : (ofSpelling gap part.name.spelling).isWord "Protocol" = false :=
    wellFormed.isWord_of_ne gap (by decide) fun same => noMetatype (.inr same)
  unfold Metatype.ofToken?
  split
  · next isWord =>
    unfold Metatype.ofKeyword?
    split
    · next same => simp [Token.isWord, isWord, same] at noType
    · next same => simp [Token.isWord, isWord, same] at noProtocol
    · rfl
  · rfl

theorem componentTokens_cons (part : TypeComponent TypeExpr) (gap : String) :
    ∃ behind, componentTokens part gap = ofSpelling gap part.name.spelling :: behind := by
  obtain ⟨name, arguments⟩ := part
  cases arguments with
  | nil => exact ⟨[], by rw [componentTokens]⟩
  | cons argument others => exact ⟨_, by rw [componentTokens]⟩

theorem path_tokens {path : TypePath} (dotted : path.Dotted)
    (reads : ∀ part ∈ path, ∀ type ∈ part.arguments, ReadBy inner type) (gap : String)
    {rest : List Token} (follows : MarkFollows rest) :
    TypeExpr.path inner ((named path).tokens gap ++ rest) = .ok (path, rest) := by
  rw [tokens, componentTokensOf_eq_map]
  refine fix_joined dotted.filled ?_ ?_ gap
  · intro more gap part member next later behind
    have read : component inner (componentTokens part gap ++
        ⟨.dot, "", "."⟩ :: (componentTokens next "" ++ behind)) =
          .ok (part, ⟨.dot, "", "."⟩ :: (componentTokens next "" ++ behind)) :=
      component_tokens (dotted.names part member) (reads part member) gap (by simp [kindAt])
    have wellFormed := dotted.names next (List.mem_of_mem_tail later)
    have continues : continuesPath ⟨.dot, "", "."⟩ (componentTokens next "" ++ behind) = true := by
      obtain ⟨tail, begins⟩ := componentTokens_cons next ""
      simp [continuesPath, begins, wellFormed.ofToken?_ofSpelling,
        ofToken?_of_not_isMetatype wellFormed (dotted.later next later)]
    rw [bind_of_ok read, bind_of_ok (acceptIf_of_pos continues), if_pos rfl]
  · intro more gap part member
    have noBracket : kindAt 0 rest ≠ some .less := follows.followedBy.ne (by decide)
    rw [bind_of_ok (component_tokens (dotted.names part member) (reads part member) gap noBracket),
      bind_of_ok follows.endsPath]
    rfl

theorem label?_label {label : String}
    (isName : ∃ name : Name, name.WellFormed ∧ name.spelling = label) (gap : String)
    (rest : List Token) :
    label? (ofSpelling gap label :: ⟨.colon, "", ":"⟩ :: rest) = .ok (some label, rest) := by
  obtain ⟨name, wellFormed, rfl⟩ := isName
  have isLabel : ((Name.ofToken? (ofSpelling gap name.spelling)).isSome &&
      kindAt 0 (⟨.colon, "", ":"⟩ :: rest) == some .colon) = true := by
    simp [wellFormed.ofToken?_ofSpelling, kindAt]
  rw [label?, if_pos isLabel]
  rfl

theorem variadicDots_of_kindAt {rest : List Token} (noDot : kindAt 0 rest ≠ some .dot) :
    variadicDots rest = .ok ((), rest) := by
  rw [variadicDots, bind_of_ok (acceptIf_of_kindAt noDot (by simp +contextual))]
  rfl

structure ElementReadBy (inner : Parser TypeExpr) (element : TupleElement TypeExpr) : Prop where
  labelled : element.Labelled
  printable : element.type.Printable
  reads : ReadBy inner element.type

theorem element_tokens {listed : TupleElement TypeExpr} (readBy : ElementReadBy inner listed)
    (gap : String) {rest : List Token} (ends : FollowedBy [.comma, .rightParen] rest) :
    element inner (elementTokens listed gap ++ rest) = .ok (listed, rest) := by
  obtain ⟨label, type⟩ := listed
  obtain ⟨labelled, printable, reads⟩ := readBy
  have closed : FollowedBy closers rest := ends.mono (by simp [closers])
  have finished : (do
      let _ ← initializer?
      variadicDots
      return TupleElement.mk label type) rest = .ok (⟨label, type⟩, rest) := by
    rw [bind_of_ok (initializer?_of_kindAt (ends.ne (by decide))),
      bind_of_ok (variadicDots_of_kindAt (ends.ne (by decide)))]
    rfl
  cases label with
  | none =>
    have unlabelled : label? (type.tokens gap ++ rest) = .ok (none, type.tokens gap ++ rest) :=
      (printable.opens gap rest).label? (ends.ne (by decide)) (ends.ne (by decide))
    rw [elementTokens, element, bind_of_ok unlabelled, bind_of_ok (reads gap rest closed), finished]
  | some label =>
    rw [elementTokens, element, List.cons_append, List.cons_append,
      bind_of_ok (label?_label (labelled label rfl) gap _), bind_of_ok (reads " " rest closed),
      finished]

theorem elements_tokens {listed : TupleType}
    (readBy : ∀ element ∈ listed, ElementReadBy inner element) (rest : List Token) :
    elements inner (joined ⟨.comma, "", ","⟩ " " (elementTokensOf listed) "" ++
      ⟨.rightParen, "", ")"⟩ :: rest) = .ok (listed, rest) := by
  rw [elementTokensOf_eq_map]
  by_cases filled : listed = []
  · subst filled
    rw [elements, fix_apply, List.map_nil, joined, List.nil_append,
      bind_of_ok (newlines_of_ne (by simp) _), bind_of_ok (accept_mark _ _ _ _)]
    rfl
  refine fix_joined filled ?_ ?_ ""
  · intro more gap element member next _ behind
    have begins : FollowedBy openers (elementTokens element gap ++ ⟨.comma, "", ","⟩ ::
        (elementTokens next " " ++ behind)) :=
      followedBy_element ((readBy element member).printable.opens gap _)
    rw [bind_of_ok (newlines_of_kindAt (begins.ne (by decide))),
      bind_of_ok (accept_of_kindAt (begins.ne (by decide))), if_neg (by simp),
      bind_of_ok (element_tokens (readBy element member) gap (.cons (by simp) _)),
      bind_of_ok (newlines_of_ne (by simp) _), bind_of_ok (accept_mark _ _ _ _), if_pos rfl]
  · intro more gap element member
    have begins : FollowedBy openers (elementTokens element gap ++
        ⟨.rightParen, "", ")"⟩ :: rest) :=
      followedBy_element ((readBy element member).printable.opens gap _)
    rw [bind_of_ok (newlines_of_kindAt (begins.ne (by decide))),
      bind_of_ok (accept_of_kindAt (begins.ne (by decide))), if_neg (by simp),
      bind_of_ok (element_tokens (readBy element member) gap (.cons (by simp) _)),
      bind_of_ok (newlines_of_ne (by simp) _), bind_of_ok (accept_of_ne (by simp) _),
      if_neg (by simp), bind_of_ok (expect_mark _ _ _ _ _)]
    rfl

theorem effects_of_kindAt {rest : List Token} (noWord : kindAt 0 rest ≠ some .identifier) :
    effects rest = .ok ((false, false), rest) := by
  have needsWord : ∀ {token : Token} {text : String},
      token.isWord text = true → token.kind = .identifier := by
    simp +contextual [Token.isWord]
  have noAsync : acceptWord "async" rest = .ok (false, rest) :=
    acceptIf_of_kindAt noWord fun token tail isWord => needsWord isWord
  have noThrows : acceptIf (fun token _ => token.isWord "throws" || token.isWord "rethrows") rest =
      .ok (false, rest) :=
    acceptIf_of_kindAt noWord fun token tail isWord =>
      ((Bool.or_eq_true _ _).mp isWord).elim needsWord needsWord
  rw [effects, fix_apply, bind_of_ok noAsync, if_neg (by simp), bind_of_ok noThrows]
  rfl

theorem effects_tokens (isAsync throws : Bool) (rest : List Token) :
    effects (effectTokens isAsync throws ++ ⟨.arrow, " ", "->"⟩ :: rest) =
      .ok ((isAsync, throws), ⟨.arrow, " ", "->"⟩ :: rest) := by
  cases isAsync <;> cases throws <;> rfl

end Lists

section Groups

variable {inner : Parser TypeExpr}

theorem parenthesized_tuple {listed : TupleType} (noParentheses : ∀ type, listed ≠ [⟨none, type⟩])
    (readBy : ∀ element ∈ listed, ElementReadBy inner element) {rest : List Token}
    (follows : MarkFollows rest) :
    parenthesized inner (joined ⟨.comma, "", ","⟩ " " (elementTokensOf listed) "" ++
      ⟨.rightParen, "", ")"⟩ :: rest) = .ok (tuple listed, rest) := by
  have several : ofElements listed = tuple listed := by
    unfold ofElements
    split
    · next type => exact absurd rfl (noParentheses type)
    · rfl
  rw [parenthesized, bind_of_ok (elements_tokens readBy rest),
    bind_of_ok (effects_of_kindAt (follows.followedBy.ne (by decide)))]
  dsimp only
  rw [bind_of_ok (accept_of_kindAt (follows.followedBy.ne (by decide))), if_neg (by simp), several]
  rfl

theorem parenthesized_function {parameters : TupleType} {result : TypeExpr}
    (readBy : ∀ parameter ∈ parameters, ElementReadBy inner parameter)
    (reads : ReadBy inner result) (isAsync throws : Bool) {rest : List Token}
    (ends : FollowedBy closers rest) :
    parenthesized inner (joined ⟨.comma, "", ","⟩ " " (elementTokensOf parameters) "" ++
      ⟨.rightParen, "", ")"⟩ :: (effectTokens isAsync throws ++
        ⟨.arrow, " ", "->"⟩ :: (result.tokens " " ++ rest))) =
      .ok (function parameters result isAsync throws, rest) := by
  rw [parenthesized, bind_of_ok (elements_tokens readBy _),
    bind_of_ok (effects_tokens isAsync throws _)]
  dsimp only
  rw [bind_of_ok (accept_mark _ _ _ _), if_pos rfl, bind_of_ok (reads " " rest ends)]
  rfl

theorem bracketed_of_ok {first type : TypeExpr} (printable : first.Printable)
    (reads : ReadBy inner first) {behind rest : List Token}
    (follows : FollowedBy [.colon, .rightBracket] behind)
    (read : arrayOrDictionary inner first behind = .ok (type, ⟨.rightBracket, "", "]"⟩ :: rest)) :
    bracketed inner (first.tokens "" ++ behind) = .ok (type, rest) := by
  have begins := (printable.opens "" behind).followedBy
  have ends : FollowedBy closers behind := follows.mono (by simp [closers])
  rw [bracketed, bind_of_ok (newlines_of_kindAt (begins.ne (by decide))),
    bind_of_ok (reads "" behind ends), bind_of_ok (newlines_of_kindAt (ends.ne (by decide))),
    bind_of_ok read, bind_of_ok (newlines_of_ne (by simp) _), bind_of_ok (expect_mark _ _ _ _ _)]
  rfl

theorem bracketed_array {element : TypeExpr} (printable : element.Printable)
    (reads : ReadBy inner element) (rest : List Token) :
    bracketed inner (element.tokens "" ++ ⟨.rightBracket, "", "]"⟩ :: rest) =
      .ok (array element, rest) := by
  refine bracketed_of_ok printable reads (.cons (by simp) _) ?_
  rw [arrayOrDictionary, bind_of_ok (accept_of_ne (by simp) _)]
  rfl

theorem bracketed_dictionary {key value : TypeExpr} (printable : key.Printable)
    (reads : ReadBy inner key) (readsValue : ReadBy inner value) (rest : List Token) :
    bracketed inner (key.tokens "" ++ ⟨.colon, "", ":"⟩ :: (value.tokens " " ++
      ⟨.rightBracket, "", "]"⟩ :: rest)) = .ok (dictionary key value, rest) := by
  refine bracketed_of_ok printable reads (.cons (by simp) _) ?_
  rw [arrayOrDictionary, bind_of_ok (accept_mark _ _ _ _), if_pos rfl,
    bind_of_ok (readsValue " " _ (.cons (by simp [closers]) _))]
  rfl

/-- A type that opens no constraint is read with the marks behind it. -/
theorem part_of_primary {first : Token} {tail rest : List Token} {base : TypeExpr}
    (noSome : first.isWord "some" = false) (noAny : first.isWord "any" = false)
    (read : primary inner (first :: tail) = .ok (base, rest)) :
    part inner (first :: tail) = .ok (suffixed base rest) := by
  rw [part, fix_apply, bind_of_ok (acceptIf_of_neg (by simp [opensConstraint, noSome])),
    if_neg (by simp), bind_of_ok (acceptIf_of_neg (by simp [opensConstraint, noAny])),
    if_neg (by simp)]
  exact bind_of_ok read

theorem part_parenthesized {tail rest : List Token} {base : TypeExpr}
    (read : parenthesized inner tail = .ok (base, rest)) (gap : String) :
    part inner (⟨.leftParen, gap, "("⟩ :: tail) = .ok (suffixed base rest) := by
  refine part_of_primary rfl rfl ?_
  rw [primary, bind_of_ok (accept_mark _ _ _ _), if_pos rfl, read]

theorem part_bracketed {tail rest : List Token} {base : TypeExpr}
    (read : bracketed inner tail = .ok (base, rest)) (gap : String) :
    part inner (⟨.leftBracket, gap, "["⟩ :: tail) = .ok (suffixed base rest) := by
  refine part_of_primary rfl rfl ?_
  rw [primary, bind_of_ok (accept_of_ne (by simp) _), if_neg (by simp),
    bind_of_ok (accept_mark _ _ _ _), if_pos rfl, read]

theorem part_path {name : Name} (wellFormed : name.WellFormed) (noSome : name ≠ .plain "some")
    (noAny : name ≠ .plain "any") {gap : String} {tail rest : List Token} {path : TypePath}
    (read : TypeExpr.path inner (ofSpelling gap name.spelling :: tail) = .ok (path, rest)) :
    part inner (ofSpelling gap name.spelling :: tail) = .ok (suffixed (named path) rest) := by
  refine part_of_primary (wellFormed.isWord_of_ne gap (by decide) noSome)
    (wellFormed.isWord_of_ne gap (by decide) noAny) ?_
  have starts : ahead startsName (ofSpelling gap name.spelling :: tail) =
      .ok (true, ofSpelling gap name.spelling :: tail) := by
    simp [ahead, startsName, wellFormed.ofToken?_ofSpelling]
  have noBracket : (ofSpelling gap name.spelling).kind ≠ .leftParen ∧
      (ofSpelling gap name.spelling).kind ≠ .leftBracket := by
    rcases kind_ofSpelling gap name.spelling with kind | kind <;> simp [kind]
  rw [primary, bind_of_ok (accept_of_ne noBracket.1 _), if_neg (by simp),
    bind_of_ok (accept_of_ne noBracket.2 _), if_neg (by simp), bind_of_ok starts, if_pos rfl,
    bind_of_ok read]
  rfl

theorem readWithMarks_named {path : TypePath} (dotted : path.Dotted)
    (noConstraint : ∀ component ∈ path.head?,
      component.name ≠ .plain "some" ∧ component.name ≠ .plain "any")
    (reads : ∀ component ∈ path, ∀ type ∈ component.arguments, ReadBy inner type) :
    ReadWithMarks inner (named path) := by
  intro gap rest follows
  have read := path_tokens dotted reads gap follows
  obtain ⟨component, others, rfl⟩ := List.exists_cons_of_ne_nil dotted.filled
  obtain ⟨noSome, noAny⟩ := noConstraint component rfl
  obtain ⟨tail, begins⟩ : ∃ tail, (named (component :: others)).tokens gap ++ rest =
      ofSpelling gap component.name.spelling :: tail := by
    obtain ⟨behind, shape⟩ := componentTokens_cons component gap
    exact ⟨_, by rw [tokens, componentTokensOf_eq_map, joined_cons, shape]; rfl⟩
  rw [begins] at read ⊢
  exact part_path (dotted.names component List.mem_cons_self) noSome noAny read

theorem readWithMarks_array {element : TypeExpr} (printable : element.Printable)
    (reads : ReadBy inner element) : ReadWithMarks inner (array element) := by
  intro gap rest _
  rw [tokens, List.cons_append, List.append_assoc]
  exact part_bracketed (bracketed_array printable reads rest) gap

theorem readWithMarks_dictionary {key value : TypeExpr} (printable : key.Printable)
    (reads : ReadBy inner key) (readsValue : ReadBy inner value) :
    ReadWithMarks inner (dictionary key value) := by
  intro gap rest _
  rw [tokens, List.cons_append, List.append_assoc, List.cons_append, List.append_assoc]
  exact part_bracketed (bracketed_dictionary printable reads readsValue rest) gap

theorem readWithMarks_tuple {listed : TupleType} (noParentheses : ∀ type, listed ≠ [⟨none, type⟩])
    (readBy : ∀ element ∈ listed, ElementReadBy inner element) :
    ReadWithMarks inner (tuple listed) := by
  intro gap rest follows
  rw [tokens, List.cons_append, List.append_assoc]
  exact part_parenthesized (parenthesized_tuple noParentheses readBy follows) gap

theorem part_function {parameters : TupleType} {result : TypeExpr}
    (readBy : ∀ parameter ∈ parameters, ElementReadBy inner parameter)
    (reads : ReadBy inner result) (isAsync throws : Bool) (gap : String) {rest : List Token}
    (ends : FollowedBy closers rest) :
    part inner ((function parameters result isAsync throws).tokens gap ++ rest) =
      .ok (function parameters result isAsync throws, rest) := by
  have read := parenthesized_function readBy reads isAsync throws ends
  rw [tokens, List.cons_append, List.append_assoc, List.cons_append, List.append_assoc,
    List.cons_append, part_parenthesized read gap,
    suffixed_of_followedBy (ends.mono (List.subset_cons_self _ _))]

theorem ReadAsPart.someOf {constraint : TypeExpr} (printable : constraint.Printable)
    (reads : ReadAsPart inner constraint) : ReadAsPart inner (someOf constraint) := by
  intro gap rest follows
  have noDot : kindAt 0 (constraint.tokens " " ++ rest) ≠ some .dot :=
    (printable.opens " " rest).followedBy.ne (by decide)
  rw [tokens, List.cons_append, part, fix_apply,
    bind_of_ok (acceptIf_of_pos (by simp [opensConstraint, Token.isWord, word, noDot])), if_pos rfl]
  exact bind_of_ok (reads " " rest follows)

theorem ReadAsPart.anyOf {constraint : TypeExpr} (printable : constraint.Printable)
    (reads : ReadAsPart inner constraint) : ReadAsPart inner (anyOf constraint) := by
  intro gap rest follows
  have noDot : kindAt 0 (constraint.tokens " " ++ rest) ≠ some .dot :=
    (printable.opens " " rest).followedBy.ne (by decide)
  rw [tokens, List.cons_append, part, fix_apply,
    bind_of_ok (acceptIf_of_neg (by simp [opensConstraint, Token.isWord, word])), if_neg (by simp),
    bind_of_ok (acceptIf_of_pos (by simp [opensConstraint, Token.isWord, word, noDot])), if_pos rfl]
  exact bind_of_ok (reads " " rest follows)

theorem furtherParts_of_ends {rest : List Token} (ends : FollowedBy closers rest) :
    furtherParts inner rest = .ok ([], rest) := by
  rw [furtherParts, fix_apply, bind_of_ok (accept_of_kindAt (ends.ne (by decide)))]
  rfl

def furtherTokens (parts : List TypeExpr) : List Token :=
  parts.flatMap fun type => ⟨.ampersand, " ", "&"⟩ :: type.tokens " "

theorem furtherParts_tokens {parts : List TypeExpr} (reads : ∀ type ∈ parts, ReadAsPart inner type)
    {rest : List Token} (ends : FollowedBy closers rest) :
    furtherParts inner (furtherTokens parts ++ rest) = .ok (parts, rest) := by
  have follows : FollowedBy (.ampersand :: closers) rest := ends.mono (List.subset_cons_self _ _)
  refine fix_led List.mem_cons_self follows ?_ ?_
  · intro more type member after follows
    rw [bind_of_ok (accept_mark _ _ _ _), if_pos rfl,
      bind_of_ok (reads type member " " after follows)]
  · intro more
    rw [bind_of_ok (accept_of_kindAt (ends.ne (by decide)))]
    rfl

theorem step_of_part {type : TypeExpr} (printable : type.Printable) {gap : String}
    {rest between : List Token} (ends : FollowedBy closers rest) {first : TypeExpr}
    {others : List TypeExpr} (read : part inner (type.tokens gap ++ rest) = .ok (first, between))
    (more : furtherParts inner between = .ok (others, rest)) :
    step inner (type.tokens gap ++ rest) = .ok (ofParts first others, rest) := by
  have opens := printable.opens gap rest
  rw [step, bind_of_ok (Attribute.skipAll_of_kindAt (opens.followedBy.ne (by decide))),
    bind_of_ok (opens.skipPassing ends), bind_of_ok read, bind_of_ok more]
  rfl

theorem ReadAsPart.readBy {type : TypeExpr} (printable : type.Printable)
    (reads : ReadAsPart inner type) : ReadBy (step inner) type := by
  intro gap rest ends
  exact step_of_part printable ends (reads gap rest (ends.mono (List.subset_cons_self _ _)))
    (furtherParts_of_ends ends)

theorem readBy_function {parameters : TupleType} {result : TypeExpr} {isAsync throws : Bool}
    (printable : (function parameters result isAsync throws).Printable)
    (readBy : ∀ parameter ∈ parameters, ElementReadBy inner parameter)
    (reads : ReadBy inner result) :
    ReadBy (step inner) (function parameters result isAsync throws) := by
  intro gap rest ends
  exact step_of_part printable ends (part_function readBy reads isAsync throws gap ends)
    (furtherParts_of_ends ends)

theorem readBy_composition {parts : List TypeExpr} (printable : (composition parts).Printable)
    (several : 2 ≤ parts.length) (reads : ∀ type ∈ parts, ReadAsPart inner type) :
    ReadBy (step inner) (composition parts) := by
  intro gap rest ends
  obtain ⟨first, second, others, rfl⟩ := exists_cons_cons several
  obtain ⟨readsFirst, readsMore⟩ := List.forall_mem_cons.mp reads
  have shape : (composition (first :: second :: others)).tokens gap ++ rest =
      first.tokens gap ++ (furtherTokens (second :: others) ++ rest) := by
    rw [tokens, tokensOf_eq_map, joined_cons, List.append_assoc, furtherTokens]
  have follows : FollowedBy (.ampersand :: closers) (furtherTokens (second :: others) ++ rest) :=
    .cons List.mem_cons_self _
  have read := readsFirst gap _ follows
  rw [← shape] at read
  exact step_of_part printable ends read (furtherParts_tokens readsMore ends)

end Groups

structure Reads (inner : Parser TypeExpr) (type : TypeExpr) : Prop where
  withMarks : type.takesMark = true → ReadWithMarks inner type
  asPart : type.isPart = true → ReadAsPart inner type
  whole : ReadBy (step inner) type

section Induction

variable {inner : Parser TypeExpr} {type : TypeExpr} (printable : type.Printable)

include printable

theorem ReadAsPart.reads (reads : ReadAsPart inner type)
    (withMarks : type.takesMark = true → ReadWithMarks inner type) : Reads inner type :=
  ⟨withMarks, fun _ => reads, reads.readBy printable⟩

theorem ReadWithMarks.reads (reads : ReadWithMarks inner type) : Reads inner type :=
  reads.readAsPart.reads printable fun _ => reads

end Induction

end TypeExpr

end SwiftLens
