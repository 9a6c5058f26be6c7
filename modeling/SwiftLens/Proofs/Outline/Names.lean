import SwiftLens.Declaration.Parser
import SwiftLens.Parser.Laws
import SwiftLens.Proofs.Outline.Tokens

namespace SwiftLens

open SwiftLens.Parser SwiftLens.Token

theorem Name.parse_word {name : String} (isName : IsName name) (gap : String) (rest : List Token) :
    Name.parse (word gap name :: rest) = .ok (.plain name, rest) := by
  have spelled : ofToken? (word gap name) = some (.plain name) := by
    simp [ofToken?, word, ofWord, isName.noWildcard]
  simp [parse, next?, bind_apply, takeIf_cons, spelled, pure_apply]

theorem Attribute.skipAll_of_ne {token : Token} (noMark : token.kind ≠ .at) (rest : List Token) :
    skipAll (token :: rest) = .ok ((), token :: rest) := by
  have other : Token.kindAt 0 (token :: rest) ≠ some .at := by simpa [Token.kindAt] using noMark
  rw [skipAll, fix_apply, bind_of_ok (show nextKind (token :: rest) = .ok (_, _) from rfl),
    if_neg other]
  rfl

namespace TypeExpr

def Follows (token : Token) : Prop :=
  token.kind ∈ [Token.Kind.question, .comma, .rightParen, .leftBrace, .newline]

theorem Follows.kind_ne {token : Token} (follows : Follows token) {kind : Token.Kind}
    (other : kind ∉ [Token.Kind.question, .comma, .rightParen, .leftBrace, .newline]) :
    token.kind ≠ kind := by
  rintro rfl
  exact other follows

section Word

variable {type : String} (isName : IsTypeName type) (gap : String) {next : Token}
  (follows : Follows next) (rest : List Token)

include isName follows

omit isName in
theorem skipPassing_word :
    skipPassing (word gap type :: next :: rest) = .ok ((), word gap type :: next :: rest) := by
  have noType : startsPassedType (next :: rest) = false := by
    simp only [Follows, List.mem_cons, List.not_mem_nil, or_false] at follows
    rcases follows with kind | kind | kind | kind | kind <;>
      simp [startsPassedType, Token.kindAt, kind]
  simp [skipPassing, dropPassing, noType]

theorem path_word (inner : Parser TypeExpr) :
    path inner (word gap type :: next :: rest) = .ok ([⟨.plain type, []⟩], next :: rest) := by
  have component : component inner (word gap type :: next :: rest) =
      .ok (⟨.plain type, []⟩, next :: rest) := by
    rw [TypeExpr.component, bind_of_ok (Name.parse_word isName.toIsName gap _), acceptTouching,
      bind_of_ok (acceptIf_of_neg (by simp [follows.kind_ne]))]
    rfl
  rw [path, fix_apply, bind_of_ok component,
    bind_of_ok (acceptIf_of_neg (by simp [continuesPath, follows.kind_ne]))]
  rfl

theorem primary_word (inner : Parser TypeExpr) :
    primary inner (word gap type :: next :: rest) = .ok (simple type, next :: rest) := by
  have starts : ahead startsName (word gap type :: next :: rest) =
      .ok (true, word gap type :: next :: rest) := by
    simp [ahead, startsName, Name.ofToken?, word]
  rw [primary, bind_of_ok (accept_of_ne (by simp [word]) _), if_neg (by simp),
    bind_of_ok (accept_of_ne (by simp [word]) _), if_neg (by simp), bind_of_ok starts,
    if_pos rfl, bind_of_ok (path_word isName gap follows rest inner)]
  rfl

theorem part_word (inner : Parser TypeExpr) :
    part inner (word gap type :: next :: rest) = .ok (suffixed (simple type) (next :: rest)) := by
  obtain ⟨noSome, noAny⟩ := isName.noConstraint
  rw [part, fix_apply,
    bind_of_ok (acceptIf_of_neg (by simp [opensConstraint, Token.isWord, word, noSome])),
    if_neg (by simp),
    bind_of_ok (acceptIf_of_neg (by simp [opensConstraint, Token.isWord, word, noAny])),
    if_neg (by simp)]
  exact bind_of_ok (primary_word isName gap follows rest inner)

theorem parse_suffixed {marked : TypeExpr} {after : Token} {remains : List Token}
    (suffix : suffixed (simple type) (next :: rest) = (marked, after :: remains))
    (ends : after.kind ≠ .ampersand) :
    parse (word gap type :: next :: rest) = .ok (marked, after :: remains) := by
  have read := part_word isName gap follows rest
    (fixWithin step (word gap type :: next :: rest).length)
  rw [suffix] at read
  have noMore : furtherParts (fixWithin step (word gap type :: next :: rest).length)
      (after :: remains) = .ok ([], after :: remains) := by
    rw [furtherParts, fix_apply, bind_of_ok (accept_of_ne ends _)]
    rfl
  rw [parse, fix_apply, step, bind_of_ok (Attribute.skipAll_of_ne (by simp [word]) _),
    bind_of_ok (skipPassing_word gap follows rest), bind_of_ok read, bind_of_ok noMore]
  rfl

end Word

def Ends (token : Token) : Prop :=
  token.kind ∈ [Token.Kind.comma, .rightParen, .leftBrace, .newline]

theorem suffixed_of_ends {next : Token} (ends : Ends next) (base : TypeExpr) (rest : List Token) :
    suffixed base (next :: rest) = (base, next :: rest) := by
  rw [suffixed.eq_def]
  simp only [Ends, List.mem_cons, List.not_mem_nil, or_false] at ends
  rcases ends with kind | kind | kind | kind <;> simp [kind]

theorem Ends.follows {token : Token} (ends : Ends token) : Follows token :=
  List.mem_cons_of_mem _ ends

theorem parse_word {type : String} (isName : IsTypeName type) (gap : String) {next : Token}
    (ends : Ends next) (rest : List Token) :
    parse (word gap type :: next :: rest) = .ok (simple type, next :: rest) :=
  parse_suffixed isName gap ends.follows rest (suffixed_of_ends ends _ _)
    (ends.follows.kind_ne (by decide))

theorem parse_optional_word {type : String} (isName : IsTypeName type) (gap : String) {next : Token}
    (ends : Ends next) (rest : List Token) :
    parse (word gap type :: ⟨.question, "", "?"⟩ :: next :: rest) =
      .ok (optional (simple type), next :: rest) := by
  have marked : suffixed (simple type) (⟨.question, "", "?"⟩ :: next :: rest) =
      (optional (simple type), next :: rest) := by
    rw [suffixed.eq_def]
    exact suffixed_of_ends ends _ _
  exact parse_suffixed isName gap (by simp [Follows]) _ marked
    (ends.follows.kind_ne (by decide))

end TypeExpr

def LineFollows (tokens : List Token) : Prop :=
  ∃ first rest, tokens = ⟨.newline, "\n", ""⟩ :: first :: rest ∧
    first.kind ∈ [Token.Kind.identifier, .rightBrace]

theorem length_listed (gap first : String) (others : List String) :
    (listed gap (first :: others)).length = 2 * others.length + 1 := by
  induction others with
  | nil => rfl
  | cons second others ih =>
    simp only [listed, List.flatMap_cons, List.length_append, List.length_cons, List.length_nil] at ih ⊢
    omega

section Loops

variable {β : Type} {step : Parser (List β) → Parser (List β)}

/-- A loop over names with commas between them. -/
theorem fix_listed {image : String → β} {gap first : String} {others : List String} {next : Token}
    {rest remains : List Token}
    (more : ∀ (inner : Parser (List β)) (gap : String), ∀ name ∈ first :: others,
      ∀ (second : String) (after : List Token),
        step inner (word gap name :: ⟨.comma, "", ","⟩ :: word " " second :: after) =
          (inner >>= fun images => pure (image name :: images)) (word " " second :: after))
    (last : ∀ (inner : Parser (List β)) (gap : String), ∀ name ∈ first :: others,
      step inner (word gap name :: next :: rest) = .ok ([image name], remains)) :
    fix step (listed gap (first :: others) ++ next :: rest) =
      .ok ((first :: others).map image, remains) := by
  -- Each step reads one name, so their number bounds the depth.
  have within : ∀ depth, others.length < depth →
      fixWithin step depth (listed gap (first :: others) ++ next :: rest) =
        .ok ((first :: others).map image, remains) := by
    induction others generalizing gap first with
    | nil =>
      intro depth enough
      obtain _ | depth := depth
      · simp at enough
      · exact last _ gap first List.mem_cons_self
    | cons second others ih =>
      intro depth enough
      obtain _ | depth := depth
      · simp at enough
      have read : fixWithin step depth (listed " " (second :: others) ++ next :: rest) =
          .ok ((second :: others).map image, remains) := ih
        (fun inner gap name member => more inner gap name (List.mem_cons_of_mem _ member))
        (fun inner gap name member => last inner gap name (List.mem_cons_of_mem _ member))
        depth (by simpa using enough)
      have shifted : listed gap (first :: second :: others) ++ next :: rest =
          word gap first :: ⟨.comma, "", ","⟩ :: (listed " " (second :: others) ++ next :: rest) := by
        simp [listed]
      rw [fixWithin_succ, shifted]
      refine (more _ gap first List.mem_cons_self second _).trans ?_
      exact bind_of_ok read
  refine within _ ?_
  rw [List.length_append, length_listed]
  omega

/-- A loop over items that a closing line ends. What may follow an item is kept by the items before
it. -/
theorem fix_items {ι : Type} {items : List ι} {tokensOf : ι → List Token} {image : ι → β}
    {Follows : List Token → Prop} {closing remains : List Token} (closingFollows : Follows closing)
    (follows : ∀ item ∈ items, ∀ after, Follows after →
      Follows (tokensOf item ++ after) ∧ tokensOf item ≠ [])
    (more : ∀ (inner : Parser (List β)), ∀ item ∈ items, ∀ after, Follows after →
      step inner (tokensOf item ++ after) =
        (inner >>= fun images => pure (image item :: images)) after)
    (last : ∀ inner : Parser (List β), step inner closing = .ok ([], remains)) :
    fix step (items.flatMap tokensOf ++ closing) = .ok (items.map image, remains) := by
  have within : ∀ depth, items.length < depth →
      Follows (items.flatMap tokensOf ++ closing) ∧
        fixWithin step depth (items.flatMap tokensOf ++ closing) = .ok (items.map image, remains) := by
    induction items with
    | nil =>
      intro depth enough
      obtain _ | depth := depth
      · simp at enough
      · exact ⟨closingFollows, last _⟩
    | cons item items ih =>
      intro depth enough
      obtain _ | depth := depth
      · simp at enough
      obtain ⟨behind, read⟩ := ih (fun other member => follows other (List.mem_cons_of_mem _ member))
        (fun inner other member => more inner other (List.mem_cons_of_mem _ member))
        depth (by simpa using enough)
      rw [List.flatMap_cons, List.append_assoc]
      refine ⟨(follows item List.mem_cons_self _ behind).1, ?_⟩
      rw [fixWithin_succ, more _ item List.mem_cons_self _ behind, bind_of_ok read]
      rfl
  have count : items.length ≤ (items.flatMap tokensOf).length := by
    clear within more last
    induction items with
    | nil => simp
    | cons item items ih =>
      have rest := ih fun other member => follows other (List.mem_cons_of_mem _ member)
      have filled := (follows item List.mem_cons_self closing closingFollows).2
      have size := List.length_pos_iff.mpr filled
      rw [List.flatMap_cons, List.length_append, List.length_cons]
      omega
  refine (within _ ?_).2
  rw [List.length_append]
  omega

end Loops

def namedPath (name : String) : TypePath :=
  [⟨.plain name, []⟩]

theorem Parser.initializer?_of_ne {token : Token} (other : token.kind ≠ .equal) (rest : List Token) :
    initializer? (token :: rest) = .ok (none, token :: rest) := by
  rw [initializer?, bind_of_ok (accept_of_ne other _)]
  rfl

theorem Declaration.supertype_word {name : String} (isName : IsTypeName name) (gap : String)
    {next : Token} (ends : TypeExpr.Ends next) (rest : List Token) :
    supertype (word gap name :: next :: rest) = .ok ([namedPath name], next :: rest) := by
  rw [supertype, bind_of_ok (acceptIf_of_neg (by simp [word])), if_neg (by simp),
    bind_of_ok (TypeExpr.parse_word isName gap ends rest)]
  rfl

theorem Declaration.supertypes_listed (gap : String) {first : String} {others : List String}
    (areNames : ∀ name ∈ first :: others, IsTypeName name) {brace : Token}
    (isBrace : brace.kind = .leftBrace) (rest : List Token) :
    supertypes (listed gap (first :: others) ++ brace :: rest) =
      .ok ((first :: others).map namedPath, brace :: rest) := by
  refine fix_listed ?_ ?_
  · intro inner gap name member second after
    rw [bind_of_ok (newlines_of_ne (by simp [word]) _),
      bind_of_ok (Attribute.skipAll_of_ne (by simp [word]) _),
      bind_of_ok (supertype_word (areNames name member) gap (by simp [TypeExpr.Ends]) _),
      bind_of_ok (accept_mark _ _ _ _), if_pos rfl]
    rfl
  · intro inner gap name member
    rw [bind_of_ok (newlines_of_ne (by simp [word]) _),
      bind_of_ok (Attribute.skipAll_of_ne (by simp [word]) _),
      bind_of_ok (supertype_word (areNames name member) gap (by simp [TypeExpr.Ends, isBrace]) _),
      bind_of_ok (accept_of_ne (by simp [isBrace]) _)]
    rfl

namespace TypeExpr

theorem label?_word {type : String} (gap : String) {next : Token} {rest : List Token}
    (noColon : next.kind ≠ .colon) (noSecond : Token.kindAt 0 rest ≠ some .colon) :
    label? (word gap type :: next :: rest) = .ok (none, word gap type :: next :: rest) := by
  have first : Token.kindAt 0 (next :: rest) ≠ some .colon := by simpa [Token.kindAt] using noColon
  have second : Token.kindAt 1 (next :: rest) ≠ some .colon := by simpa [Token.kindAt] using noSecond
  simp [label?, first, second]

theorem element_word {type : String} (isName : IsTypeName type) (gap : String) {next : Token}
    (ends : Ends next) {rest : List Token} (noSecond : Token.kindAt 0 rest ≠ some .colon) :
    element parse (word gap type :: next :: rest) = .ok (⟨none, simple type⟩, next :: rest) := by
  have noDots : variadicDots (next :: rest) = .ok ((), next :: rest) := by
    rw [variadicDots, bind_of_ok (acceptIf_of_neg (by simp [ends.follows.kind_ne]))]
    rfl
  rw [element, bind_of_ok (label?_word gap (ends.follows.kind_ne (by decide)) noSecond),
    bind_of_ok (parse_word isName gap ends rest),
    bind_of_ok (initializer?_of_ne (ends.follows.kind_ne (by decide)) _), bind_of_ok noDots]
  rfl

def namedElement (type : String) : TupleElement TypeExpr :=
  ⟨none, simple type⟩

theorem elements_listed {types : List String} (areNames : ∀ type ∈ types, IsTypeName type)
    {rest : List Token} (follows : LineFollows rest) :
    elements parse (listed "" types ++ ⟨.rightParen, "", ")"⟩ :: rest) =
      .ok (types.map namedElement, rest) := by
  obtain ⟨following, tail, rfl, -⟩ := follows
  cases types with
  | nil =>
    rw [listed, List.nil_append, elements, fix_apply, bind_of_ok (newlines_of_ne (by simp) _),
      bind_of_ok (accept_mark _ _ _ _)]
    rfl
  | cons first others =>
    refine fix_listed ?_ ?_
    · intro inner gap type member second after
      rw [bind_of_ok (newlines_of_ne (by simp [word]) _),
        bind_of_ok (accept_of_ne (by simp [word]) _), if_neg (by simp),
        bind_of_ok (element_word (areNames type member) gap (by simp [Ends])
          (by simp [Token.kindAt, word])),
        bind_of_ok (newlines_of_ne (by simp) _), bind_of_ok (accept_mark _ _ _ _), if_pos rfl]
      rfl
    · intro inner gap type member
      rw [bind_of_ok (newlines_of_ne (by simp [word]) _),
        bind_of_ok (accept_of_ne (by simp [word]) _), if_neg (by simp),
        bind_of_ok (element_word (areNames type member) gap (by simp [Ends])
          (by simp [Token.kindAt])),
        bind_of_ok (newlines_of_ne (by simp) _), bind_of_ok (accept_of_ne (by simp) _),
        if_neg (by simp), bind_of_ok (expect_mark _ _ _ _ _)]
      rfl

end TypeExpr
end SwiftLens
