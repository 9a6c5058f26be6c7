import SwiftLens.Proofs.Outline.Reading
import SwiftLens.Proofs.Printing.Tokens

namespace SwiftLens

open SwiftLens.Parser SwiftLens.Token

def FollowedBy (kinds : List Token.Kind) (rest : List Token) : Prop :=
  ∀ kind ∈ kindAt 0 rest, kind ∈ kinds

namespace FollowedBy

variable {kinds wider : List Token.Kind} {rest : List Token}

theorem nil (kinds : List Token.Kind) : FollowedBy kinds [] := by
  intro kind found
  cases found

theorem cons {token : Token} (member : token.kind ∈ kinds) (rest : List Token) :
    FollowedBy kinds (token :: rest) := by
  rintro kind ⟨⟩
  exact member

theorem mono (follows : FollowedBy kinds rest) (within : kinds ⊆ wider) : FollowedBy wider rest :=
  fun kind found => within (follows kind found)

theorem ne (follows : FollowedBy kinds rest) {kind : Token.Kind} (other : kind ∉ kinds) :
    kindAt 0 rest ≠ some kind :=
  fun found => other (follows kind found)

end FollowedBy

theorem Token.wordAt_of_kindAt {rest : List Token} (noWord : kindAt 0 rest ≠ some .identifier) :
    wordAt 0 rest = none := by
  cases rest with
  | nil => rfl
  | cons token tail => exact if_neg fun same => noWord (congrArg some same)

namespace Parser

variable {rest : List Token} {kind : Token.Kind}

theorem acceptIf_of_kindAt {passes : Token → List Token → Bool} (other : kindAt 0 rest ≠ some kind)
    (needs : ∀ token tail, passes token tail = true → token.kind = kind) :
    acceptIf passes rest = .ok (false, rest) := by
  cases rest with
  | nil => rfl
  | cons token tail =>
    refine acceptIf_of_neg (Bool.eq_false_iff.mpr fun passed => other ?_)
    rw [← needs token tail passed]
    rfl

theorem accept_of_kindAt (other : kindAt 0 rest ≠ some kind) :
    accept kind rest = .ok (false, rest) :=
  acceptIf_of_kindAt other (by simp)

theorem acceptTouching_of_kindAt (other : kindAt 0 rest ≠ some kind) :
    acceptTouching kind rest = .ok (false, rest) :=
  acceptIf_of_kindAt other (by simp +contextual)

theorem newlines_of_kindAt (inLine : kindAt 0 rest ≠ some .newline) :
    newlines rest = .ok ((), rest) := by
  cases rest with
  | nil => rfl
  | cons token tail => exact newlines_of_ne (fun same => inLine (congrArg some same)) tail

theorem initializer?_of_kindAt (other : kindAt 0 rest ≠ some .equal) :
    initializer? rest = .ok (none, rest) := by
  rw [initializer?, bind_of_ok (accept_of_kindAt other)]
  rfl

end Parser

theorem Attribute.skipAll_of_kindAt {rest : List Token} (noMark : kindAt 0 rest ≠ some .at) :
    skipAll rest = .ok ((), rest) := by
  cases rest with
  | nil => rfl
  | cons token tail => exact skipAll_of_ne (fun same => noMark (congrArg some same)) tail

theorem Name.WellFormed.parse_ofSpelling {name : Name} (wellFormed : name.WellFormed) (gap : String)
    (rest : List Token) :
    Name.parse (ofSpelling gap name.spelling :: rest) = .ok (name, rest) := by
  simp [Name.parse, next?, bind_apply, takeIf_cons, wellFormed.ofToken?_ofSpelling, pure_apply]

section Loops

variable {ι : Type} {tokensOf : ι → String → List Token} {separator : Token} {later : String}

theorem joined_cons (item : ι) (others : List ι) (gap : String) :
    joined separator later ((item :: others).map tokensOf) gap =
      tokensOf item gap ++ others.flatMap fun other => separator :: tokensOf other later := by
  induction others generalizing item gap with
  | nil => simp [joined]
  | cons next others ih =>
    rw [List.map_cons, List.map_cons, joined, ← List.map_cons, ih, List.flatMap_cons,
      List.cons_append]

theorem length_le_length_flatMap (items : List ι) :
    items.length ≤ (items.flatMap fun item => separator :: tokensOf item later).length := by
  induction items with
  | nil => simp
  | cons item others ih =>
    simp only [List.flatMap_cons, List.length_append, List.length_cons]
    omega

/-- A loop over items with a separator between them. -/
theorem fix_joined {step : Parser (List ι) → Parser (List ι)} {items : List ι}
    {rest remains : List Token} (filled : items ≠ [])
    (more : ∀ (inner : Parser (List ι)) (gap : String), ∀ item ∈ items, ∀ next ∈ items.tail,
      ∀ behind, step inner (tokensOf item gap ++ separator :: (tokensOf next later ++ behind)) =
        (inner >>= fun others => pure (item :: others)) (tokensOf next later ++ behind))
    (last : ∀ (inner : Parser (List ι)) (gap : String), ∀ item ∈ items,
      step inner (tokensOf item gap ++ rest) = .ok ([item], remains)) (gap : String) :
    fix step (joined separator later (items.map tokensOf) gap ++ rest) = .ok (items, remains) := by
  -- Each step reads one item, so their number bounds the depth.
  have within : ∀ depth, items.length ≤ depth →
      fixWithin step depth (joined separator later (items.map tokensOf) gap ++ rest) =
        .ok (items, remains) := by
    induction items generalizing gap with
    | nil => exact absurd rfl filled
    | cons item others ih =>
      intro depth enough
      obtain _ | depth := depth
      · simp at enough
      cases others with
      | nil => exact last _ gap item List.mem_cons_self
      | cons next others =>
        have read := ih (List.cons_ne_nil _ _)
          (fun inner gap item member next found =>
            more inner gap item (List.mem_cons_of_mem _ member) next (List.mem_of_mem_tail found))
          (fun inner gap item member => last inner gap item (List.mem_cons_of_mem _ member))
          later depth (by simpa using enough)
        rw [joined_cons, List.append_assoc] at read
        rw [fixWithin_succ, joined_cons, List.append_assoc, List.flatMap_cons, List.append_assoc,
          List.cons_append, more _ gap item List.mem_cons_self next List.mem_cons_self,
          bind_of_ok read]
        rfl
  refine within _ ?_
  obtain ⟨item, others, rfl⟩ := List.exists_cons_of_ne_nil filled
  have count : others.length ≤
      (others.flatMap fun other => separator :: tokensOf other later).length :=
    length_le_length_flatMap others
  rw [joined_cons, List.length_append, List.length_append, List.length_cons]
  omega

/-- A loop over items with a separator before each. -/
theorem fix_led {step : Parser (List ι) → Parser (List ι)} {items : List ι}
    {kinds : List Token.Kind} {rest remains : List Token} (separates : separator.kind ∈ kinds)
    (ends : FollowedBy kinds rest)
    (more : ∀ (inner : Parser (List ι)), ∀ item ∈ items, ∀ after, FollowedBy kinds after →
      step inner (separator :: (tokensOf item later ++ after)) =
        (inner >>= fun others => pure (item :: others)) after)
    (last : ∀ inner : Parser (List ι), step inner rest = .ok ([], remains)) :
    fix step ((items.flatMap fun item => separator :: tokensOf item later) ++ rest) =
      .ok (items, remains) := by
  have within : ∀ depth, items.length < depth →
      fixWithin step depth ((items.flatMap fun item => separator :: tokensOf item later) ++ rest) =
        .ok (items, remains) := by
    induction items with
    | nil =>
      intro depth enough
      obtain _ | depth := depth
      · simp at enough
      · exact last _
    | cons item others ih =>
      intro depth enough
      obtain _ | depth := depth
      · simp at enough
      have read := ih (fun inner other member => more inner other (List.mem_cons_of_mem _ member))
        depth (by simpa using enough)
      have follows : FollowedBy kinds
          ((others.flatMap fun other => separator :: tokensOf other later) ++ rest) := by
        cases others with
        | nil => exact ends
        | cons next others => exact .cons separates _
      rw [fixWithin_succ, List.flatMap_cons, List.append_assoc, List.cons_append,
        more _ item List.mem_cons_self _ follows, bind_of_ok read]
      rfl
  refine within _ ?_
  have count : items.length ≤ (items.flatMap fun item => separator :: tokensOf item later).length :=
    length_le_length_flatMap items
  rw [List.length_append]
  omega

end Loops

namespace TypeExpr

def openers : List Token.Kind :=
  [.identifier, .backticked, .leftParen, .leftBracket]

def closers : List Token.Kind :=
  [.comma, .colon, .rightParen, .rightBracket, .greater, .equal]

def marks : List Token.Kind :=
  [.less, .dot, .question, .bang, .ampersand]

theorem exists_cons_cons {parts : List TypeExpr} (several : 2 ≤ parts.length) :
    ∃ first second others, parts = first :: second :: others := by
  match parts, several with
  | first :: second :: others, _ => exact ⟨first, second, others, rfl⟩

inductive Opens (rest : List Token) : List Token → Prop
  | bracket {first : Token} {tail : List Token}
      (isBracket : first.kind = .leftParen ∨ first.kind = .leftBracket)
      (noColon : kindAt 0 tail ≠ some .colon) : Opens rest (first :: tail)
  | name {first : Token} {tail : List Token}
      (isName : first.kind = .identifier ∨ first.kind = .backticked)
      (behind : tail = rest ∨ FollowedBy marks tail) : Opens rest (first :: tail)
  | constraint {gap text : String} {tail : List Token} (isKeyword : text = "some" ∨ text = "any")
      (opens : Opens rest tail) : Opens rest (word gap text :: tail)

namespace Opens

variable {rest tokens : List Token}

theorem followedBy (opens : Opens rest tokens) : FollowedBy openers tokens := by
  cases opens with
  | bracket isBracket =>
    refine .cons ?_ _
    rcases isBracket with kind | kind <;> simp [openers, kind]
  | name isName =>
    refine .cons ?_ _
    rcases isName with kind | kind <;> simp [openers, kind]
  | constraint => exact .cons (by simp [openers, word]) _

/-- Marks after the type belong to the type. -/
theorem of_marked {behind : List Token} (opens : Opens behind tokens)
    (marked : FollowedBy marks behind) : Opens rest tokens := by
  induction opens with
  | bracket isBracket noColon => exact .bracket isBracket noColon
  | name isName follows =>
    refine .name isName (.inr ?_)
    rcases follows with rfl | found
    · exact marked
    · exact found
  | constraint isKeyword _ ih => exact .constraint isKeyword ih

/-- The token behind a name, be it `rest` or a mark, is not of a kind that neither of them has. -/
theorem kindAt_behind {tail : List Token} (behind : tail = rest ∨ FollowedBy marks tail)
    {kind : Token.Kind} (other : kindAt 0 rest ≠ some kind) (noMark : kind ∉ marks) :
    kindAt 0 tail ≠ some kind := by
  rcases behind with rfl | found
  · exact other
  · exact found.ne noMark

theorem kindAt_one (opens : Opens rest tokens) (noColon : kindAt 0 rest ≠ some .colon) :
    kindAt 1 tokens ≠ some .colon := by
  cases opens with
  | bracket isBracket behind => exact behind
  | name isName behind => exact kindAt_behind behind noColon (by decide)
  | constraint isKeyword opens => exact opens.followedBy.ne (by decide)

theorem skipPassing (opens : Opens rest tokens) (ends : FollowedBy closers rest) :
    skipPassing tokens = .ok ((), tokens) := by
  cases opens with
  | @bracket first tail isBracket =>
    have noWord : first.kind ≠ .identifier := by rcases isBracket with kind | kind <;> simp [kind]
    simp [TypeExpr.skipPassing, dropPassing, noWord]
  | @name first tail isName behind =>
    have noType : startsPassedType tail = false := by
      have noWord : kindAt 0 tail ≠ some .identifier :=
        kindAt_behind behind (ends.ne (by decide)) (by decide)
      have noParen : kindAt 0 tail ≠ some .leftParen :=
        kindAt_behind behind (ends.ne (by decide)) (by decide)
      have noBracket : kindAt 0 tail ≠ some .leftBracket :=
        kindAt_behind behind (ends.ne (by decide)) (by decide)
      unfold startsPassedType
      split <;> simp_all
    simp [TypeExpr.skipPassing, dropPassing, noType]
  | constraint isKeyword opens =>
    rcases isKeyword with rfl | rfl <;>
      simp [TypeExpr.skipPassing, dropPassing, word, passingKeywords]

/-- No label stands before a type that no colon follows. -/
theorem label? (opens : Opens rest tokens) (noColon : kindAt 0 rest ≠ some .colon)
    (noWord : kindAt 0 rest ≠ some .identifier) : label? tokens = .ok (none, tokens) := by
  cases opens with
  | @bracket first tail isBracket =>
    rcases isBracket with kind | kind <;> simp [TypeExpr.label?, Name.ofToken?, kind]
  | @name first tail isName behind =>
    have apart := kindAt_behind behind noColon (by decide)
    -- A colon may stand behind the next token, as in a key such as `[(A, B): C]`, but then that
    -- token is no word.
    have apartWord := kindAt_behind behind noWord (by decide)
    simp [TypeExpr.label?, apart, wordAt_of_kindAt apartWord]
  | constraint isKeyword opens =>
    have apart : kindAt 0 _ ≠ some .colon := opens.followedBy.ne (by decide)
    have apartNext := opens.kindAt_one noColon
    simp [TypeExpr.label?, apart, apartNext]

end Opens

theorem opens_named {component : TypeComponent TypeExpr} {others : TypePath} (gap : String)
    (rest : List Token) : Opens rest ((named (component :: others)).tokens gap ++ rest) := by
  obtain ⟨name, arguments⟩ := component
  have isName := kind_ofSpelling gap name.spelling
  cases arguments with
  | nil =>
    cases others with
    | nil => exact .name isName (.inl rfl)
    | cons next others => exact .name isName (.inr (.cons (by simp [marks]) _))
  | cons argument more =>
    cases others with
    | nil => exact .name isName (.inr (.cons (by simp [marks]) _))
    | cons next others => exact .name isName (.inr (.cons (by simp [marks]) _))

theorem followedBy_element {element : TupleElement TypeExpr} {gap : String} {rest : List Token}
    (opens : Opens rest (element.type.tokens gap ++ rest)) :
    FollowedBy openers (elementTokens element gap ++ rest) := by
  obtain ⟨label, type⟩ := element
  cases label with
  | none =>
    rw [elementTokens]
    exact opens.followedBy
  | some label =>
    rw [elementTokens]
    refine .cons ?_ _
    rcases kind_ofSpelling gap label with kind | kind <;> simp [openers, kind]

/-- No colon follows an opening parenthesis. -/
theorem kindAt_elements {elements : TupleType}
    (opens : ∀ element ∈ elements, ∀ gap rest, Opens rest (element.type.tokens gap ++ rest))
    (gap : String) (rest : List Token) :
    kindAt 0 (joined ⟨.comma, "", ","⟩ " " (elementTokensOf elements) gap ++
      ⟨.rightParen, "", ")"⟩ :: rest) ≠ some .colon := by
  rw [elementTokensOf_eq_map]
  cases elements with
  | nil => simp [joined, kindAt]
  | cons element others =>
    rw [joined_cons, List.append_assoc]
    exact (followedBy_element (opens element List.mem_cons_self gap _)).ne (by decide)

/-- Every printed type begins as a type does. -/
theorem Printable.opens {type : TypeExpr} (printable : type.Printable) (gap : String)
    (rest : List Token) : Opens rest (type.tokens gap ++ rest) := by
  induction printable generalizing gap rest with
  | named dotted =>
    obtain ⟨component, others, rfl⟩ := List.exists_cons_of_ne_nil dotted.filled
    exact opens_named gap rest
  | optional takesMark printable ih =>
    rw [tokens, List.append_assoc]
    exact (ih gap _).of_marked (.cons (by simp [marks]) _)
  | implicitlyUnwrapped takesMark printable ih =>
    rw [tokens, List.append_assoc]
    exact (ih gap _).of_marked (.cons (by simp [marks]) _)
  | array printable ih =>
    rw [tokens, List.cons_append, List.append_assoc]
    exact .bracket (.inr rfl) ((ih "" _).followedBy.ne (by decide))
  | dictionary printableKey printableValue ihKey ihValue =>
    rw [tokens, List.cons_append, List.append_assoc]
    exact .bracket (.inr rfl) ((ihKey "" _).followedBy.ne (by decide))
  | tuple noParentheses labels types ih =>
    rw [tokens, List.cons_append, List.append_assoc]
    exact .bracket (.inl rfl) (kindAt_elements ih "" _)
  | function labels types printable ih ihResult =>
    rw [tokens, List.cons_append, List.append_assoc]
    exact .bracket (.inl rfl) (kindAt_elements ih "" _)
  | metatype takesMark printable ih =>
    rw [tokens, List.append_assoc]
    exact (ih gap _).of_marked (.cons (by simp [marks]) _)
  | @composition parts several areParts types ih =>
    obtain ⟨first, second, others, rfl⟩ := exists_cons_cons several
    rw [tokens, tokensOf, tokensOf, joined, List.append_assoc]
    exact (ih first List.mem_cons_self gap _).of_marked (.cons (by simp [marks]) _)
  | someOf isPart printable ih =>
    rw [tokens, List.cons_append]
    exact .constraint (.inl rfl) (ih " " rest)
  | anyOf isPart printable ih =>
    rw [tokens, List.cons_append]
    exact .constraint (.inr rfl) (ih " " rest)

end TypeExpr

end SwiftLens
