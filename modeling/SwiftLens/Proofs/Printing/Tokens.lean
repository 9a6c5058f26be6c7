import SwiftLens.Proofs.Lens.Lines
import SwiftLens.Proofs.Trees.WellFormed

namespace SwiftLens

namespace TypeExpr

/-- A mark such as `?` after the text of the type applies to the whole type. -/
def takesMark : TypeExpr → Bool
  | function .. => false
  | composition _ => false
  | someOf _ => false
  | anyOf _ => false
  | _ => true

def isPart : TypeExpr → Bool
  | function .. => false
  | composition _ => false
  | _ => true

end TypeExpr

def TupleElement.Labelled {τ : Type} (element : TupleElement τ) : Prop :=
  ∀ label ∈ element.label, ∃ name : Name, name.WellFormed ∧ name.spelling = label

/-- Names and labels are spelled as such, and no operand would need parentheses. -/
inductive TypeExpr.Printable : TypeExpr → Prop
  | named {path : TypePath} (dotted : path.Dotted)
      (noConstraint : ∀ component ∈ path.head?,
        component.name ≠ .plain "some" ∧ component.name ≠ .plain "any")
      (arguments : ∀ component ∈ path, ∀ argument ∈ component.arguments, Printable argument) :
      Printable (.named path)
  | optional {wrapped : TypeExpr} (takesMark : wrapped.takesMark = true)
      (printable : Printable wrapped) : Printable (.optional wrapped)
  | implicitlyUnwrapped {wrapped : TypeExpr} (takesMark : wrapped.takesMark = true)
      (printable : Printable wrapped) : Printable (.implicitlyUnwrapped wrapped)
  | array {element : TypeExpr} (printable : Printable element) : Printable (.array element)
  | dictionary {key value : TypeExpr} (printableKey : Printable key)
      (printableValue : Printable value) : Printable (.dictionary key value)
  | tuple {elements : TupleType} (noParentheses : ∀ type, elements ≠ [⟨none, type⟩])
      (labels : ∀ element ∈ elements, element.Labelled)
      (types : ∀ element ∈ elements, Printable element.type) : Printable (.tuple elements)
  | function {parameters : TupleType} {result : TypeExpr} {isAsync throws : Bool}
      (labels : ∀ parameter ∈ parameters, parameter.Labelled)
      (types : ∀ parameter ∈ parameters, Printable parameter.type)
      (printable : Printable result) : Printable (.function parameters result isAsync throws)
  | metatype {base : TypeExpr} {kind : Metatype} (takesMark : base.takesMark = true)
      (printable : Printable base) : Printable (.metatype base kind)
  | composition {parts : List TypeExpr} (joined : 2 ≤ parts.length)
      (areParts : ∀ part ∈ parts, part.isPart = true)
      (types : ∀ part ∈ parts, Printable part) : Printable (.composition parts)
  | someOf {constraint : TypeExpr} (isPart : constraint.isPart = true)
      (printable : Printable constraint) : Printable (.someOf constraint)
  | anyOf {constraint : TypeExpr} (isPart : constraint.isPart = true)
      (printable : Printable constraint) : Printable (.anyOf constraint)

namespace Token

def ofSpelling (gap spelling : String) : Token :=
  ⟨if spelling.toList.head? = some '\x60' then .backticked else .identifier, gap, spelling⟩

def joined (separator : Token) (later : String) :
    List (String → List Token) → String → List Token
  | [], _ => []
  | [item], gap => item gap
  | item :: next :: others, gap =>
    item gap ++ separator :: joined separator later (next :: others) later

end Token

open SwiftLens.Token

namespace TypeExpr

def effectTokens (isAsync throws : Bool) : List Token :=
  (if isAsync then [word " " "async"] else []) ++ if throws then [word " " "throws"] else []

mutual

def tokens : TypeExpr → String → List Token
  | named path, gap => joined ⟨.dot, "", "."⟩ "" (componentTokensOf path) gap
  | optional wrapped, gap => tokens wrapped gap ++ [⟨.question, "", "?"⟩]
  | implicitlyUnwrapped wrapped, gap => tokens wrapped gap ++ [⟨.bang, "", "!"⟩]
  | array element, gap =>
    ⟨.leftBracket, gap, "["⟩ :: (tokens element "" ++ [⟨.rightBracket, "", "]"⟩])
  | dictionary key value, gap =>
    ⟨.leftBracket, gap, "["⟩ :: (tokens key "" ++ ⟨.colon, "", ":"⟩ :: (tokens value " " ++
      [⟨.rightBracket, "", "]"⟩]))
  | tuple elements, gap =>
    ⟨.leftParen, gap, "("⟩ :: (joined ⟨.comma, "", ","⟩ " " (elementTokensOf elements) "" ++
      [⟨.rightParen, "", ")"⟩])
  | function parameters result isAsync throws, gap =>
    ⟨.leftParen, gap, "("⟩ :: (joined ⟨.comma, "", ","⟩ " " (elementTokensOf parameters) "" ++
      ⟨.rightParen, "", ")"⟩ :: (effectTokens isAsync throws ++
        ⟨.arrow, " ", "->"⟩ :: tokens result " "))
  | metatype base kind, gap => tokens base gap ++ [⟨.dot, "", "."⟩, word "" kind.keyword]
  | composition parts, gap => joined ⟨.ampersand, " ", "&"⟩ " " (tokensOf parts) gap
  | someOf constraint, gap => word gap "some" :: tokens constraint " "
  | anyOf constraint, gap => word gap "any" :: tokens constraint " "

def tokensOf : List TypeExpr → List (String → List Token)
  | [] => []
  | type :: rest => tokens type :: tokensOf rest

def componentTokens : TypeComponent TypeExpr → String → List Token
  | ⟨name, []⟩, gap => [ofSpelling gap name.spelling]
  | ⟨name, argument :: others⟩, gap =>
    ofSpelling gap name.spelling :: ⟨.less, "", "<"⟩ ::
      (joined ⟨.comma, "", ","⟩ " " (tokens argument :: tokensOf others) "" ++
        [⟨.greater, "", ">"⟩])

def componentTokensOf : List (TypeComponent TypeExpr) → List (String → List Token)
  | [] => []
  | component :: rest => componentTokens component :: componentTokensOf rest

def elementTokens : TupleElement TypeExpr → String → List Token
  | ⟨some label, type⟩, gap => ofSpelling gap label :: ⟨.colon, "", ":"⟩ :: tokens type " "
  | ⟨none, type⟩, gap => tokens type gap

def elementTokensOf : List (TupleElement TypeExpr) → List (String → List Token)
  | [] => []
  | element :: rest => elementTokens element :: elementTokensOf rest

end

theorem tokensOf_eq_map (types : List TypeExpr) : tokensOf types = types.map tokens := by
  induction types with
  | nil => rfl
  | cons type rest ih => simp [tokensOf, ih]

theorem componentTokensOf_eq_map (path : TypePath) :
    componentTokensOf path = path.map componentTokens := by
  induction path with
  | nil => rfl
  | cons component rest ih => simp [componentTokensOf, ih]

theorem elementTokensOf_eq_map (elements : TupleType) :
    elementTokensOf elements = elements.map elementTokens := by
  induction elements with
  | nil => rfl
  | cons element rest ih => simp [elementTokensOf, ih]

end TypeExpr

namespace Token

structure IsMark (token : Token) : Prop where
  spaces : token.gap.toList.all (· == ' ') = true
  legible : Legible token.kind token.text
  noWord : token.kind ≠ .identifier

theorem Written.word {gap text : String} (spaces : gap.toList.all (· == ' ') = true)
    (isWord : Lexeme.isWord text = true) {rest : List Token} (written : Written rest)
    (off : StandsOff rest) : Written (word gap text :: rest) :=
  ⟨spaces, isWord, fun _ => off, written⟩

theorem written_nil : Written [] := trivial

theorem Written.mark {token : Token} (isMark : token.IsMark) {rest : List Token}
    (written : Written rest) : Written (token :: rest) :=
  ⟨isMark.spaces, isMark.legible, fun isWord => absurd isWord isMark.noWord, written⟩

theorem IsMark.written {token : Token} (isMark : token.IsMark) : Written [token] :=
  .mark isMark written_nil

theorem IsMark.standsOff {token : Token} (isMark : token.IsMark) (rest : List Token) :
    StandsOff (token :: rest) :=
  standsOff_cons (.inr isMark.noWord)

/-- The item spells the text after any gap, and its tokens can be read back. -/
structure Renders (item : String → List Token) (text : String) : Prop where
  source : ∀ gap, sourceOf (item gap) = gap ++ text
  written : ∀ gap, gap.toList.all (· == ' ') = true → Written (item gap)
  begins : ∀ gap, ∃ first rest, item gap = first :: rest ∧ first.gap = gap
  length : ∀ gap, (item gap).length = (item "").length

namespace Renders

variable {item other : String → List Token} {text spelling : String}

theorem of_eq (renders : Renders other spelling) (same : ∀ gap, item gap = other gap)
    (spelled : spelling = text) : Renders item text := by
  obtain rfl : item = other := funext same
  rwa [spelled] at renders

theorem cons {kind : Kind} (legible : Legible kind text) {back : List Token}
    (written : Written back) (off : kind = .identifier → StandsOff back) :
    Renders (fun gap => ⟨kind, gap, text⟩ :: back) (text ++ sourceOf back) where
  source gap := by rw [sourceOf, source_mk, String.append_assoc]
  written gap spaces := ⟨spaces, legible, off, written⟩
  begins gap := ⟨_, _, rfl, rfl⟩
  length gap := rfl

theorem append (renders : Renders item text) {back : List Token} (written : Written back)
    (off : StandsOff back) : Renders (fun gap => item gap ++ back) (text ++ sourceOf back) where
  source gap := by rw [sourceOf_append, renders.source, String.append_assoc]
  written gap spaces := (renders.written gap spaces).append written off
  begins gap := by
    obtain ⟨first, rest, shape, stands⟩ := renders.begins gap
    exact ⟨first, rest ++ back, by rw [shape, List.cons_append], stands⟩
  length gap := by rw [List.length_append, List.length_append, renders.length]

theorem standsOff (renders : Renders item text) : StandsOff (item " ") := by
  obtain ⟨first, rest, shape, stands⟩ := renders.begins " "
  rw [shape]
  exact standsOff_cons (.inl (by simp [stands]))

end Renders

section Joined

variable {ι : Type} {tokensOf : ι → String → List Token} {textOf : ι → String} {separator : Token}
  {later : String} {items : List ι}
  (renders : ∀ item ∈ items, Renders (tokensOf item) (textOf item))

include renders

theorem sourceOf_joined (gap : String) (filled : items ≠ [] ∨ gap = "") :
    sourceOf (joined separator later (items.map tokensOf) gap) =
      gap ++ (separator.source ++ later).intercalate (items.map textOf) := by
  induction items generalizing gap with
  | nil =>
    obtain rfl : gap = "" := filled.resolve_left (not_not_intro rfl)
    rfl
  | cons item others ih =>
    obtain ⟨first, more⟩ := List.forall_mem_cons.mp renders
    cases others with
    | nil => simp [joined, first.source]
    | cons next others =>
      have behind := ih more later (.inl (List.cons_ne_nil _ _))
      simp only [List.map_cons] at behind ⊢
      rw [joined, sourceOf_append, sourceOf, behind, first.source, String.intercalate_cons_cons]
      simp only [String.append_assoc]

theorem written_joined (isMark : separator.IsMark)
    (laterSpaces : later.toList.all (· == ' ') = true) {gap : String}
    (spaces : gap.toList.all (· == ' ') = true) :
    Written (joined separator later (items.map tokensOf) gap) := by
  induction items generalizing gap with
  | nil => trivial
  | cons item others ih =>
    obtain ⟨first, more⟩ := List.forall_mem_cons.mp renders
    cases others with
    | nil => exact first.written gap spaces
    | cons next others =>
      exact (first.written gap spaces).append (.mark isMark (ih more laterSpaces))
        (isMark.standsOff _)

theorem length_joined (gap : String) :
    (joined separator later (items.map tokensOf) gap).length =
      (joined separator later (items.map tokensOf) "").length := by
  match items with
  | [] => rfl
  | [item] =>
    obtain ⟨first, -⟩ := List.forall_mem_cons.mp renders
    exact first.length gap
  | item :: next :: others =>
    obtain ⟨first, -⟩ := List.forall_mem_cons.mp renders
    simp [joined, first.length gap]

theorem length_le_joined {item : ι} (member : item ∈ items) (gap : String) :
    (tokensOf item "").length ≤ (joined separator later (items.map tokensOf) gap).length := by
  induction items generalizing gap with
  | nil => simp at member
  | cons head others ih =>
    obtain ⟨first, more⟩ := List.forall_mem_cons.mp renders
    cases others with
    | nil =>
      obtain rfl := List.mem_singleton.mp member
      exact (first.length gap).ge
    | cons next others =>
      simp only [List.map_cons, joined, List.length_append, List.length_cons]
      rcases List.mem_cons.mp member with rfl | behind
      · rw [first.length gap]
        omega
      · have within := ih more behind later
        simp only [List.map_cons] at within
        omega

theorem Renders.joined (isMark : separator.IsMark)
    (laterSpaces : later.toList.all (· == ' ') = true) (filled : items ≠ []) :
    Renders (joined separator later (items.map tokensOf))
      ((separator.source ++ later).intercalate (items.map textOf)) where
  source gap := sourceOf_joined renders gap (.inl filled)
  written gap spaces := written_joined renders isMark laterSpaces spaces
  begins gap := by
    match items with
    | [] => exact absurd rfl filled
    | [item] =>
      obtain ⟨first, -⟩ := List.forall_mem_cons.mp renders
      exact first.begins gap
    | item :: next :: others =>
      obtain ⟨first, -⟩ := List.forall_mem_cons.mp renders
      obtain ⟨head, rest, shape, stands⟩ := first.begins gap
      exact ⟨head, _, by rw [List.map_cons, List.map_cons, Token.joined, shape, List.cons_append],
        stands⟩
  length gap := length_joined renders gap

end Joined

end Token

theorem Token.ofSpelling_of_isWord {text : String} (isWord : Lexeme.isWord text = true)
    (gap : String) : ofSpelling gap text = word gap text := by
  have noTick : text.toList.head? ≠ some '\x60' := by
    unfold Lexeme.isWord at isWord
    split at isWord
    · cases isWord
    · next first rest chars =>
      rw [Bool.and_eq_true] at isWord
      have apart : first ≠ '\x60' :=
        Lexeme.ne_of_startsIdentifier isWord.1 (by decide) (by decide)
      simpa [chars] using apart
  rw [ofSpelling, if_neg noTick, word]

theorem Token.ofSpelling_inBackticks (gap text : String) :
    ofSpelling gap (inBackticks text) = ⟨.backticked, gap, inBackticks text⟩ := by
  simp [ofSpelling, inBackticks]

theorem Token.kind_ofSpelling (gap spelling : String) :
    (ofSpelling gap spelling).kind = .identifier ∨
      (ofSpelling gap spelling).kind = .backticked := by
  unfold ofSpelling
  split <;> simp

namespace Name

theorem ofBackticked_inBackticks (text : String) :
    ofBackticked (inBackticks text) = quoted text := by
  simp [ofBackticked, inBackticks]

namespace WellFormed

variable {name : Name} (wellFormed : name.WellFormed) (gap : String)

include wellFormed

theorem legible : Legible (ofSpelling gap name.spelling).kind name.spelling := by
  cases name with
  | plain text =>
    rw [spelling, ofSpelling_of_isWord wellFormed.isWord]
    exact wellFormed.isWord
  | quoted text =>
    obtain ⟨noTick, noFeed⟩ := wellFormed
    have inside : text.toList.all Lexeme.continuesBackticked = true := by
      rw [List.all_eq_true]
      intro c member
      have apart : c ≠ '\x60' ∧ c ≠ '\n' :=
        ⟨ne_of_mem_of_not_mem member noTick, ne_of_mem_of_not_mem member noFeed⟩
      simp [Lexeme.continuesBackticked, apart]
    have spelled : (quoted text).spelling = inBackticks text := rfl
    rw [spelled, ofSpelling_inBackticks]
    exact ⟨text, rfl, inside⟩
  | wildcard =>
    have isWord : Lexeme.isWord "_" = true := by simp [Lexeme.isWord, Lexeme.startsIdentifier]
    exact isWord

theorem ofToken?_ofSpelling : ofToken? (ofSpelling gap name.spelling) = some name := by
  cases name with
  | plain text =>
    rw [spelling, ofSpelling_of_isWord wellFormed.isWord]
    simp [ofToken?, word, ofWord, wellFormed.noWildcard]
  | quoted text =>
    have spelled : (quoted text).spelling = inBackticks text := rfl
    rw [spelled, ofSpelling_inBackticks, ofToken?, ofBackticked_inBackticks]
  | wildcard => rfl

/-- The token of a name is no other word. -/
theorem isWord_of_ne {text : String} (noWildcard : text ≠ "_") (other : name ≠ .plain text) :
    (ofSpelling gap name.spelling).isWord text = false := by
  rw [Bool.eq_false_iff]
  intro isWord
  obtain ⟨kind, same⟩ : (ofSpelling gap name.spelling).kind = .identifier ∧
      (ofSpelling gap name.spelling).text = text := by simpa [Token.isWord] using isWord
  have spelled := wellFormed.ofToken?_ofSpelling gap
  rw [ofToken?, kind, same] at spelled
  simp only [ofWord, noWildcard, if_false, Option.some.injEq] at spelled
  exact other spelled.symm

omit gap in
theorem renders {back : List Token} (written : Written back) (off : StandsOff back) :
    Renders (fun gap => ofSpelling gap name.spelling :: back) (name.spelling ++ sourceOf back) :=
  .cons (wellFormed.legible "") written fun _ => off

end WellFormed
end Name

namespace TypeExpr

theorem isMark_comma : IsMark ⟨.comma, "", ","⟩ := ⟨rfl, rfl, by simp⟩

theorem isMark_colon : IsMark ⟨.colon, "", ":"⟩ := ⟨rfl, rfl, by simp⟩

theorem isMark_dot : IsMark ⟨.dot, "", "."⟩ := ⟨rfl, rfl, by simp⟩

theorem legible_leftParen : Legible .leftParen "(" := rfl

theorem legible_leftBracket : Legible .leftBracket "[" := rfl

theorem isMark_rightParen : IsMark ⟨.rightParen, "", ")"⟩ := ⟨rfl, rfl, by simp⟩

theorem isMark_rightBracket : IsMark ⟨.rightBracket, "", "]"⟩ := ⟨rfl, rfl, by simp⟩

theorem renders_component {name : Name} (wellFormed : name.WellFormed) {types : List TypeExpr}
    (renders : ∀ type ∈ types, Renders type.tokens type.text) :
    Renders (componentTokens ⟨name, types⟩) (componentText ⟨name, types⟩) := by
  cases types with
  | nil =>
    exact (wellFormed.renders written_nil standsOff_nil).of_eq
      (fun gap => by simp [componentTokens]) (by simp [componentText, sourceOf])
  | cons argument others =>
    have opening : IsMark ⟨.less, "", "<"⟩ := ⟨rfl, rfl, by simp⟩
    have closing : IsMark ⟨.greater, "", ">"⟩ := ⟨rfl, rfl, by simp⟩
    have listed : Written (joined ⟨.comma, "", ","⟩ " " ((argument :: others).map tokens) "") :=
      written_joined renders isMark_comma rfl rfl
    refine (wellFormed.renders (.mark opening (listed.append closing.written (closing.standsOff _)))
      (opening.standsOff _)).of_eq (fun gap => by simp [componentTokens, tokensOf_eq_map]) ?_
    rw [sourceOf, sourceOf_append, sourceOf_joined renders "" (.inr rfl), ← String.toList_inj]
    simp [componentText, source, texts_eq_map, sourceOf]

theorem renders_element {element : TupleElement TypeExpr} (labelled : element.Labelled)
    (renders : Renders element.type.tokens element.type.text) :
    Renders (elementTokens element) (elementText element) := by
  obtain ⟨label, type⟩ := element
  cases label with
  | none => exact renders.of_eq (fun gap => by simp [elementTokens]) (by simp [elementText])
  | some label =>
    obtain ⟨name, wellFormed, rfl⟩ := labelled label rfl
    refine (wellFormed.renders (.mark isMark_colon (renders.written " " rfl))
      (isMark_colon.standsOff _)).of_eq (fun gap => by simp [elementTokens]) ?_
    rw [sourceOf, renders.source, ← String.toList_inj]
    simp [elementText, source]

section Elements

variable {elements : TupleType} (labels : ∀ element ∈ elements, element.Labelled)
  (renders : ∀ element ∈ elements, Renders element.type.tokens element.type.text)

include labels renders

theorem renders_elements :
    ∀ element ∈ elements, Renders (elementTokens element) (elementText element) :=
  fun element member => renders_element (labels element member) (renders element member)

theorem written_elements {back : List Token} (written : Written back) :
    Written (joined ⟨.comma, "", ","⟩ " " (elementTokensOf elements) "" ++
      ⟨.rightParen, "", ")"⟩ :: back) := by
  rw [elementTokensOf_eq_map]
  have listed : Written (joined ⟨.comma, "", ","⟩ " " (elements.map elementTokens) "") :=
    written_joined (renders_elements labels renders) isMark_comma rfl rfl
  exact listed.append (.mark isMark_rightParen written) (isMark_rightParen.standsOff _)

theorem sourceOf_elements (back : List Token) :
    sourceOf (joined ⟨.comma, "", ","⟩ " " (elementTokensOf elements) "" ++
      ⟨.rightParen, "", ")"⟩ :: back) =
        ", ".intercalate (elementTexts elements) ++ ")" ++ sourceOf back := by
  rw [elementTokensOf_eq_map, sourceOf_append,
    sourceOf_joined (renders_elements labels renders) "" (.inr rfl), elementTexts_eq_map,
    ← String.toList_inj]
  simp [sourceOf, source]

end Elements

theorem sourceOf_effects (isAsync throws : Bool) : sourceOf (effectTokens isAsync throws) =
    (if isAsync then " async" else "") ++ if throws then " throws" else "" := by
  cases isAsync <;> cases throws <;> simp [effectTokens, sourceOf, source, word]

theorem written_effects (isAsync throws : Bool) : Written (effectTokens isAsync throws) := by
  have async : Written [word " " "async"] := .word rfl (by decide) written_nil standsOff_nil
  have throwing : Written [word " " "throws"] := .word rfl (by decide) written_nil standsOff_nil
  cases isAsync <;> cases throws <;> simp only [effectTokens]
  · trivial
  · exact throwing
  · exact async
  · exact async.append throwing (standsOff_cons (.inl (by simp [word])))

theorem renders_constraint {keyword : String} (isWord : Lexeme.isWord keyword = true)
    {constraint : TypeExpr} (renders : Renders constraint.tokens constraint.text) :
    Renders (fun gap => word gap keyword :: constraint.tokens " ")
      (keyword ++ " " ++ constraint.text) := by
  have legible : Legible .identifier keyword := isWord
  refine (Renders.cons legible (renders.written " " rfl) fun _ => renders.standsOff).of_eq
    (fun gap => by rw [word]) ?_
  rw [renders.source, String.append_assoc]

/-- The text of a printable type consists of its tokens. -/
theorem Printable.renders {type : TypeExpr} (printable : type.Printable) :
    Renders type.tokens type.text := by
  induction printable with
  | named dotted noConstraint arguments ih =>
    have components := fun component member =>
      renders_component (dotted.names component member) (ih component member)
    refine (Renders.joined components isMark_dot rfl dotted.filled).of_eq
      (fun gap => by rw [tokens, componentTokensOf_eq_map]) ?_
    rw [text, componentTexts_eq_map]
    rfl
  | optional takesMark printable ih =>
    have isMark : IsMark ⟨.question, "", "?"⟩ := ⟨rfl, rfl, by simp⟩
    exact (ih.append isMark.written (isMark.standsOff _)).of_eq
      (fun gap => by rw [tokens]) (by simp [text, sourceOf, source])
  | implicitlyUnwrapped takesMark printable ih =>
    have isMark : IsMark ⟨.bang, "", "!"⟩ := ⟨rfl, rfl, by simp⟩
    exact (ih.append isMark.written (isMark.standsOff _)).of_eq
      (fun gap => by rw [tokens]) (by simp [text, sourceOf, source])
  | array printable ih =>
    have written := (ih.written "" rfl).append isMark_rightBracket.written
      (isMark_rightBracket.standsOff _)
    refine (Renders.cons legible_leftBracket written (by simp)).of_eq (fun gap => by rw [tokens]) ?_
    rw [sourceOf_append, ih.source, ← String.toList_inj]
    simp [text, sourceOf, source]
  | dictionary printableKey printableValue ihKey ihValue =>
    have writtenValue := (ihValue.written " " rfl).append isMark_rightBracket.written
      (isMark_rightBracket.standsOff _)
    have written := (ihKey.written "" rfl).append (.mark isMark_colon writtenValue)
      (isMark_colon.standsOff _)
    refine (Renders.cons legible_leftBracket written (by simp)).of_eq (fun gap => by rw [tokens]) ?_
    rw [sourceOf_append, ihKey.source, sourceOf, sourceOf_append, ihValue.source,
      ← String.toList_inj]
    simp [text, sourceOf, source]
  | tuple noParentheses labels types ih =>
    have written := written_elements labels ih written_nil
    refine (Renders.cons legible_leftParen written (by simp)).of_eq (fun gap => by rw [tokens]) ?_
    rw [sourceOf_elements labels ih, ← String.toList_inj]
    simp [text, sourceOf]
  | @function parameters result isAsync throws labels types printable ih ihResult =>
    have arrow : IsMark ⟨.arrow, " ", "->"⟩ := ⟨rfl, rfl, by simp⟩
    have behind := (written_effects isAsync throws).append
      (.mark arrow (ihResult.written " " rfl)) (arrow.standsOff _)
    have written := written_elements labels ih behind
    refine (Renders.cons legible_leftParen written (by simp)).of_eq (fun gap => by rw [tokens]) ?_
    rw [sourceOf_elements labels ih, sourceOf_append, sourceOf_effects, sourceOf, ihResult.source,
      ← String.toList_inj]
    simp [text, source]
  | @metatype base kind takesMark printable ih =>
    have isWord : Lexeme.isWord kind.keyword = true := by cases kind <;> decide
    have keyword : Written [word "" kind.keyword] := .word rfl isWord written_nil standsOff_nil
    refine (ih.append (.mark isMark_dot keyword) (isMark_dot.standsOff _)).of_eq
      (fun gap => by rw [tokens]) ?_
    rw [← String.toList_inj]
    simp [text, sourceOf, source, word]
  | composition several areParts types ih =>
    have isMark : IsMark ⟨.ampersand, " ", "&"⟩ := ⟨rfl, rfl, by simp⟩
    refine (Renders.joined ih isMark rfl (List.ne_nil_of_length_pos (by omega))).of_eq
      (fun gap => by rw [tokens, tokensOf_eq_map]) ?_
    rw [text, texts_eq_map]
    rfl
  | someOf isPart printable ih =>
    have isWord : Lexeme.isWord "some" = true := by decide
    refine (renders_constraint isWord ih).of_eq (fun gap => by rw [tokens]) ?_
    rw [text, ← String.toList_inj]
    simp
  | anyOf isPart printable ih =>
    have isWord : Lexeme.isWord "any" = true := by decide
    refine (renders_constraint isWord ih).of_eq (fun gap => by rw [tokens]) ?_
    rw [text, ← String.toList_inj]
    simp

end TypeExpr

end SwiftLens
