import SwiftLens.Proofs.Printing.Levels

namespace SwiftLens

open SwiftLens.Parser SwiftLens.Token

namespace TypeExpr

/-- The type is read at every depth of recursion that its number of tokens allows. -/
def ReadInDepth (type : TypeExpr) : Prop :=
  ∀ depth, (type.tokens "").length ≤ depth → Reads (fixWithin step depth) type

theorem ReadInDepth.readBy {type : TypeExpr} (reads : ReadInDepth type) {depth : Nat}
    (enough : (type.tokens "").length < depth) : ReadBy (fixWithin step depth) type := by
  obtain _ | depth := depth
  · simp at enough
  · exact (reads depth (Nat.le_of_lt_succ enough)).whole

theorem length_argument_lt {types : List TypeExpr} (printable : ∀ type ∈ types, type.Printable)
    (name : Name) {argument : TypeExpr} (member : argument ∈ types) :
    (argument.tokens "").length < (componentTokens ⟨name, types⟩ "").length := by
  have within : (argument.tokens "").length ≤
      (joined ⟨.comma, "", ","⟩ " " (types.map tokens) "").length :=
    length_le_joined (fun type member => (printable type member).renders) member ""
  cases types with
  | nil => simp at member
  | cons first others =>
    rw [componentTokens, tokensOf_eq_map, ← List.map_cons, List.length_cons, List.length_cons,
      List.length_append]
    omega

theorem length_component_le {path : TypePath} (dotted : path.Dotted)
    (arguments : ∀ component ∈ path, ∀ argument ∈ component.arguments, Printable argument)
    {component : TypeComponent TypeExpr} (member : component ∈ path) :
    (componentTokens component "").length ≤ ((named path).tokens "").length := by
  have renders := fun component member => renders_component (dotted.names component member)
    fun argument nested => (arguments component member argument nested).renders
  rw [tokens, componentTokensOf_eq_map]
  exact length_le_joined renders member ""

theorem length_element_le {elements : TupleType} (labels : ∀ element ∈ elements, element.Labelled)
    (types : ∀ element ∈ elements, element.type.Printable) {element : TupleElement TypeExpr}
    (member : element ∈ elements) :
    (element.type.tokens "").length ≤
      (joined ⟨.comma, "", ","⟩ " " (elementTokensOf elements) "").length := by
  have renders := renders_elements labels fun element member => (types element member).renders
  have alike := (types element member).renders.length " "
  rw [elementTokensOf_eq_map]
  refine le_trans ?_ (length_le_joined renders member "")
  obtain ⟨label, type⟩ := element
  cases label with
  | none => rw [elementTokens]
  | some label =>
    rw [elementTokens, List.length_cons, List.length_cons, alike]
    exact Nat.le_add_right _ 2

theorem elementReadBy {elements : TupleType} (labels : ∀ element ∈ elements, element.Labelled)
    (types : ∀ element ∈ elements, element.type.Printable)
    (reads : ∀ element ∈ elements, ReadInDepth element.type) {depth : Nat}
    (enough : (joined ⟨.comma, "", ","⟩ " " (elementTokensOf elements) "").length < depth) :
    ∀ element ∈ elements, ElementReadBy (fixWithin step depth) element := by
  intro element member
  have within := length_element_le labels types member
  exact ⟨labels element member, types element member, (reads element member).readBy (by omega)⟩

/-- Printed types are read back. -/
theorem Printable.readInDepth {type : TypeExpr} (printable : type.Printable) :
    ReadInDepth type := by
  -- Operands of marks are read at the same depth; what stands in brackets has fewer tokens and is
  -- read one level deeper.
  induction printable with
  | named dotted noConstraint arguments ih =>
    intro depth enough
    refine ReadWithMarks.reads (.named dotted noConstraint arguments)
      (readWithMarks_named dotted noConstraint ?_)
    intro component member argument nested
    have shorter := length_argument_lt (arguments component member) component.name nested
    have within := length_component_le dotted arguments member
    exact (ih component member argument nested).readBy (shorter.trans_le (within.trans enough))
  | optional takesMark printable ih =>
    intro depth enough
    rw [tokens, List.length_append] at enough
    exact ((ih depth (by omega)).withMarks takesMark).optional.reads (.optional takesMark printable)
  | implicitlyUnwrapped takesMark printable ih =>
    intro depth enough
    rw [tokens, List.length_append] at enough
    exact ((ih depth (by omega)).withMarks takesMark).implicitlyUnwrapped.reads
      (.implicitlyUnwrapped takesMark printable)
  | array printable ih =>
    intro depth enough
    rw [tokens, List.length_cons, List.length_append] at enough
    exact (readWithMarks_array printable (ih.readBy (by omega))).reads (.array printable)
  | dictionary printableKey printableValue ihKey ihValue =>
    intro depth enough
    have alike := printableValue.renders.length " "
    rw [tokens, List.length_cons, List.length_append, List.length_cons,
      List.length_append] at enough
    exact (readWithMarks_dictionary printableKey (ihKey.readBy (by omega))
      (ihValue.readBy (by omega))).reads (.dictionary printableKey printableValue)
  | tuple noParentheses labels types ih =>
    intro depth enough
    rw [tokens, List.length_cons, List.length_append] at enough
    exact (readWithMarks_tuple noParentheses (elementReadBy labels types ih (by omega))).reads
      (.tuple noParentheses labels types)
  | function labels types printable ih ihResult =>
    intro depth enough
    have alike := printable.renders.length " "
    rw [tokens, List.length_cons, List.length_append, List.length_cons, List.length_append,
      List.length_cons] at enough
    exact ⟨by simp [takesMark], by simp [isPart], readBy_function (.function labels types printable)
      (elementReadBy labels types ih (by omega)) (ihResult.readBy (by omega))⟩
  | @metatype base kind takesMark printable ih =>
    intro depth enough
    rw [tokens, List.length_append] at enough
    exact (((ih depth (by omega)).withMarks takesMark).metatype kind).reads
      (.metatype takesMark printable)
  | composition several areParts types ih =>
    intro depth enough
    refine ⟨by simp [takesMark], by simp [isPart],
      readBy_composition (.composition several areParts types) several ?_⟩
    intro part member
    rw [tokens, tokensOf_eq_map] at enough
    have renders := fun part member => (types part member).renders
    have within := (length_le_joined renders member "").trans enough
    exact (ih part member depth within).asPart (areParts part member)
  | someOf isPart printable ih =>
    intro depth enough
    have alike := printable.renders.length " "
    rw [tokens, List.length_cons] at enough
    have reads := (ih depth (by omega)).asPart isPart
    exact (reads.someOf printable).reads (.someOf isPart printable) (by simp [takesMark])
  | anyOf isPart printable ih =>
    intro depth enough
    have alike := printable.renders.length " "
    rw [tokens, List.length_cons] at enough
    have reads := (ih depth (by omega)).asPart isPart
    exact (reads.anyOf printable).reads (.anyOf isPart printable) (by simp [takesMark])

theorem Printable.parse_tokens {type : TypeExpr} (printable : type.Printable) (gap : String)
    {rest : List Token} (ends : FollowedBy closers rest) :
    parse (type.tokens gap ++ rest) = .ok (type, rest) := by
  refine printable.readInDepth.readBy ?_ gap rest ends
  have alike := printable.renders.length gap
  rw [List.length_append]
  omega

end TypeExpr

/-- A name with a type after it is read up to what ends the type. -/
theorem Pattern.parse_typed {first : Token} {name : Name} {type : TypeExpr} {rest : List Token}
    (named : ∀ after, Name.parse (first :: after) = .ok (name, after))
    (noParen : first.kind ≠ .leftParen) (printable : type.Printable)
    (ends : FollowedBy TypeExpr.closers rest) :
    Pattern.parse (first :: ⟨.colon, "", ":"⟩ :: (type.tokens " " ++ rest)) =
      .ok (.ofName (some type) name, rest) := by
  have annotated : TypeExpr.afterColon? (⟨.colon, "", ":"⟩ :: (type.tokens " " ++ rest)) =
      .ok (some type, rest) := by
    rw [TypeExpr.afterColon?, bind_of_ok (accept_mark _ _ _ _), if_pos rfl,
      bind_of_ok (printable.parse_tokens " " ends)]
    rfl
  rw [Pattern.parse, fix_apply, Pattern.step, bind_of_ok (accept_of_ne noParen _),
    if_neg (by simp), bind_of_ok (named _), bind_of_ok annotated]
  rfl

def bindingTokens (name : String) (type : TypeExpr) : List Token :=
  word " " name :: ⟨.colon, "", ":"⟩ :: type.tokens " "

section Constant

variable {name : String} (isName : IsName name) {type : TypeExpr} (printable : type.Printable)

include isName printable

theorem Binding.parseAll_bindingTokens :
    Binding.parseAll (bindingTokens name type) =
      .ok ([⟨.identifier (.plain name) (some type), none⟩], []) := by
  have pattern : Pattern.parse (bindingTokens name type) =
      .ok (.identifier (.plain name) (some type), []) := by
    have read := Pattern.parse_typed (Name.parse_word isName " ") (by simp [word]) printable
      (.nil _)
    rwa [List.append_nil] at read
  rw [Binding.parseAll, fix_apply, bind_of_ok pattern]
  rfl

theorem Declaration.parse_constant :
    Declaration.parse (word "" "let" :: bindingTokens name type) =
      .ok (.letDeclaration .none [⟨.identifier (.plain name) (some type), none⟩], []) := by
  have body : afterSpecifiers (word "" "let" :: bindingTokens name type) =
      .ok (.letDeclaration .none [⟨.identifier (.plain name) (some type), none⟩], []) := by
    rw [afterSpecifiers, fix_apply]
    refine step_keyword rfl ?_
    rw [afterKeyword, bind_of_ok (Binding.parseAll_bindingTokens isName printable)]
    rfl
  exact specified_word ⟨rfl, rfl⟩ body

theorem Declaration.parseAll_constant :
    Declaration.parseAll (word "" "let" :: bindingTokens name type) =
      .ok ([.letDeclaration .none [⟨.identifier (.plain name) (some type), none⟩]], []) := by
  have first : separators (word "" "let" :: bindingTokens name type) =
      .ok ((), word "" "let" :: bindingTokens name type) := rfl
  rw [parseAll, fix_apply, bind_of_ok first,
    bind_of_ok (show nextKind (word "" "let" :: bindingTokens name type) = .ok (_, _) from rfl),
    if_neg (by simp [Token.kindAt]), bind_of_ok (parse_constant isName printable)]
  rfl

theorem Token.scan_constant :
    scan false ("let " ++ name ++ ": " ++ type.text).toList =
      .ok (word "" "let" :: bindingTokens name type ++ [⟨.endOfFile, "", ""⟩]) := by
  have renders := printable.renders
  have written : Written (bindingTokens name type) :=
    .word rfl isName.isWord (.mark TypeExpr.isMark_colon (renders.written " " rfl))
      (TypeExpr.isMark_colon.standsOff _)
  have off : StandsOff (bindingTokens name type) := standsOff_cons (.inl (by simp [word]))
  have line : Written (word "" "let" :: bindingTokens name type) :=
    .word rfl (by decide) written off
  have scanned := line.scan_start rfl Lexeme.stopsWord_nil (scan_of_end rfl true)
  have text : ("let " ++ name ++ ": " ++ type.text).toList =
      (sourceOf (word "" "let" :: bindingTokens name type)).toList ++ [] := by
    rw [bindingTokens, sourceOf, sourceOf, sourceOf, renders.source]
    simp [source, word]
  rw [text, scanned]
  rfl

end Constant

theorem TypeExpr.printable_simple {name : String} (isName : IsTypeName name) :
    (simple name).Printable := by
  refine .named ⟨by simp, ?_, by simp⟩ ?_ (by simp)
  · intro component member
    obtain rfl := List.mem_singleton.mp member
    exact isName.toIsName
  · rintro component ⟨⟩
    simpa using isName.noConstraint

def TypeExpr.handler : TypeExpr :=
  .function
    [⟨some "_", .dictionary (.tuple [⟨some "\x60in\x60", simple "Int"⟩, ⟨none, simple "Tag"⟩])
        (.optional (.array (simple "Item")))⟩,
      ⟨none, .someOf (.named [⟨.plain "Swift", []⟩,
        ⟨.quoted "default", [simple "Int", .metatype (simple "Tag") .type]⟩])⟩]
    (.composition [simple "Named", .anyOf (.implicitlyUnwrapped (simple "Sized"))]) true true

theorem TypeExpr.printable_handler : handler.Printable := by
  have number : (simple "Int").Printable := printable_simple (by decide)
  have tag : (simple "Tag").Printable := printable_simple (by decide)
  have item : (simple "Item").Printable := printable_simple (by decide)
  have first : (simple "Named").Printable := printable_simple (by decide)
  have second : (simple "Sized").Printable := printable_simple (by decide)
  have key : (tuple [⟨some "\x60in\x60", simple "Int"⟩, ⟨none, simple "Tag"⟩]).Printable := by
    refine .tuple (by simp) (List.forall_mem_cons.mpr ⟨?_, List.forall_mem_singleton.mpr nofun⟩)
      (List.forall_mem_cons.mpr ⟨number, List.forall_mem_singleton.mpr tag⟩)
    rintro label ⟨⟩
    exact ⟨.quoted "in", ⟨by decide, by decide⟩, rfl⟩
  have collection : (named [⟨.plain "Swift", []⟩,
      ⟨.quoted "default", [simple "Int", .metatype (simple "Tag") .type]⟩]).Printable := by
    have spelled : IsName "Swift" := by decide
    have quoted : (Name.quoted "default").WellFormed := ⟨by decide, by decide⟩
    refine .named ⟨by simp, ?_, ?_⟩ ?_ ?_
    · exact List.forall_mem_cons.mpr ⟨spelled, List.forall_mem_singleton.mpr quoted⟩
    · exact List.forall_mem_singleton.mpr (by simp [TypeComponent.IsMetatype])
    · rintro component ⟨⟩
      simp
    · refine List.forall_mem_cons.mpr ⟨by simp, List.forall_mem_singleton.mpr ?_⟩
      exact List.forall_mem_cons.mpr ⟨number, List.forall_mem_singleton.mpr (.metatype rfl tag)⟩
  have wildcard : (TupleElement.mk (some "_") (dictionary
      (tuple [⟨some "\x60in\x60", simple "Int"⟩, ⟨none, simple "Tag"⟩])
        (optional (array (simple "Item"))))).Labelled := by
    rintro label ⟨⟩
    exact ⟨.wildcard, trivial, rfl⟩
  refine .function (List.forall_mem_cons.mpr ⟨wildcard, List.forall_mem_singleton.mpr nofun⟩)
    (List.forall_mem_cons.mpr ⟨.dictionary key (.optional rfl (.array item)),
      List.forall_mem_singleton.mpr (.someOf rfl collection)⟩) ?_
  refine .composition (by simp) (by simp [simple, isPart]) (List.forall_mem_cons.mpr ⟨first, ?_⟩)
  exact List.forall_mem_singleton.mpr (.anyOf rfl (.implicitlyUnwrapped rfl second))

end SwiftLens
