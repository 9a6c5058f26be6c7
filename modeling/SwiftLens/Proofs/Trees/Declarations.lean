import SwiftLens.Proofs.Trees.Types
import SwiftLens.SourceFile

namespace SwiftLens

open SwiftLens.Parser

namespace Pattern

theorem wellFormed_ofName {name : Name} {typing : Option TypeExpr} (named : name.WellFormed)
    (typed : ∀ type ∈ typing, type.WellFormed) : (ofName typing name).WellFormed := by
  cases name with
  | wildcard => exact .wildcard typed
  | plain text => exact .identifier named (by simp) typed
  | quoted text => exact .identifier named (by simp) typed

section Nested

variable {source : String} {file : List Token} {bound : Nat} {inner : Parser Pattern}
  (read : Token.ReadFrom source file)
  (nested : Contract file bound (fun _ => 1) WellFormed inner)

include nested

theorem contract_elements :
    Contract file bound (fun _ => 0) (fun elements => ∀ element ∈ elements, element.WellFormed)
      (elements inner) := by
  apply contract_fix
  intro left more within contract
  apply contract_bind contract_newlines
  intro _ _
  apply contract_choice
  · exact contract_pure rfl (by simp)
  apply contract_bind (nested.mono (by omega))
  intro first wellFormed
  apply contract_bind contract_newlines
  intro _ _
  apply contract_choice
  · apply contract_bind (contract.mono (by omega))
    intro later wellFormedLater
    exact contract_pure rfl (List.forall_mem_cons.mpr ⟨wellFormed, wellFormedLater⟩)
  · apply contract_bind (contract_expect _ (by decide))
    intro _ _
    exact contract_pure rfl (by simpa using wellFormed)

include read

theorem contract_step : Contract file (bound + 1) (fun _ => 1) WellFormed (step inner) := by
  apply contract_choice
  · apply contract_bind (contract_elements nested)
    intro elements wellFormed
    apply contract_bind (TypeExpr.contract_afterColon? read)
    intro typing typed
    exact contract_pure rfl (.tuple wellFormed typed)
  · apply contract_bind (contract_name read)
    intro name named
    apply contract_bind (TypeExpr.contract_afterColon? read)
    intro typing typed
    exact contract_pure rfl (wellFormed_ofName named typed)

end Nested
end Pattern

namespace Storage

theorem wellFormed_afterBinding {source : String} {binding : Binding} {storage : Storage}
    (wellFormed : storage.WellFormed source) (bound : binding.WellFormed source) :
    (storage.afterBinding binding).WellFormed source := by
  cases wellFormed with
  | stored filled others => exact .stored (by simp) (List.forall_mem_cons.mpr ⟨bound, others⟩)
  | computed named binds typed => exact .computed named binds typed
  | observed named binds typed initialized => exact .observed named binds typed initialized

theorem contract_accessors {source : String} {file : List Token} {bound : Nat} {name : Name}
    {typing : Option TypeExpr} (wellFormed : (Pattern.identifier name typing).WellFormed) :
    Contract file bound (fun _ => 0) (Storage.WellFormed source) (accessors name typing) := by
  cases wellFormed with
  | identifier named binds typed =>
    apply contract_bind (contract_ahead _)
    intro observes _
    apply contract_ite
    · intro _
      apply contract_bind contract_newlines
      intro _ _
      apply contract_bind contract_block
      intro _ _
      exact contract_pure rfl (.observed named binds typed (by simp))
    · intro _
      cases typing with
      | none => exact contract_fail (by decide)
      | some type =>
        apply contract_bind contract_newlines
        intro _ _
        apply contract_bind contract_block
        intro _ _
        exact contract_pure rfl (.computed named binds (typed type rfl))

end Storage

section Read

variable {source : String} {file : List Token} {bound : Nat}
  (read : Token.ReadFrom source file)

include read

theorem Pattern.contract_parse : Contract file bound (fun _ => 1) WellFormed parse := by
  apply contract_fix
  intro left more within contract
  exact contract_step read contract

theorem Binding.contract_parseAll :
    Contract file bound (fun _ => 1)
      (fun bindings => bindings ≠ [] ∧ ∀ binding ∈ bindings, binding.WellFormed source)
      parseAll := by
  apply contract_fix
  intro left more within contract
  apply contract_bind (Pattern.contract_parse read)
  intro pattern wellFormed
  apply contract_bind (contract_initializer? read)
  intro initializer initialized
  apply contract_choice
  · apply contract_bind contract_newlines
    intro _ _
    apply contract_bind (contract.mono (by omega))
    rintro later ⟨-, wellFormedLater⟩
    exact contract_pure rfl ⟨by simp,
      List.forall_mem_cons.mpr ⟨⟨wellFormed, initialized⟩, wellFormedLater⟩⟩
  · exact contract_pure rfl ⟨by simp, List.forall_mem_singleton.mpr ⟨wellFormed, initialized⟩⟩

namespace Storage

section Nested

variable (first : Bool) {more : Parser Storage}
  (nested : Contract file bound (fun _ => 1) (Storage.WellFormed source) more)

include nested

theorem contract_afterPattern {pattern : Pattern} (wellFormed : pattern.WellFormed) :
    Contract file bound (fun _ => 0) (Storage.WellFormed source)
      (afterPattern first pattern more) := by
  apply contract_bind (contract_initializer? read)
  intro initializer initialized
  apply contract_bind (contract_ahead _)
  intro observes _
  apply contract_ite
  · intro _
    cases wellFormed with
    | identifier named binds typed =>
      apply contract_bind contract_block
      intro _ _
      exact contract_pure rfl (.observed named binds typed initialized)
    | tuple nested typed => exact contract_fail (by decide)
    | wildcard typed => exact contract_fail (by decide)
  · intro _
    apply contract_choice
    · apply contract_bind contract_newlines
      intro _ _
      apply contract_bind (nested.mono (by omega))
      intro storage wellFormedLater
      exact contract_pure rfl (wellFormed_afterBinding wellFormedLater ⟨wellFormed, initialized⟩)
    · exact contract_pure rfl
        (.stored (by simp) (List.forall_mem_singleton.mpr ⟨wellFormed, initialized⟩))

theorem contract_step :
    Contract file (bound + 1) (fun _ => 1) (Storage.WellFormed source) (step first more) := by
  apply contract_bind (Pattern.contract_parse read)
  intro pattern wellFormed
  cases pattern with
  | identifier name typing =>
    apply contract_bind (contract_ahead _)
    intro opens _
    apply contract_ite
    · intro _
      exact contract_accessors wellFormed
    · intro _
      exact contract_afterPattern read first nested wellFormed
  | tuple elements typing => exact contract_afterPattern read first nested wellFormed
  | wildcard typing => exact contract_afterPattern read first nested wellFormed

end Nested

theorem contract_parse : Contract file bound (fun _ => 1) (Storage.WellFormed source) parse := by
  refine (contract_step read true (contract_fix ?_)).mono (Nat.le_succ bound)
  intro left more within contract
  exact contract_step read false contract

end Storage
end Read

namespace Declaration

theorem wellFormed_withSpecifiers {source : String} {declaration : Declaration}
    {specifiers : Specifiers} (wellFormed : declaration.WellFormed source)
    (specified : specifiers.WellFormed source) :
    (declaration.withSpecifiers specifiers).WellFormed source := by
  cases wellFormed with
  | importPath filled => exact .importPath filled
  | composite _ name inheritance members => exact .composite specified name inheritance members
  | enumeration _ name inheritance clauses members =>
    exact .enumeration specified name inheritance clauses members
  | protocol _ name inheritance members => exact .protocol specified name inheritance members
  | extension _ extended inheritance members => exact .extension specified extended inheritance members
  | letDeclaration _ filled bound => exact .letDeclaration specified filled bound
  | varDeclaration _ stored => exact .varDeclaration specified stored
  | function _ => exact .function specified
  | initializer _ => exact .initializer specified
  | deinitializer => exact .deinitializer
  | subscript _ => exact .subscript specified
  | typeAlias named wellFormed => exact .typeAlias named wellFormed
  | associatedType named => exact .associatedType named
  | operator => exact .operator
  | compilerControl conditioned => exact .compilerControl conditioned

theorem genericNames_suffix {depth : Nat} {awaiting : Bool} {tokens rest : List Token}
    {names : List String} (found : genericNames depth awaiting tokens = some (names, rest)) :
    rest <:+ tokens := by
  induction tokens generalizing depth awaiting names with
  | nil => simp [genericNames] at found
  | cons token tokens ih =>
    have passed : ∀ {depth awaiting names}, genericNames depth awaiting tokens = some (names, rest) →
        rest <:+ token :: tokens :=
      fun named => (ih named).trans (List.suffix_cons _ _)
    cases kind : token.kind with
    | greater =>
      cases depth with
      | zero =>
        simp only [genericNames, kind] at found
        cases found
        exact List.suffix_cons _ _
      | succ depth =>
        simp only [genericNames, kind] at found
        exact passed found
    | identifier =>
      simp only [genericNames, kind] at found
      split at found
      · obtain ⟨⟨more, after⟩, named, same⟩ := Option.map_eq_some_iff.mp found
        cases same
        exact passed named
      · exact passed found
    | _ =>
      simp only [genericNames, kind] at found
      exact passed found

theorem operatorName_splits (tokens : List Token) :
    tokens = (operatorName tokens).1 ++ (operatorName tokens).2 := by
  cases tokens with
  | nil => rfl
  | cons token rest =>
    rw [operatorName]
    split
    · rfl
    · rw [List.cons_append, List.takeWhile_append_dropWhile]

section Unread

variable {file : List Token} {bound : Nat}

theorem contract_importKind? :
    Contract file bound (fun _ => 0) (fun _ => True) importKind? := by
  apply contract_bind (contract_takeIf _)
  intro found _
  exact contract_pure (Nat.zero_sub _) trivial

theorem contract_genericParameters :
    Contract file bound (fun _ => 0) (fun _ => True) genericParameters := by
  apply contract_choice
  · constructor
    · intro tokens names rest _ _ parsed
      split at parsed
      · next found after named =>
        cases parsed
        have tail := genericNames_suffix named
        exact ⟨tail, tail.length_le, trivial⟩
      · cases parsed
    · intro tokens mismatch _ _ failed
      split at failed
      · cases failed
      · cases failed
        exact ⟨List.nil_suffix, by decide⟩
  · exact contract_pure rfl trivial

theorem contract_primaryAssociatedTypes :
    Contract file bound (fun _ => 0) (fun _ => True) primaryAssociatedTypes := by
  apply contract_choice
  · exact contract_closeGroup_bind _ (contract_pure rfl trivial)
  · exact contract_pure rfl trivial

theorem contract_whereClause : Contract file bound (fun _ => 0) (fun _ => True) whereClause := by
  apply contract_bind (contract_ahead _)
  intro _ _
  apply contract_ite
  · intro _
    exact contract_dropWhile _
  · intro _
    exact contract_pure rfl trivial

theorem contract_openBody : Contract file bound (fun _ => 1) (fun _ => True) openBody := by
  apply contract_bind contract_newlines
  intro _ _
  apply contract_bind (contract_expect _ (by decide))
  intro _ _
  exact contract_pure rfl trivial

theorem contract_keyword : Contract file bound (fun _ => 1) (fun _ => True) keyword := by
  apply contract_bind (contract_takeIf _)
  intro found good
  cases found with
  | none => exact contract_fail (by decide)
  | some token =>
    obtain ⟨-, -, isKeyword⟩ := good token rfl
    obtain ⟨keyword, spelled⟩ := Option.isSome_iff_exists.mp isKeyword
    rw [Option.bind_some, spelled]
    exact contract_pure rfl trivial

end Unread

section Read

variable {source : String} {file : List Token} {bound : Nat}
  (read : Token.ReadFrom source file)

include read

theorem contract_compilerControlLine :
    Contract file bound (fun _ => 1) (Declaration.WellFormed source) compilerControlLine := by
  apply contract_bind (contract_expect _ (by decide))
  intro _ _
  apply contract_bind (contract_expect _ (by decide))
  intro directive _
  apply contract_bind (contract_takeWhile _)
  rintro condition ⟨inFile, inLine⟩
  apply contract_ite
  · intro _
    exact contract_pure (by omega) (.compilerControl (by simp))
  · intro filled
    apply contract_pure (by omega)
    apply WellFormed.compilerControl
    rintro _ ⟨⟩
    have tight := Token.tight_slice (read.wellRead.run inFile) (by simpa using filled)
      fun last found => by simpa [Token.isNewline] using inLine last (List.mem_of_getLast? found)
    exact ⟨by simpa using tight.filled, read.excerpt inFile (Token.slice_suffix _).isInfix⟩

theorem contract_importNames :
    Contract file bound (fun _ => 1) (fun names => names ≠ []) importNames := by
  apply contract_fix
  intro left more within contract
  apply contract_bind (contract_name read)
  intro name _
  apply contract_choice
  · apply contract_bind (contract.mono (by omega))
    intro later _
    exact contract_pure rfl (by simp)
  · exact contract_pure rfl (by simp)

theorem contract_supertype :
    Contract file bound (fun _ => 1) (fun paths => ∀ path ∈ paths, path.WellFormed) supertype := by
  apply contract_choice
  · apply contract_bind (TypeExpr.contract_parse read)
    intro _ _
    exact contract_pure rfl (by simp)
  · apply contract_bind (TypeExpr.contract_parse read)
    intro type wellFormed
    cases type with
    | named path => exact contract_pure rfl (List.forall_mem_singleton.mpr wellFormed)
    | _ => exact contract_pure rfl (by simp)

theorem contract_supertypes :
    Contract file bound (fun _ => 1) (fun paths => ∀ path ∈ paths, path.WellFormed) supertypes := by
  apply contract_fix
  intro left more within contract
  apply contract_bind contract_newlines
  intro _ _
  apply contract_bind (Attribute.contract_skipAll read)
  intro _ _
  apply contract_bind (contract_supertype read)
  intro listed wellFormed
  apply contract_choice
  · apply contract_bind (contract.mono (by omega))
    intro later wellFormedLater
    exact contract_pure rfl (List.forall_mem_append.mpr ⟨wellFormed, wellFormedLater⟩)
  · exact contract_pure rfl wellFormed

theorem contract_inheritance? :
    Contract file bound (fun _ => 0) (fun found => ∀ path ∈ found.getD [], path.WellFormed)
      inheritance? := by
  apply contract_choice
  · apply contract_bind (contract_supertypes read)
    intro listed wellFormed
    exact contract_pure rfl wellFormed
  · exact contract_pure rfl (by simp)

/-- What stands between the name of a type and its members. -/
theorem contract_opening {α : Type} {Good : α → Prop} {next : Option (List TypePath) → Parser α}
    (later : ∀ inheritance, (∀ path ∈ inheritance.getD [], path.WellFormed) →
      Contract file bound (fun _ => 0) Good (next inheritance)) :
    Contract file bound (fun _ => 0) Good
      (inheritance? >>= fun inheritance => whereClause >>= fun _ => openBody >>= fun _ =>
        next inheritance) := by
  apply contract_bind (contract_inheritance? read)
  intro inheritance wellFormed
  apply contract_bind contract_whereClause
  intro _ _
  apply contract_bind contract_openBody
  intro _ _
  exact (later inheritance wellFormed).mono (Nat.sub_le _ _)

theorem contract_payload? :
    Contract file bound (fun _ => 0) (fun payload => ∀ types ∈ payload, types.WellFormed)
      payload? := by
  apply contract_choice
  · apply contract_bind (TypeExpr.contract_elements read (TypeExpr.contract_parse read))
    intro elements wellFormed
    exact contract_pure rfl (by simpa using wellFormed)
  · exact contract_pure rfl (by simp)

theorem contract_enumCase :
    Contract file bound (fun _ => 1) (EnumCase.WellFormed source) enumCase := by
  apply contract_bind (contract_name read)
  intro name named
  apply contract_bind (contract_payload? read)
  intro payload carried
  apply contract_bind (contract_initializer? read)
  intro rawValue valued
  exact contract_pure rfl ⟨named, carried, valued⟩

theorem contract_enumCases :
    Contract file bound (fun _ => 1)
      (fun cases => cases ≠ [] ∧ ∀ declared ∈ cases, declared.WellFormed source) enumCases := by
  apply contract_fix
  intro left more within contract
  apply contract_bind (contract_enumCase read)
  intro first wellFormed
  apply contract_choice
  · apply contract_bind contract_newlines
    intro _ _
    apply contract_bind (contract.mono (by omega))
    rintro later ⟨-, wellFormedLater⟩
    exact contract_pure rfl ⟨by simp, List.forall_mem_cons.mpr ⟨wellFormed, wellFormedLater⟩⟩
  · exact contract_pure rfl ⟨by simp, List.forall_mem_singleton.mpr wellFormed⟩

theorem contract_functionName :
    Contract file bound (fun _ => 0) (fun _ => True) functionName := by
  apply contract_bind (contract_name? read)
  intro found _
  cases found with
  | some name => exact contract_pure rfl trivial
  | none =>
    have operator : Contract file bound (fun _ => 0) (fun _ => True) fun tokens =>
        .ok (operatorName tokens) :=
      contract_of_total fun tokens _ =>
        have tail : (operatorName tokens).2 <:+ tokens := ⟨_, (operatorName_splits tokens).symm⟩
        ⟨_, _, rfl, tail, tail.length_le, trivial⟩
    apply contract_bind operator
    intro name _
    apply contract_ite
    · intro _
      exact contract_fail (by decide)
    · intro _
      exact contract_pure rfl trivial

section Nested

variable {inner : Parser Declaration}
  (nested : Contract file bound (fun _ => 1) (Declaration.WellFormed source) inner)

include nested

theorem contract_specified :
    Contract file bound (fun _ => 1) (Declaration.WellFormed source) (specified inner) := by
  apply contract_bind (contract_ahead _)
  intro kind _
  apply contract_ite
  · intro _
    exact contract_compilerControlLine read
  · intro _
    apply contract_bind (Attribute.contract_parseAll read)
    intro attributes written
    apply contract_bind Modifier.contract_parseAll
    intro modifiers _
    apply contract_bind nested
    intro declaration wellFormed
    exact contract_pure rfl (wellFormed_withSpecifiers wellFormed written)

theorem contract_members :
    Contract file bound (fun _ => 0) (fun members => ∀ member ∈ members, member.WellFormed source)
      (members inner) := by
  apply contract_fix
  intro left more within contract
  apply contract_bind (contract_dropWhile _)
  intro _ _
  apply contract_choice
  · exact contract_pure rfl (by simp)
  apply contract_bind (contract_ahead _)
  intro kind _
  apply contract_ite
  · intro _
    exact contract_fail (by decide)
  · intro _
    apply contract_bind ((contract_specified read nested).mono (by omega))
    intro first wellFormed
    apply contract_bind contract
    intro later wellFormedLater
    exact contract_pure rfl (List.forall_mem_cons.mpr ⟨wellFormed, wellFormedLater⟩)

theorem contract_enumMember :
    Contract file bound (fun _ => 1) (EnumMember.WellFormed source) (enumMember inner) := by
  apply contract_bind (Attribute.contract_parseAll read)
  intro attributes written
  apply contract_bind (contract_acceptIf _)
  intro isIndirect _
  apply contract_choice
  · apply contract_bind (contract_enumCases read)
    rintro cases ⟨filled, wellFormed⟩
    exact contract_pure (by omega) ⟨filled, wellFormed⟩
  apply contract_bind Modifier.contract_parseAll
  intro modifiers _
  apply contract_choice
  · apply contract_bind (contract_enumCases read)
    rintro cases ⟨filled, wellFormed⟩
    exact contract_pure (by omega) ⟨filled, wellFormed⟩
  · apply contract_bind (nested.mono (by omega))
    intro declaration wellFormed
    exact contract_pure (by omega) (wellFormed_withSpecifiers wellFormed written)

theorem contract_enumMembers :
    Contract file bound (fun _ => 0) (fun members => ∀ member ∈ members, member.WellFormed source)
      (enumMembers inner) := by
  apply contract_fix
  intro left more within contract
  have rest : ∀ {first : EnumMember Declaration}, first.WellFormed source →
      Contract file left (fun _ => 0)
        (fun members => ∀ member ∈ members, EnumMember.WellFormed source member)
        (more >>= fun later => pure (first :: later)) := by
    intro first wellFormed
    apply contract_bind contract
    intro later wellFormedLater
    exact contract_pure rfl (List.forall_mem_cons.mpr ⟨wellFormed, wellFormedLater⟩)
  apply contract_bind (contract_dropWhile _)
  intro _ _
  apply contract_choice
  · exact contract_pure rfl (by simp)
  apply contract_bind (contract_ahead _)
  intro kind _
  split
  · exact contract_fail (by decide)
  · apply contract_bind (contract_compilerControlLine read)
    intro first wellFormed
    exact rest wellFormed
  · apply contract_bind ((contract_enumMember read nested).mono (by omega))
    intro first wellFormed
    exact rest wellFormed

/-- What follows a keyword, one case for each keyword. -/
theorem contract_afterKeyword (keyword : Keyword) :
    Contract file bound (fun _ => 0) (Declaration.WellFormed source) (afterKeyword inner keyword) := by
  have unspecified : Specifiers.none.WellFormed source := by simp [Specifiers.WellFormed, Specifiers.none]
  cases keyword with
  | composite kind =>
    apply contract_bind (contract_name read)
    intro name named
    apply contract_bind contract_genericParameters
    intro genericParameters _
    apply contract_opening read
    intro inheritance inherited
    apply contract_bind ((contract_members read nested).mono (by omega))
    intro members wellFormed
    exact contract_pure rfl (.composite unspecified named inherited wellFormed)
  | importPath =>
    apply contract_bind contract_importKind?
    intro kind _
    apply contract_bind (contract_importNames read)
    intro names filled
    exact contract_pure rfl (.importPath filled)
  | enumeration =>
    apply contract_bind (contract_name read)
    intro name named
    apply contract_bind contract_genericParameters
    intro genericParameters _
    apply contract_opening read
    intro inheritance inherited
    apply contract_bind ((contract_enumMembers read nested).mono (by omega))
    intro members wellFormed
    exact contract_pure rfl (.enumeration unspecified named inherited
      (fun clause member => wellFormed _ member) (fun declaration member => wellFormed _ member))
  | protocol =>
    apply contract_bind (contract_name read)
    intro name named
    apply contract_bind contract_primaryAssociatedTypes
    intro _ _
    apply contract_opening read
    intro inheritance inherited
    apply contract_bind ((contract_members read nested).mono (by omega))
    intro members wellFormed
    exact contract_pure rfl (.protocol unspecified named inherited wellFormed)
  | extension =>
    apply contract_bind ((TypeExpr.contract_path read (TypeExpr.contract_parse read)).mono
      (Nat.le_succ bound))
    intro extended dotted
    apply contract_opening read
    intro inheritance inherited
    apply contract_bind ((contract_members read nested).mono (by omega))
    intro members wellFormed
    exact contract_pure rfl (.extension unspecified dotted inherited wellFormed)
  | letDeclaration =>
    apply contract_bind (Binding.contract_parseAll read)
    rintro bindings ⟨filled, wellFormed⟩
    exact contract_pure rfl (.letDeclaration unspecified filled wellFormed)
  | varDeclaration =>
    apply contract_bind (Storage.contract_parse read)
    intro storage wellFormed
    exact contract_pure rfl (.varDeclaration unspecified wellFormed)
  | function =>
    apply contract_bind (contract_functionName read)
    intro name _
    apply contract_bind contract_signature
    intro _ _
    exact contract_pure rfl (.function unspecified)
  | initializer =>
    apply contract_bind (contract_acceptIf _)
    intro failable _
    apply contract_bind contract_signature
    intro _ _
    exact contract_pure (by omega) (.initializer unspecified)
  | deinitializer =>
    apply contract_bind contract_signature
    intro _ _
    exact contract_pure rfl .deinitializer
  | subscript =>
    apply contract_bind contract_signature
    intro _ _
    exact contract_pure rfl (.subscript unspecified)
  | typeAlias =>
    apply contract_bind (contract_name read)
    intro name named
    apply contract_bind contract_genericParameters
    intro _ _
    apply contract_bind (contract_expect _ (by decide))
    intro _ _
    apply contract_bind (TypeExpr.contract_parse read)
    intro type wellFormed
    exact contract_pure rfl (.typeAlias named wellFormed)
  | associatedType =>
    apply contract_bind (contract_name read)
    intro name named
    apply contract_bind (contract_takeWhile _)
    intro _ _
    exact contract_pure (by omega) (.associatedType named)
  | operator =>
    apply contract_bind (contract_takeWhile _)
    intro _ _
    exact contract_pure (Nat.zero_sub _) .operator
  | precedenceGroup =>
    apply contract_bind (contract_name read)
    intro name named
    apply contract_bind contract_newlines
    intro _ _
    apply contract_bind contract_block
    intro _ _
    exact contract_pure rfl .operator

theorem contract_step :
    Contract file (bound + 1) (fun _ => 1) (Declaration.WellFormed source) (step inner) := by
  apply contract_bind contract_keyword
  intro keyword _
  exact contract_afterKeyword read nested keyword

end Nested

theorem contract_afterSpecifiers :
    Contract file bound (fun _ => 1) (Declaration.WellFormed source) afterSpecifiers := by
  apply contract_fix
  intro left more within contract
  exact contract_step read contract

theorem contract_parse :
    Contract file bound (fun _ => 1) (Declaration.WellFormed source) parse :=
  contract_specified read (contract_afterSpecifiers read)

theorem contract_parseAll :
    Contract file bound (fun _ => 0)
      (fun declarations => ∀ declaration ∈ declarations, declaration.WellFormed source) parseAll := by
  apply contract_fix
  intro left more within contract
  apply contract_bind (contract_dropWhile _)
  intro _ _
  apply contract_bind (contract_ahead _)
  intro kind _
  apply contract_ite
  · intro _
    exact contract_pure rfl (by simp)
  · intro _
    apply contract_bind (contract_parse read)
    intro first wellFormed
    apply contract_bind contract
    intro later wellFormedLater
    exact contract_pure rfl (List.forall_mem_cons.mpr ⟨wellFormed, wellFormedLater⟩)

end Read
end Declaration

/-- The tokens of a source before its end are read from it. -/
theorem Token.readFrom_of_scan {source : String} {tokens : List Token}
    (scanned : scan false source.toList = .ok tokens) : ReadFrom source tokens.dropLast where
  wellRead := wellRead_of_scan scanned
  whole := by
    have whole := sourceOf_scan scanned
    rw [String.ofList_toList] at whole
    rw [← whole]
    conv_rhs => rw [← List.dropLast_append_getLast (scan_ne_nil scanned), sourceOf_append]
    simp

def SourceFile.offsetBinding : Declaration :=
  .letDeclaration ⟨[⟨"a", some "b"⟩], []⟩
    [⟨.identifier (.plain "x") (some (.composition [.simple "A", .simple "B"])), some "- 1"⟩]

end SwiftLens
