import SwiftLens.Proofs.Trees.Excerpts
import SwiftLens.TypeExpr.Parser

namespace SwiftLens

open SwiftLens.Parser

theorem Name.wellFormed_ofToken? {token : Token} {name : Name}
    (spells : Lexeme.Spells token.kind token.text.toList) (named : ofToken? token = some name) :
    name.WellFormed := by
  unfold ofToken? at named
  split at named
  · next isWord =>
    cases named
    have word := spells.word isWord
    rw [String.ofList_toList] at word
    unfold ofWord
    split
    · trivial
    · next notWildcard => exact ⟨word, notWildcard⟩
  · next isQuoted =>
    cases named
    obtain ⟨inside, written, allowed⟩ := spells.quoted isQuoted
    have kept : (token.text.toList.drop 1).dropLast = inside := by simp [written]
    rw [ofBackticked, kept]
    simp only [WellFormed, String.toList_ofList]
    exact ⟨fun tick => absurd (List.all_eq_true.mp allowed _ tick) (by decide),
      fun feed => absurd (List.all_eq_true.mp allowed _ feed) (by decide)⟩
  · cases named

/-- What a name is read from. -/
theorem Name.parse_ok {tokens rest : List Token} {name : Name}
    (parsed : parse tokens = .ok (name, rest)) :
    ∃ token, tokens = token :: rest ∧ ofToken? token = some name := by
  obtain ⟨found, between, read, finished⟩ := bind_ok parsed
  obtain ⟨taken, after, took, same⟩ := bind_ok read
  cases same
  rcases takeIf_ok took with ⟨token, rfl, rfl, -⟩ | ⟨rfl, rfl⟩
  · refine ⟨token, ?_⟩
    cases spelled : ofToken? token with
    | none =>
      rw [Option.bind_some, spelled] at finished
      cases finished
    | some other =>
      rw [Option.bind_some, spelled] at finished
      cases finished
      exact ⟨rfl, rfl⟩
  · cases finished

theorem trimBlanks_within (text : List Char) : trimBlanks text <:+: text := by
  have trailing : ((text.dropWhile isBlank).reverse.dropWhile isBlank).reverse <+:
      text.dropWhile isBlank := by
    rw [← List.reverse_suffix, List.reverse_reverse]
    exact List.dropWhile_suffix _
  exact trailing.isInfix.trans (List.dropWhile_suffix _).isInfix

section Read

variable {source : String} {file : List Token} {bound : Nat}
  (read : Token.ReadFrom source file)

include read

theorem contract_name? :
    Contract file bound (fun found => found.isSome.toNat) (fun found => ∀ name ∈ found, name.WellFormed)
      Name.next? := by
  apply contract_bind (contract_takeIf _)
  intro found good
  cases found with
  | none => exact contract_pure rfl (by simp)
  | some token =>
    obtain ⟨member, rest, named⟩ := good token rfl
    obtain ⟨name, spelled⟩ := Option.isSome_iff_exists.mp named
    rw [Option.bind_some, spelled]
    have inLine : token.kind ≠ .newline := by
      rintro isBreak
      simp [Name.ofToken?, isBreak] at spelled
    have wellFormed := Name.wellFormed_ofToken? (read.wellRead.spelled token member inLine) spelled
    exact contract_pure rfl (by simpa using wellFormed)

theorem contract_name : Contract file bound (fun _ => 1) Name.WellFormed Name.parse := by
  apply contract_bind (contract_name? read)
  intro found good
  cases found with
  | none => exact contract_fail (by decide)
  | some name => exact contract_pure rfl (good name rfl)

theorem Attribute.excerpt_argumentText {front : List Token} {last : Token}
    (inFile : front ++ [last] <:+: file) : Excerpt source (argumentText (front ++ [last])) := by
  apply read.excerpt inFile
  have inside : (Token.sourceOf front ++ last.gap).toList <:+:
      (Token.sourceOf (front ++ [last])).toList :=
    ⟨[], last.text.toList, by simp [Token.sourceOf, Token.source]⟩
  simpa [argumentText] using (trimBlanks_within _).trans inside

theorem Attribute.contract_parse :
    Contract file bound (fun _ => 1) (Attribute.WellFormed source) parse := by
  apply contract_bind (contract_expect _ (by decide))
  intro _ _
  apply contract_bind (contract_expect _ (by decide))
  intro name _
  apply contract_choice
  · apply contract_bind (contract_closeGroup _)
    rintro _ ⟨inFile, front, last, rfl, -⟩
    apply contract_pure (by omega)
    rintro _ ⟨⟩
    exact excerpt_argumentText read inFile
  · exact contract_pure rfl (by simp [WellFormed])

theorem Attribute.contract_parseAll :
    Contract file bound (fun _ => 0) (fun attributes => ∀ written ∈ attributes, written.WellFormed source)
      parseAll := by
  apply contract_fix
  intro left more _ contract
  apply contract_bind (contract_ahead _)
  intro kind _
  apply contract_ite
  · intro _
    apply contract_bind (contract_parse read)
    intro first wellFormed
    apply contract_bind contract_newlines
    intro _ _
    apply contract_bind contract
    intro later wellFormedLater
    exact contract_pure rfl (by simpa using ⟨wellFormed, wellFormedLater⟩)
  · intro _
    exact contract_pure rfl (by simp)

theorem Attribute.contract_skipAll :
    Contract file bound (fun _ => 0) (fun _ => True) skipAll := by
  apply contract_fix
  intro left more _ contract
  apply contract_bind (contract_ahead _)
  intro kind _
  apply contract_ite
  · intro _
    apply contract_bind (contract_parse read)
    intro _ _
    exact contract
  · intro _
    exact contract_pure rfl trivial

end Read

section Unread

variable {file : List Token} {bound : Nat}

theorem Modifier.contract_next? :
    Contract file bound (fun found => found.isSome.toNat) (fun _ => True) next? := by
  apply contract_of_total
  intro tokens _
  cases tokens with
  | nil => exact ⟨none, [], rfl, List.suffix_refl _, le_refl _, trivial⟩
  | cons token rest =>
    rw [next?]
    split
    · exact ⟨_, _, rfl, List.suffix_cons _ _, le_refl _, trivial⟩
    · exact ⟨_, _, rfl, List.suffix_refl _, le_refl _, trivial⟩

theorem Modifier.contract_withSetter (modifier : Modifier) :
    Contract file bound (fun _ => 0) (fun _ => True) modifier.withSetter := by
  cases modifier with
  | access level =>
    apply contract_choice
    · apply contract_bind (contract_acceptIf _)
      intro _ _
      apply contract_bind (contract_expect _ (by decide))
      intro _ _
      exact contract_pure (by omega) trivial
    · exact contract_pure rfl trivial
  | _ => exact contract_pure rfl trivial

theorem Modifier.contract_parseAll :
    Contract file bound (fun _ => 0) (fun _ => True) parseAll := by
  apply contract_fix
  intro left more _ contract
  apply contract_bind contract_next?
  intro found _
  cases found with
  | none => exact contract_pure rfl trivial
  | some modifier =>
    apply contract_bind (contract_withSetter modifier)
    intro first _
    apply contract_bind contract
    intro later _
    exact contract_pure rfl trivial

namespace TypeExpr

theorem dropPassing_suffix (tokens : List Token) : dropPassing tokens <:+ tokens := by
  induction tokens with
  | nil => exact List.suffix_refl _
  | cons token rest ih =>
    rw [dropPassing]
    split
    · exact ih.trans (List.suffix_cons _ _)
    · exact List.suffix_refl _

theorem contract_skipPassing : Contract file bound (fun _ => 0) (fun _ => True) skipPassing :=
  contract_of_total fun tokens _ =>
    ⟨(), _, rfl, dropPassing_suffix tokens, (dropPassing_suffix tokens).length_le, trivial⟩

theorem contract_label? : Contract file bound (fun _ => 0) (fun _ => True) label? := by
  apply contract_of_total
  intro tokens _
  have kept : ∀ label {rest : List Token}, rest <:+ tokens → ∃ found after,
      (Except.ok (label, rest) : Except Mismatch (Option String × List Token)) = .ok (found, after) ∧
        after <:+ tokens ∧ after.length + 0 ≤ tokens.length ∧ True :=
    fun label rest tail => ⟨label, rest, rfl, tail, tail.length_le, trivial⟩
  cases tokens with
  | nil => exact kept none (List.suffix_refl _)
  | cons token rest =>
    rw [label?]
    split
    · exact kept _ ((List.drop_suffix _ _).trans (List.suffix_cons _ _))
    split
    · split
      · exact kept _ ((List.drop_suffix _ _).trans (List.suffix_cons _ _))
      · exact kept _ (List.suffix_refl _)
    · exact kept _ (List.suffix_refl _)

theorem contract_variadicDots : Contract file bound (fun _ => 0) (fun _ => True) variadicDots := by
  apply contract_choice
  · exact contract_dropWhile _
  · exact contract_pure rfl trivial

theorem contract_skipThrownType :
    Contract file bound (fun _ => 0) (fun _ => True) skipThrownType := by
  apply contract_choice
  · exact contract_closeGroup_bind _ (contract_pure rfl trivial)
  · exact contract_pure rfl trivial

theorem contract_effects : Contract file bound (fun _ => 0) (fun _ => True) effects := by
  apply contract_fix
  intro left more _ contract
  apply contract_choice
  · apply contract_bind contract
    intro _ _
    exact contract_pure rfl trivial
  apply contract_choice
  · apply contract_bind contract_skipThrownType
    intro _ _
    apply contract_bind contract
    intro _ _
    exact contract_pure rfl trivial
  · exact contract_pure rfl trivial

/-- The marks after a type are an end of the input away, and keep it well formed. -/
theorem suffixed_keeps {base : TypeExpr} (wellFormed : base.WellFormed) (tokens : List Token) :
    (suffixed base tokens).2 <:+ tokens ∧ (suffixed base tokens).1.WellFormed := by
  fun_induction suffixed base tokens with
  | case1 => exact ⟨List.suffix_refl _, wellFormed⟩
  | case2 base token rest _ ih =>
    obtain ⟨tail, kept⟩ := ih wellFormed.optional
    exact ⟨tail.trans (List.suffix_cons _ _), kept⟩
  | case3 base token rest _ _ ih =>
    obtain ⟨tail, kept⟩ := ih wellFormed.implicitlyUnwrapped
    exact ⟨tail.trans (List.suffix_cons _ _), kept⟩
  | case4 => exact ⟨List.suffix_refl _, wellFormed⟩
  | case5 base token _ _ _ word after kind _ ih =>
    obtain ⟨tail, kept⟩ := ih wellFormed.metatype
    exact ⟨tail.trans ⟨[token, word], rfl⟩, kept⟩
  | case6 => exact ⟨List.suffix_refl _, wellFormed⟩
  | case7 => exact ⟨List.suffix_refl _, wellFormed⟩

theorem contract_suffixed {base : TypeExpr} (wellFormed : base.WellFormed) :
    Contract file bound (fun _ => 0) WellFormed fun tokens => .ok (suffixed base tokens) :=
  contract_of_total fun tokens _ =>
    have ⟨tail, kept⟩ := suffixed_keeps wellFormed tokens
    ⟨_, _, rfl, tail, tail.length_le, kept⟩

theorem not_isMetatype_of_ofToken? {token : Token} {component : TypeComponent TypeExpr}
    (named : Name.ofToken? token = some component.name)
    (noMetatype : (Metatype.ofToken? token).isNone = true) : ¬component.IsMetatype := by
  have other : ∀ word, component.name = .plain word → token.kind = .identifier ∧ token.text = word := by
    intro word same
    rw [same] at named
    unfold Name.ofToken? at named
    split at named
    · next isWord =>
      unfold Name.ofWord at named
      split at named
      · cases named
      · cases named
        exact ⟨isWord, rfl⟩
    · cases named
    · cases named
  rintro (isType | isProtocol)
  · obtain ⟨isWord, text⟩ := other _ isType
    simp [Metatype.ofToken?, isWord, text, Metatype.ofKeyword?] at noMetatype
  · obtain ⟨isWord, text⟩ := other _ isProtocol
    simp [Metatype.ofToken?, isWord, text, Metatype.ofKeyword?] at noMetatype

theorem component_ok {inner : Parser TypeExpr} {tokens rest : List Token}
    {read : TypeComponent TypeExpr} (parsed : component inner tokens = .ok (read, rest)) :
    ∃ token later, tokens = token :: later ∧ Name.ofToken? token = some read.name := by
  obtain ⟨name, between, named, continued⟩ := bind_ok parsed
  obtain ⟨token, rfl, spelled⟩ := Name.parse_ok named
  refine ⟨token, between, rfl, ?_⟩
  obtain ⟨touching, after, -, finished⟩ := bind_ok continued
  split at finished
  · obtain ⟨arguments, opened, -, finished⟩ := bind_ok finished
    obtain ⟨mark, closed, -, finished⟩ := bind_ok finished
    cases finished
    exact spelled
  · cases finished
    exact spelled

/-- A path goes on with names only that are no metatypes. -/
theorem path_later {inner : Parser TypeExpr} {tokens rest : List Token} {read : TypePath}
    (parsed : path inner tokens = .ok (read, rest)) :
    ∀ component ∈ read.tail, ¬component.IsMetatype := by
  refine (fix_ok (motive := fun tokens (read : TypePath) _ =>
    (∃ first later token after, read = first :: later ∧ tokens = token :: after ∧
      Name.ofToken? token = some first.name) ∧ ∀ component ∈ read.tail, ¬component.IsMetatype)
    ?_ parsed).2
  intro more reads tokens read rest parsed
  obtain ⟨first, between, readFirst, continued⟩ := bind_ok parsed
  obtain ⟨token, later, rfl, named⟩ := component_ok readFirst
  obtain ⟨accepted, after, took, decided⟩ := bind_ok continued
  rcases acceptIf_ok took with ⟨dot, rfl, rfl, continues⟩ | ⟨rfl, rfl⟩
  · rw [if_pos rfl] at decided
    obtain ⟨others, left, readMore, finished⟩ := bind_ok decided
    cases finished
    obtain ⟨⟨second, further, next, remains, rfl, rfl, namedNext⟩, noMetatypes⟩ := reads readMore
    refine ⟨⟨first, _, token, later, rfl, rfl, named⟩, ?_⟩
    rintro component (_ | ⟨_, member⟩)
    · simp only [continuesPath, Bool.and_eq_true] at continues
      exact not_isMetatype_of_ofToken? namedNext continues.2.2
    · exact noMetatypes component member
  · cases decided
    exact ⟨⟨first, [], token, later, rfl, rfl, named⟩, by simp⟩

theorem wellFormed_ofParts {first : TypeExpr} {others : List TypeExpr}
    (wellFormed : first.WellFormed) (wellFormedOthers : ∀ part ∈ others, part.WellFormed) :
    (ofParts first others).WellFormed := by
  cases others with
  | nil => exact wellFormed
  | cons second others =>
    exact .composition (by simp) (List.forall_mem_cons.mpr ⟨wellFormed, wellFormedOthers⟩)

end TypeExpr
end Unread

namespace TypeExpr

section Nested

variable {source : String} {file : List Token} {bound : Nat} {inner : Parser TypeExpr}
  (read : Token.ReadFrom source file)
  (nested : Contract file bound (fun _ => 1) WellFormed inner)

include nested

theorem contract_arguments :
    Contract file bound (fun _ => 1) (fun types => ∀ type ∈ types, type.WellFormed)
      (arguments inner) := by
  apply contract_fix
  intro left more within contract
  apply contract_bind (nested.mono (by omega))
  intro argument wellFormed
  apply contract_choice
  · apply contract_bind (contract.mono (by omega))
    intro later wellFormedLater
    exact contract_pure rfl (List.forall_mem_cons.mpr ⟨wellFormed, wellFormedLater⟩)
  · exact contract_pure rfl (by simpa using wellFormed)

theorem contract_arrayOrDictionary {first : TypeExpr} (wellFormed : first.WellFormed) :
    Contract file bound (fun _ => 0) WellFormed (arrayOrDictionary inner first) := by
  apply contract_choice
  · apply contract_bind (nested.mono (by omega))
    intro value wellFormedValue
    exact contract_pure rfl (.dictionary wellFormed wellFormedValue)
  · exact contract_pure rfl (.array wellFormed)

theorem contract_bracketed : Contract file bound (fun _ => 0) WellFormed (bracketed inner) := by
  apply contract_bind contract_newlines
  intro _ _
  apply contract_bind nested
  intro first wellFormed
  apply contract_bind contract_newlines
  intro _ _
  apply contract_bind (contract_arrayOrDictionary (nested.mono (by omega)) wellFormed)
  intro type wellFormedType
  apply contract_bind contract_newlines
  intro _ _
  apply contract_bind (contract_expect _ (by decide))
  intro _ _
  exact contract_pure rfl wellFormedType

include read

theorem contract_component :
    Contract file (bound + 1) (fun _ => 1)
      (fun component => component.name.WellFormed ∧
        ∀ argument ∈ component.arguments, argument.WellFormed)
      (component inner) := by
  apply contract_bind (contract_name read)
  intro name named
  apply contract_choice
  · apply contract_bind (contract_arguments (nested.mono (by omega)))
    intro arguments wellFormed
    apply contract_bind (contract_expect _ (by decide))
    intro _ _
    exact contract_pure rfl ⟨named, wellFormed⟩
  · exact contract_pure rfl ⟨named, by simp⟩

theorem contract_path :
    Contract file (bound + 1) (fun _ => 1) TypePath.WellFormed (path inner) := by
  have components : Contract file (bound + 1) (fun _ => 1)
      (fun read => read ≠ [] ∧ ∀ component ∈ read, component.name.WellFormed ∧
        ∀ argument ∈ component.arguments, argument.WellFormed) (path inner) := by
    apply contract_fix
    intro left more within contract
    apply contract_bind ((contract_component read nested).mono (by omega))
    intro first wellFormed
    apply contract_choice
    · apply contract_bind (contract.mono (by omega))
      intro later wellFormedLater
      exact contract_pure rfl
        ⟨by simp, List.forall_mem_cons.mpr ⟨wellFormed, wellFormedLater.2⟩⟩
    · exact contract_pure rfl ⟨by simp, by simpa using wellFormed⟩
  refine (components.and fun _ parsed => path_later parsed).weaken ?_
  rintro read ⟨⟨filled, wellFormed⟩, later⟩
  exact ⟨le_refl _, .named ⟨filled, fun component member => (wellFormed component member).1, later⟩
    fun component member => (wellFormed component member).2⟩

theorem contract_element :
    Contract file bound (fun _ => 1) (fun element => element.type.WellFormed) (element inner) := by
  apply contract_bind contract_label?
  intro label _
  apply contract_bind nested
  intro type wellFormed
  apply contract_bind (contract_initializer? read)
  intro _ _
  apply contract_bind contract_variadicDots
  intro _ _
  exact contract_pure rfl wellFormed

theorem contract_elements :
    Contract file bound (fun _ => 0) TupleType.WellFormed (elements inner) := by
  apply contract_fix
  intro left more within contract
  apply contract_bind contract_newlines
  intro _ _
  apply contract_choice
  · exact contract_pure rfl (by simp [TupleType.WellFormed])
  apply contract_bind ((contract_element read nested).mono (by omega))
  intro first wellFormed
  apply contract_bind contract_newlines
  intro _ _
  apply contract_choice
  · apply contract_bind (contract.mono (by omega))
    intro later wellFormedLater
    exact contract_pure rfl (List.forall_mem_cons.mpr ⟨wellFormed, wellFormedLater⟩)
  · apply contract_bind (contract_expect _ (by decide))
    intro _ _
    exact contract_pure rfl (by simpa [TupleType.WellFormed] using wellFormed)

theorem contract_parenthesized :
    Contract file bound (fun _ => 0) WellFormed (parenthesized inner) := by
  apply contract_bind (contract_elements read nested)
  intro elements wellFormed
  apply contract_bind contract_effects
  intro _ _
  apply contract_choice
  · apply contract_bind (nested.mono (by omega))
    intro result wellFormedResult
    exact contract_pure rfl (.function wellFormed wellFormedResult)
  · exact contract_pure rfl (wellFormed_ofElements wellFormed)

theorem contract_primary : Contract file (bound + 1) (fun _ => 1) WellFormed (primary inner) := by
  apply contract_choice
  · exact contract_parenthesized read nested
  apply contract_choice
  · exact contract_bracketed nested
  apply contract_bind (contract_ahead _)
  intro startsName _
  apply contract_ite
  · intro _
    apply contract_bind (contract_path read nested)
    intro path wellFormed
    exact contract_pure rfl wellFormed
  · intro _
    exact contract_fail (by decide)

theorem contract_part : Contract file (bound + 1) (fun _ => 1) WellFormed (part inner) := by
  apply contract_fix
  intro left more within contract
  apply contract_choice
  · apply contract_bind contract
    intro constraint wellFormed
    exact contract_pure rfl (.someOf wellFormed)
  apply contract_choice
  · apply contract_bind contract
    intro constraint wellFormed
    exact contract_pure rfl (.anyOf wellFormed)
  apply contract_bind ((contract_primary read nested).mono (by omega))
  intro base wellFormed
  exact contract_suffixed wellFormed

theorem contract_furtherParts :
    Contract file (bound + 1) (fun _ => 0) (fun types => ∀ type ∈ types, type.WellFormed)
      (furtherParts inner) := by
  apply contract_fix
  intro left more within contract
  apply contract_choice
  · apply contract_bind ((contract_part read nested).mono (by omega))
    intro next wellFormed
    apply contract_bind (contract.mono (by omega))
    intro later wellFormedLater
    exact contract_pure rfl (List.forall_mem_cons.mpr ⟨wellFormed, wellFormedLater⟩)
  · exact contract_pure rfl (by simp)

theorem contract_step : Contract file (bound + 1) (fun _ => 1) WellFormed (step inner) := by
  apply contract_bind (Attribute.contract_skipAll read)
  intro _ _
  apply contract_bind contract_skipPassing
  intro _ _
  apply contract_bind (contract_part read nested)
  intro first wellFormed
  apply contract_bind ((contract_furtherParts read nested).mono (by omega))
  intro others wellFormedOthers
  exact contract_pure rfl (wellFormed_ofParts wellFormed wellFormedOthers)

end Nested

section Read

variable {source : String} {file : List Token} {bound : Nat}
  (read : Token.ReadFrom source file)

include read

theorem contract_parse : Contract file bound (fun _ => 1) WellFormed parse := by
  apply contract_fix
  intro left more within contract
  exact contract_step read contract

theorem contract_afterColon? :
    Contract file bound (fun _ => 0) (fun typing => ∀ type ∈ typing, type.WellFormed)
      afterColon? := by
  apply contract_choice
  · apply contract_bind (contract_parse read)
    intro type wellFormed
    exact contract_pure rfl (by simpa using wellFormed)
  · exact contract_pure rfl (by simp)

end Read
end TypeExpr
end SwiftLens
