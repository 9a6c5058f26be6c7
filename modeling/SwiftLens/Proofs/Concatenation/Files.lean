import Mathlib.Data.List.Basic
import SwiftLens.Proofs.Concatenation.Declarations
import SwiftLens.Proofs.Concatenation.Tokens
import SwiftLens.SourceFile

namespace SwiftLens

open SwiftLens.Parser

def IgnoresGap {α : Type} (parser : Parser α) : Prop :=
  ∀ (gap : String) {token : Token} {rest left : List Token} {value : α},
    parser (token :: rest) = .ok (value, left) →
      parser (token.regapped gap :: rest) = .ok (value, left) ∨
        (left = token :: rest ∧
          parser (token.regapped gap :: rest) = .ok (value, token.regapped gap :: rest))

section IgnoresGap

variable {α β : Type}

theorem ignoresGap_pure (value : α) : IgnoresGap (pure value : Parser α) := by
  intro gap token rest left found parsed
  cases parsed
  exact .inr ⟨rfl, rfl⟩

theorem ignoresGap_fail (expected : String) : IgnoresGap (fail expected : Parser α) := by
  intro gap token rest left found parsed
  cases parsed

theorem ignoresGap_bind {first : Parser α} {next : α → Parser β} (ignores : IgnoresGap first)
    (ignoresNext : ∀ value, IgnoresGap (next value)) : IgnoresGap (first >>= next) := by
  intro gap token rest left value parsed
  obtain ⟨middle, between, read, continued⟩ := bind_ok parsed
  rcases ignores gap read with same | ⟨rfl, kept⟩
  · rw [bind_of_ok same]
    exact .inl continued
  · rw [bind_of_ok kept]
    exact ignoresNext middle gap continued

theorem ignoresGap_ite {condition : Prop} [Decidable condition] {yes no : Parser α}
    (ignoresYes : IgnoresGap yes) (ignoresNo : IgnoresGap no) :
    IgnoresGap (if condition then yes else no) := by
  split
  · exact ignoresYes
  · exact ignoresNo

theorem ignoresGap_fix {step : Parser α → Parser α}
    (ignores : ∀ {inner : Parser α}, IgnoresGap inner → IgnoresGap (step inner)) :
    IgnoresGap (fix step) := by
  have within : ∀ depth, IgnoresGap (fixWithin step depth) := by
    intro depth
    induction depth with
    | zero => exact ignoresGap_fail ""
    | succ depth ih => exact ignores ih
  intro gap token rest left value parsed
  exact within (rest.length + 1 + 1) gap parsed

theorem ignoresGap_dropWhile {passes : Token → Bool}
    (alike : ∀ gap token, passes (Token.regapped gap token) = passes token) :
    IgnoresGap (dropWhile passes) := by
  intro gap token rest left value parsed
  have same := alike gap token
  cases parsed
  by_cases passed : passes token = true
  · left
    simp [dropWhile, passed, same]
  · right
    simp [dropWhile, passed, same]

theorem ignoresGap_nextKind : IgnoresGap nextKind := by
  intro gap token rest left value parsed
  cases parsed
  exact .inr ⟨rfl, rfl⟩

theorem ignoresGap_acceptIf {passes : Token → List Token → Bool}
    (alike : ∀ gap token rest, passes (Token.regapped gap token) rest = passes token rest) :
    IgnoresGap (acceptIf passes) := by
  intro gap token rest left value parsed
  have same := alike gap token rest
  simp only [acceptIf, bind_apply, takeIf_cons, same] at parsed ⊢
  split at parsed
  · next failed => split at failed <;> cases failed
  · next taken =>
    split at taken
    · next passed =>
      cases taken
      cases parsed
      rw [if_pos passed]
      exact .inl rfl
    · next other =>
      cases taken
      cases parsed
      rw [if_neg other]
      exact .inr ⟨rfl, rfl⟩

theorem ignoresGap_expect_bind {kind : Token.Kind} {expected : String} {next : Parser α} :
    IgnoresGap (expect kind expected >>= fun _ => next) := by
  intro gap token rest left value parsed
  obtain ⟨found, between, read, continued⟩ := bind_ok parsed
  obtain ⟨same, isKind⟩ := expect_ok read
  cases same
  left
  have taken : expect kind expected (token.regapped gap :: rest) =
      .ok (token.regapped gap, rest) := by
    simp [expect, bind_apply, takeIf_cons, Token.regapped, isKind]
    rfl
  rw [bind_of_ok taken]
  exact continued

end IgnoresGap

theorem Attribute.ignoresGap_parseAll : IgnoresGap parseAll := by
  refine ignoresGap_fix fun ignores => ?_
  refine ignoresGap_bind ignoresGap_nextKind fun _ => ignoresGap_ite ?_ (ignoresGap_pure [])
  refine ignoresGap_bind ignoresGap_expect_bind fun first => ?_
  refine ignoresGap_bind (ignoresGap_dropWhile fun _ _ => rfl) fun _ => ?_
  exact ignoresGap_bind ignores fun _ => ignoresGap_pure _

theorem Modifier.ignoresGap_next? : IgnoresGap next? := by
  intro gap token rest left value parsed
  have same : leading? (token.regapped gap) rest = leading? token rest := rfl
  simp only [next?, same] at parsed ⊢
  split at parsed
  · cases parsed
    exact .inl rfl
  · cases parsed
    exact .inr ⟨rfl, rfl⟩

theorem Modifier.ignoresGap_withSetter (modifier : Modifier) : IgnoresGap modifier.withSetter := by
  cases modifier with
  | access level =>
    refine ignoresGap_bind (ignoresGap_acceptIf fun _ _ _ => rfl) fun _ =>
      ignoresGap_ite ?_ (ignoresGap_pure _)
    refine ignoresGap_bind (ignoresGap_acceptIf fun _ _ _ => rfl) fun _ => ?_
    exact ignoresGap_expect_bind
  | _ => exact ignoresGap_pure _

theorem Modifier.ignoresGap_parseAll : IgnoresGap parseAll := by
  refine ignoresGap_fix fun ignores => ?_
  refine ignoresGap_bind ignoresGap_next? ?_
  rintro (_ | modifier)
  · exact ignoresGap_pure []
  · refine ignoresGap_bind (ignoresGap_withSetter modifier) fun _ => ?_
    exact ignoresGap_bind ignores fun _ => ignoresGap_pure _

namespace Declaration

theorem ignoresGap_keyword_bind {α : Type} {next : Keyword → Parser α} :
    IgnoresGap (keyword >>= next) := by
  intro gap token rest left value parsed
  obtain ⟨found, between, read, continued⟩ := bind_ok parsed
  obtain ⟨first, same, stands⟩ := keyword_ok read
  cases same
  left
  have taken : keyword (token.regapped gap :: rest) = .ok (found, rest) := by
    have standsHere : Keyword.ofToken? (token.regapped gap) = some found := stands
    simp [keyword, bind_apply, takeIf_cons, standsHere]
    rfl
  rw [bind_of_ok taken]
  exact continued

theorem ignoresGap_parse : IgnoresGap parse := by
  refine ignoresGap_bind ignoresGap_nextKind fun _ => ignoresGap_ite ignoresGap_expect_bind ?_
  refine ignoresGap_bind Attribute.ignoresGap_parseAll fun attributes => ?_
  refine ignoresGap_bind Modifier.ignoresGap_parseAll fun modifiers => ?_
  exact ignoresGap_bind (ignoresGap_fix fun _ => ignoresGap_keyword_bind) fun _ => ignoresGap_pure _

def listStep (more : Parser (List Declaration)) : Parser (List Declaration) := do
  separators
  if (← nextKind) = none then return []
  else
    let first ← parse
    return first :: (← more)

theorem parseAll_eq : parseAll = fix listStep :=
  rfl

theorem ignoresGap_parseAll : IgnoresGap parseAll := by
  refine ignoresGap_fix fun ignores => ?_
  refine ignoresGap_bind (ignoresGap_dropWhile fun _ _ => rfl) fun _ => ?_
  refine ignoresGap_bind ignoresGap_nextKind fun _ => ignoresGap_ite (ignoresGap_pure []) ?_
  refine ignoresGap_bind ignoresGap_parse fun first => ?_
  exact ignoresGap_bind ignores fun _ => ignoresGap_pure _

theorem parseAll_regapped {first : Token} {more rest : List Token} {declarations : List Declaration}
    (parsed : parseAll (first :: more).dropLast = .ok (declarations, rest)) (gap : String) :
    ∃ remains, parseAll (first.regapped gap :: more).dropLast = .ok (declarations, remains) := by
  cases more with
  | nil => exact ⟨rest, parsed⟩
  | cons second more =>
    rw [List.dropLast_cons_cons] at parsed ⊢
    rcases ignoresGap_parseAll gap parsed with same | ⟨-, kept⟩
    · exact ⟨_, same⟩
    · exact ⟨_, kept⟩

theorem simulates_listStep {inner outer : Parser (List Declaration)}
    (same : Simulates Eq Eq inner outer) : Simulates Eq Eq (listStep inner) (listStep outer) := by
  refine simulates_bind_eq (simulates_refl separators) fun _ => ?_
  refine simulates_bind_eq (simulates_refl nextKind) fun _ => simulates_ite (simulates_pure rfl) ?_
  refine simulates_bind_eq (simulates_refl parse) fun first => ?_
  exact simulates_bind_eq same fun _ => simulates_pure rfl

theorem fixWithin_mono {depth deeper : Nat} (within : depth ≤ deeper) {tokens rest : List Token}
    {declarations : List Declaration}
    (parsed : fixWithin listStep depth tokens = .ok (declarations, rest)) :
    fixWithin listStep deeper tokens = .ok (declarations, rest) := by
  have cut := simulates_fixWithin (fun _ => True) (fun _ => trivial) (fun _ => simulates_listStep)
    within
  obtain ⟨_, _, image, rfl, rfl⟩ := cut.reads rfl parsed
  exact image

theorem listStep_of_end {tokens : List Token} (ended : tokens.dropWhile Token.isSeparator = [])
    (more : Parser (List Declaration)) : listStep more tokens = .ok ([], []) := by
  rw [listStep, bind_of_ok (show separators tokens = .ok ((), []) from ended ▸ rfl)]
  rfl

theorem listStep_of_cons {tokens rest : List Token} {token : Token}
    (goesOn : tokens.dropWhile Token.isSeparator = token :: rest)
    (more : Parser (List Declaration)) :
    listStep more tokens =
      (parse >>= fun first => more >>= fun others => pure (first :: others)) (token :: rest) := by
  rw [listStep, bind_of_ok (show separators tokens = .ok ((), token :: rest) from goesOn ▸ rfl)]
  rfl

theorem listStep_congr {tokens others : List Token}
    (same : tokens.dropWhile Token.isSeparator = others.dropWhile Token.isSeparator)
    (more : Parser (List Declaration)) : listStep more tokens = listStep more others := by
  cases remains : others.dropWhile Token.isSeparator with
  | nil => rw [listStep_of_end remains, listStep_of_end (same.trans remains)]
  | cons token rest => rw [listStep_of_cons remains, listStep_of_cons (same.trans remains)]

/-- The declarations of the first file and then those of the second. -/
theorem fixWithin_joined {later tokens others rest restLater : List Token}
    {declarations declarationsLater : List Declaration} {depth depthLater deeper : Nat}
    (fresh : Fresh later) (joined : Joined later tokens others)
    (parsed : fixWithin listStep depth tokens = .ok (declarations, rest))
    (parsedLater : fixWithin listStep depthLater later = .ok (declarationsLater, restLater))
    (enough : depth + depthLater ≤ deeper + 1) :
    fixWithin listStep deeper others = .ok (declarations ++ declarationsLater, restLater) := by
  -- The last step in the first file finds no declaration there, and in the joined files it is the
  -- first step in the second file. So one step is shared.
  induction depth generalizing tokens others declarations deeper with
  | zero => cases parsed
  | succ depth ih =>
    have skips : ∀ {token : Token}, token.kind = .newline → token.isSeparator = true := by
      simp +contextual [Token.isSeparator]
    have onward := fixWithin_mono (show depthLater ≤ deeper by omega) parsedLater
    obtain _ | deeper := deeper
    · cases onward
    rw [fixWithin_succ] at parsed onward ⊢
    rcases joined.dropWhile skips with ⟨ended, same⟩ | ⟨token, after, remains, left, right, joined⟩
    · rw [listStep_of_end ended] at parsed
      cases parsed
      rw [listStep_congr same]
      exact onward
    · rw [listStep_of_cons left] at parsed
      rw [listStep_of_cons right]
      obtain ⟨first, between, read, continued⟩ := bind_ok parsed
      obtain ⟨more, final, readMore, finished⟩ := bind_ok continued
      cases finished
      obtain ⟨_, remains, image, rfl, joined⟩ :=
        (continues_parse fresh).reads (.cons token joined) read
      rw [bind_of_ok image, bind_of_ok (ih joined readMore (by omega))]
      rfl

end Declaration

namespace SourceFile

section Join

variable {source later : List Char} {tokens tokensLater rest restLater : List Token}
  {declarations declarationsLater : List Declaration}
  (scanned : Token.scan false source = .ok tokens)
  (scannedLater : Token.scan false later = .ok tokensLater)
  (read : Declaration.parseAll tokens.dropLast = .ok (declarations, rest))
  (readLater : Declaration.parseAll tokensLater.dropLast = .ok (declarationsLater, restLater))

include scanned scannedLater read readLater

/-- The tokens of two texts around a line feed are read as both alone. -/
theorem parseAll_join : ∃ together remains,
    Token.scan false (source ++ '\n' :: later) = .ok together ∧
      Declaration.parseAll together.dropLast = .ok (declarations ++ declarationsLater, remains) := by
  cases tokensLater with
  | nil => exact absurd rfl (Token.scan_ne_nil scannedLater)
  | cons first more =>
    rcases Token.scan_join scanned scannedLater with
      ⟨-, empty, gap, together⟩ | ⟨others, together, joined⟩
    -- Without a token in the first file, only the gap before the second one has grown.
    · obtain ⟨remains, again⟩ := Declaration.parseAll_regapped readLater gap
      have nothing : declarations = [] := by
        rw [empty] at read
        exact (congrArg Prod.fst (Except.ok.inj read)).symm
      rw [nothing, List.nil_append]
      exact ⟨_, remains, together, again⟩
    · obtain ⟨remains, again⟩ := Declaration.parseAll_regapped readLater ""
      have fresh : Fresh (first.regapped "" :: more).dropLast := ⟨_, _, again⟩
      have length := joined.length_add
      refine ⟨others, remains, together, ?_⟩
      rw [Declaration.parseAll_eq] at read again ⊢
      exact Declaration.fixWithin_joined fresh joined read again (by omega)

end Join

/-- A file that follows another one after a line feed adds its declarations. They are the same trees
as in the files alone, so every text that they keep is the same. -/
theorem parse_join {source later : String} {file next : SourceFile}
    (parsed : parse source = .ok file) (parsedLater : parse later = .ok next) :
    parse (source ++ "\n" ++ later) = .ok ⟨file.declarations ++ next.declarations⟩ := by
  obtain ⟨tokens, rest, scanned, read⟩ := parse_ok parsed
  obtain ⟨tokensLater, restLater, scannedLater, readLater⟩ := parse_ok parsedLater
  have joinedText : (source ++ "\n" ++ later).toList = source.toList ++ '\n' :: later.toList := by
    simp
  obtain ⟨together, remains, scannedTogether, all⟩ :=
    parseAll_join scanned scannedLater read readLater
  exact parse_of_ok (joinedText ▸ scannedTogether) all

def letFile : SourceFile :=
  ⟨[.letDeclaration .none [⟨.identifier (.plain "a") none, some "1"⟩]]⟩

def varFile : SourceFile :=
  ⟨[.varDeclaration .none (.stored [⟨.identifier (.plain "b") (some (.simple "T")), none⟩])]⟩

/-- The initializer of the first file ends at the line feed. -/
theorem parse_join_bindings : parse "let a = 1" = .ok letFile ∧ parse "var b: T" = .ok varFile ∧
    parse ("let a = 1" ++ "\n" ++ "var b: T") =
      .ok ⟨letFile.declarations ++ varFile.declarations⟩ := by
  have read : tokenize "let a = 1" =
      .ok [⟨.identifier, "", "let"⟩, ⟨.identifier, " ", "a"⟩, ⟨.equal, " ", "="⟩,
        ⟨.integer, " ", "1"⟩, ⟨.endOfFile, "", ""⟩] := by decide +kernel
  have readLater : tokenize "var b: T" =
      .ok [⟨.identifier, "", "var"⟩, ⟨.identifier, " ", "b"⟩, ⟨.colon, "", ":"⟩,
        ⟨.identifier, " ", "T"⟩, ⟨.endOfFile, "", ""⟩] := by decide +kernel
  have parsed : parse "let a = 1" = .ok letFile := parse_of_ok (tokenize_ok read) rfl
  have parsedLater : parse "var b: T" = .ok varFile := parse_of_ok (tokenize_ok readLater) rfl
  exact ⟨parsed, parsedLater, parse_join parsed parsedLater⟩

end SourceFile
end SwiftLens
