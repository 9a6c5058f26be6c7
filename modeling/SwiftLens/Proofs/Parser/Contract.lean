import SwiftLens.Parser.Laws

namespace SwiftLens
namespace Parser

variable {α β : Type} {file : List Token} {bound : Nat} {least : α → Nat} {Good : α → Prop}

/-- What a parser may say it expected: something, as only a loop that is cut says nothing, and no
closing backtick, which scanning has to find. -/
def Tells (expected : String) : Prop :=
  expected ≠ "" ∧ expected ≠ "closing backtick"

instance (expected : String) : Decidable (Tells expected) :=
  inferInstanceAs (Decidable (_ ∧ _))

structure Contract (file : List Token) (bound : Nat) (least : α → Nat) (Good : α → Prop)
    (parser : Parser α) : Prop where
  ok : ∀ {tokens : List Token} {value : α} {rest : List Token}, tokens <:+ file →
    tokens.length < bound → parser tokens = .ok (value, rest) →
      rest <:+ tokens ∧ rest.length + least value ≤ tokens.length ∧ Good value
  error : ∀ {tokens : List Token} {mismatch : Mismatch}, tokens <:+ file →
    tokens.length < bound → parser tokens = .error mismatch →
      mismatch.rest <:+ tokens ∧ Tells mismatch.expected

theorem Contract.mono {wider : Nat} {parser : Parser α}
    (contract : Contract file wider least Good parser) (within : bound ≤ wider) :
    Contract file bound least Good parser where
  ok inFile fewer parsed := contract.ok inFile (by omega) parsed
  error inFile fewer failed := contract.error inFile (by omega) failed

theorem Contract.weaken {fewer : α → Nat} {Fair : α → Prop} {parser : Parser α}
    (contract : Contract file bound least Good parser)
    (weaker : ∀ value, Good value → fewer value ≤ least value ∧ Fair value) :
    Contract file bound fewer Fair parser where
  ok inFile within parsed := by
    obtain ⟨tail, shorter, good⟩ := contract.ok inFile within parsed
    obtain ⟨cheaper, fair⟩ := weaker _ good
    exact ⟨tail, by omega, fair⟩
  error inFile within failed := contract.error inFile within failed

/-- What is known of the values from elsewhere. -/
theorem Contract.and {Fact : α → Prop} {parser : Parser α}
    (contract : Contract file bound least Good parser)
    (fact : ∀ {tokens : List Token} {value : α} {rest : List Token}, tokens <:+ file →
      parser tokens = .ok (value, rest) → Fact value) :
    Contract file bound least (fun value => Good value ∧ Fact value) parser where
  ok inFile within parsed := by
    obtain ⟨tail, shorter, good⟩ := contract.ok inFile within parsed
    exact ⟨tail, shorter, good, fact inFile parsed⟩
  error inFile within failed := contract.error inFile within failed

/-- A parser that fails nowhere and reads an end of its input. -/
theorem contract_of_total {parser : Parser α}
    (reads : ∀ tokens, tokens <:+ file → ∃ value rest, parser tokens = .ok (value, rest) ∧
      rest <:+ tokens ∧ rest.length + least value ≤ tokens.length ∧ Good value) :
    Contract file bound least Good parser where
  ok {tokens value rest} inFile _ parsed := by
    obtain ⟨found, remains, read, kept⟩ := reads tokens inFile
    rw [parsed] at read
    cases read
    exact kept
  error {tokens mismatch} inFile _ failed := by
    obtain ⟨found, remains, read, -⟩ := reads tokens inFile
    rw [failed] at read
    cases read

theorem contract_pure {value : α} (free : least value = 0) (good : Good value) :
    Contract file bound least Good (pure value) :=
  contract_of_total fun tokens _ => ⟨value, tokens, rfl, List.suffix_refl _, by omega, good⟩

theorem contract_fail {expected : String} (told : Tells expected) :
    Contract file bound least Good (fail expected) where
  ok _ _ parsed := by cases parsed
  error _ _ failed := by
    cases failed
    exact ⟨List.suffix_refl _, told⟩

theorem contract_ahead (view : List Token → α) :
    Contract file bound (fun _ => 0) (fun _ => True) (ahead view) :=
  contract_of_total fun tokens _ => ⟨_, tokens, rfl, List.suffix_refl _, by omega, trivial⟩

theorem contract_dropWhile (passes : Token → Bool) :
    Contract file bound (fun _ => 0) (fun _ => True) (dropWhile passes) :=
  contract_of_total fun _ _ =>
    ⟨(), _, rfl, List.dropWhile_suffix _, (List.dropWhile_suffix _).length_le, trivial⟩

theorem contract_takeWhile (passes : Token → Bool) :
    Contract file bound List.length (fun run => run <:+: file ∧ ∀ token ∈ run, passes token = true)
      (takeWhile passes) := by
  apply contract_of_total
  intro tokens inFile
  have count := congrArg List.length (tokens.takeWhile_append_dropWhile (p := passes))
  rw [List.length_append] at count
  have starts : tokens.takeWhile passes <+: tokens := List.takeWhile_prefix passes
  exact ⟨_, _, rfl, List.dropWhile_suffix _, by omega, starts.isInfix.trans inFile.isInfix,
    List.all_eq_true.mp List.all_takeWhile⟩

theorem contract_takeIf (passes : Token → List Token → Bool) :
    Contract file bound (fun found => found.isSome.toNat)
      (fun found => ∀ token, found = some token → token ∈ file ∧ ∃ rest, passes token rest = true)
      (takeIf passes) := by
  apply contract_of_total
  intro tokens inFile
  cases tokens with
  | nil => exact ⟨none, [], rfl, List.suffix_refl _, by simp, by simp⟩
  | cons token rest =>
    rw [takeIf_cons]
    split
    · next passed =>
      refine ⟨some token, rest, rfl, List.suffix_cons _ _, by simp, ?_⟩
      rintro _ ⟨⟩
      exact ⟨inFile.subset List.mem_cons_self, rest, passed⟩
    · exact ⟨none, token :: rest, rfl, List.suffix_refl _, by simp, by simp⟩

/-- What the first parser costs is spared for the next one. -/
theorem contract_bind {cost : β → Nat} {Fair : β → Prop} {first : Parser α} {next : α → Parser β}
    (contract : Contract file bound least Good first)
    (later : ∀ value, Good value →
      Contract file (bound - least value) (fun found => cost found - least value) Fair
        (next value)) :
    Contract file bound cost Fair (first >>= next) where
  ok inFile fewer parsed := by
    obtain ⟨value, between, found, continued⟩ := bind_ok parsed
    obtain ⟨tail, shorter, good⟩ := contract.ok inFile fewer found
    obtain ⟨tailLater, shorterLater, fair⟩ :=
      (later value good).ok (tail.trans inFile) (by omega) continued
    exact ⟨tailLater.trans tail, by omega, fair⟩
  error inFile fewer failed := by
    rw [bind_apply] at failed
    split at failed
    · next failedFirst =>
      cases failed
      exact contract.error inFile fewer failedFirst
    · next value between found =>
      obtain ⟨tail, shorter, good⟩ := contract.ok inFile fewer found
      obtain ⟨tailLater, told⟩ := (later value good).error (tail.trans inFile) (by omega) failed
      exact ⟨tailLater.trans tail, told⟩

theorem contract_ite {condition : Prop} [Decidable condition] {yes no : Parser α}
    (contractYes : condition → Contract file bound least Good yes)
    (contractNo : ¬condition → Contract file bound least Good no) :
    Contract file bound least Good (if condition then yes else no) := by
  split
  · next holds => exact contractYes holds
  · next fails => exact contractNo fails

theorem contract_acceptIf (passes : Token → List Token → Bool) :
    Contract file bound Bool.toNat (fun _ => True) (acceptIf passes) := by
  apply contract_bind (contract_takeIf passes)
  intro found _
  exact contract_pure (Nat.sub_self _) trivial

/-- A token that is accepted is spared for what follows it. -/
theorem contract_choice {passes : Token → List Token → Bool} {yes no : Parser α}
    (contractYes : Contract file (bound - 1) (fun value => least value - 1) Good yes)
    (contractNo : Contract file bound least Good no) :
    Contract file bound least Good
      (acceptIf passes >>= fun accepted => if accepted = true then yes else no) := by
  apply contract_bind (contract_acceptIf passes)
  intro accepted _
  cases accepted with
  | true => exact contractYes
  | false => exact contractNo

theorem contract_expect (kind : Token.Kind) {expected : String} (told : Tells expected) :
    Contract file bound (fun _ => 1) (fun token => token ∈ file ∧ token.kind = kind)
      (expect kind expected) := by
  apply contract_bind (contract_takeIf _)
  intro found good
  cases found with
  | some token =>
    obtain ⟨member, rest, passed⟩ := good token rfl
    exact contract_pure rfl ⟨member, by simpa using passed⟩
  | none => exact contract_fail told

/-- A loop whose rounds keep the contract, each with fewer tokens than the one before. -/
theorem contract_fix {step : Parser α → Parser α}
    (round : ∀ {left : Nat} {more : Parser α}, left < bound → Contract file left least Good more →
      Contract file (left + 1) least Good (step more)) :
    Contract file bound least Good (fix step) := by
  have within : ∀ depth, Contract file (min depth bound) least Good (fixWithin step depth) := by
    intro depth
    induction depth with
    | zero =>
      rw [Nat.zero_min]
      exact ⟨fun _ fewer => absurd fewer (Nat.not_lt_zero _),
        fun _ fewer => absurd fewer (Nat.not_lt_zero _)⟩
    | succ depth ih =>
      obtain _ | bound := bound
      · exact ⟨fun _ fewer => by omega, fun _ fewer => by omega⟩
      · exact (round (by omega) (ih.mono (by omega : min depth bound ≤ _))).mono (by omega)
  constructor
  · intro tokens value rest inFile fewer parsed
    exact (within (tokens.length + 1)).ok inFile (by omega) parsed
  · intro tokens mismatch inFile fewer failed
    exact (within (tokens.length + 1)).error inFile (by omega) failed

/-- What every round of a loop keeps, told of the input, the value and the rest. -/
theorem fix_ok {motive : List Token → α → List Token → Prop} {step : Parser α → Parser α}
    (round : ∀ {more : Parser α},
      (∀ {tokens value rest}, more tokens = .ok (value, rest) → motive tokens value rest) →
      ∀ {tokens value rest}, step more tokens = .ok (value, rest) → motive tokens value rest)
    {tokens rest : List Token} {value : α} (parsed : fix step tokens = .ok (value, rest)) :
    motive tokens value rest := by
  have within : ∀ depth {tokens value rest},
      fixWithin step depth tokens = .ok (value, rest) → motive tokens value rest := by
    intro depth
    induction depth with
    | zero =>
      intro tokens value rest parsed
      cases parsed
    | succ depth ih => exact round ih
  exact within _ parsed

end Parser
end SwiftLens
