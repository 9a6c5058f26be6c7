import SwiftLens.Parser.Laws
import SwiftLens.Parser.Skip

namespace SwiftLens

open SwiftLens.Parser

namespace Token

def brackets (opening : Kind) (tokens : List Token) : List Kind :=
  (tokens.map (·.kind)).filter fun kind => kind = opening ∨ kind = opening.closing

@[simp]
theorem brackets_append (opening : Kind) (front back : List Token) :
    brackets opening (front ++ back) = brackets opening front ++ brackets opening back := by
  simp [brackets]

structure Closes (opening : Kind) (depth : Nat) (kinds : List Kind) : Prop where
  within : ∀ size ≤ kinds.length,
    (kinds.take size).count opening.closing ≤ depth + (kinds.take size).count opening
  whole : kinds.count opening.closing = depth + kinds.count opening

instance (opening : Kind) (depth : Nat) (kinds : List Kind) :
    Decidable (Closes opening depth kinds) :=
  decidable_of_iff
    ((∀ size ≤ kinds.length,
        (kinds.take size).count opening.closing ≤ depth + (kinds.take size).count opening) ∧
      kinds.count opening.closing = depth + kinds.count opening)
    ⟨fun ⟨within, whole⟩ => ⟨within, whole⟩, fun ⟨within, whole⟩ => ⟨within, whole⟩⟩

/-- No beginning has more closing than opening brackets, and there are as many in all. -/
def Balanced (opening : Kind) (tokens : List Token) : Prop :=
  Closes opening 0 (brackets opening tokens)

instance (opening : Kind) (tokens : List Token) : Decidable (Balanced opening tokens) :=
  inferInstanceAs (Decidable (Closes opening 0 (brackets opening tokens)))

theorem Balanced.of_brackets {opening : Kind} {tokens others : List Token}
    (balanced : Balanced opening tokens) (same : brackets opening others = brackets opening tokens) :
    Balanced opening others := by
  unfold Balanced
  rw [same]
  exact balanced

section Closes

variable {opening : Kind} (paired : opening ≠ opening.closing) {depth : Nat} {kinds : List Kind}

include paired

theorem Closes.of_opening (closes : Closes opening depth (opening :: kinds)) :
    Closes opening (depth + 1) kinds where
  within size short := by
    have counted := closes.within (size + 1) (Nat.succ_le_succ short)
    rw [List.take_succ_cons, List.count_cons_of_ne paired, List.count_cons_self] at counted
    omega
  whole := by
    have counted := closes.whole
    rw [List.count_cons_of_ne paired, List.count_cons_self] at counted
    omega

theorem Closes.of_closing (closes : Closes opening depth (opening.closing :: kinds)) :
    ∃ outer, depth = outer + 1 ∧ Closes opening outer kinds := by
  have first := closes.within 1 (Nat.succ_le_succ (Nat.zero_le _))
  rw [List.take_succ_cons, List.count_cons_of_ne paired.symm, List.count_cons_self] at first
  obtain _ | outer := depth
  · simp at first
  refine ⟨outer, rfl, ?_, ?_⟩
  · intro size short
    have counted := closes.within (size + 1) (Nat.succ_le_succ short)
    rw [List.take_succ_cons, List.count_cons_of_ne paired.symm, List.count_cons_self] at counted
    omega
  · have counted := closes.whole
    rw [List.count_cons_of_ne paired.symm, List.count_cons_self] at counted
    omega

/-- The bracket behind balanced tokens is the one that closes the group. -/
theorem splitGroup_closes {inside : List Token}
    (closes : Closes opening depth (brackets opening inside)) {closing : Token}
    (isClosing : closing.kind = opening.closing) (rest : List Token) :
    splitGroup opening opening.closing depth (inside ++ closing :: rest) =
      some (inside ++ [closing], rest) := by
  induction inside generalizing depth with
  | nil =>
    have all := closes.whole
    obtain rfl : depth = 0 := by simpa [brackets] using all.symm
    simp [splitGroup, isClosing, paired.symm]
  | cons token inside ih =>
    simp only [List.cons_append, splitGroup]
    by_cases opens : token.kind = opening
    · have first : brackets opening (token :: inside) = opening :: brackets opening inside := by
        simp [brackets, opens]
      rw [first] at closes
      rw [if_pos opens, ih (closes.of_opening paired)]
      rfl
    · by_cases ends : token.kind = opening.closing
      · have first : brackets opening (token :: inside) =
            opening.closing :: brackets opening inside := by
          simp [brackets, ends]
        rw [first] at closes
        obtain ⟨outer, rfl, closesRest⟩ := closes.of_closing paired
        rw [if_neg opens, if_pos ends]
        dsimp only
        rw [ih closesRest]
        rfl
      · have first : brackets opening (token :: inside) = brackets opening inside := by
          simp [brackets, opens, ends]
        rw [first] at closes
        rw [if_neg opens, if_neg ends, ih closes]
        rfl

end Closes
end Token

theorem Parser.closeGroup_balanced {opening : Token.Kind} (paired : opening ≠ opening.closing)
    {inside : List Token} (balanced : Token.Balanced opening inside) {closing : Token}
    (isClosing : closing.kind = opening.closing) (rest : List Token) :
    closeGroup opening (inside ++ closing :: rest) = .ok (inside ++ [closing], rest) := by
  rw [closeGroup, Token.splitGroup_closes paired balanced isClosing]

inductive SignatureTokens : List Token → Prop
  | nil : SignatureTokens []
  | plain {token : Token} {rest : List Token}
      (stands : token.kind ∉
        [.leftParen, .leftBracket, .leftBrace, .rightBrace, .semicolon, .newline])
      (more : SignatureTokens rest) : SignatureTokens (token :: rest)
  | parameters {opening closing : Token} {inside rest : List Token}
      (opens : opening.kind = .leftParen) (balanced : Token.Balanced .leftParen inside)
      (closes : closing.kind = .rightParen) (more : SignatureTokens rest) :
      SignatureTokens (opening :: (inside ++ closing :: rest))

namespace Parser

theorem signatureStep_plain {token : Token}
    (stands : token.kind ∉
      [.leftParen, .leftBracket, .leftBrace, .rightBrace, .semicolon, .newline])
    (rest : List Token) : signatureStep (token :: rest) = .ok (none, rest) := by
  simp only [List.mem_cons, List.not_mem_nil, or_false, not_or] at stands
  obtain ⟨noParen, noBracket, noBrace, noEnd, noSemicolon, noBreak⟩ := stands
  have taken : inSignature token rest = true := by
    unfold inSignature
    split <;> simp_all
  rw [signatureStep, bind_of_ok (accept_of_ne noParen _), if_neg (by simp),
    bind_of_ok (accept_of_ne noBracket _), if_neg (by simp), bind_of_ok (accept_of_ne noBrace _),
    if_neg (by simp), bind_of_ok (acceptIf_of_pos taken), if_pos rfl]
  rfl

theorem signatureStep_parameters {opening closing : Token} {inside : List Token}
    (opens : opening.kind = .leftParen) (balanced : Token.Balanced .leftParen inside)
    (closes : closing.kind = .rightParen) (rest : List Token) :
    signatureStep (opening :: (inside ++ closing :: rest)) = .ok (none, rest) := by
  rw [signatureStep, bind_of_ok (accept_of_eq opens _), if_pos rfl,
    bind_of_ok (closeGroup_balanced (by decide) balanced closes rest)]
  rfl

theorem signatureStep_body {opening closing : Token} {inside : List Token}
    (opens : opening.kind = .leftBrace) (balanced : Token.Balanced .leftBrace inside)
    (closes : closing.kind = .rightBrace) (rest : List Token) :
    signatureStep (opening :: (inside ++ closing :: rest)) = .ok (some true, rest) := by
  rw [signatureStep, bind_of_ok (accept_of_ne (by simp [opens]) _), if_neg (by simp),
    bind_of_ok (accept_of_ne (by simp [opens]) _), if_neg (by simp),
    bind_of_ok (accept_of_eq opens _), if_pos rfl,
    bind_of_ok (closeGroup_balanced (by decide) balanced closes rest)]
  rfl

/-- What a signature does with the outcome of its first step. -/
theorem signature_steps : ∃ step, signature = fix step ∧ ∀ more tokens rest,
    (signatureStep tokens = .ok (none, rest) → step more tokens = more rest) ∧
      (signatureStep tokens = .ok (some true, rest) → step more tokens = .ok (true, rest)) :=
  ⟨_, rfl, fun _ _ _ => ⟨fun goesOn => bind_of_ok goesOn, fun ended => bind_of_ok ended⟩⟩

/-- A signature with its body is skipped up to the brace that closes the body. -/
theorem signature_body {front : List Token} (isSignature : SignatureTokens front)
    {opening closing : Token} {inside : List Token} (opens : opening.kind = .leftBrace)
    (balanced : Token.Balanced .leftBrace inside) (closes : closing.kind = .rightBrace)
    (rest : List Token) :
    signature (front ++ opening :: (inside ++ closing :: rest)) = .ok (true, rest) := by
  obtain ⟨step, isFix, steps⟩ := signature_steps
  -- Each step takes a token of the front at least, so its length bounds the depth.
  have within : ∀ depth, front.length < depth →
      fixWithin step depth (front ++ opening :: (inside ++ closing :: rest)) = .ok (true, rest) := by
    induction isSignature with
    | nil =>
      intro depth enough
      obtain _ | depth := depth
      · simp at enough
      exact (steps _ _ _).2 (signatureStep_body opens balanced closes rest)
    | @plain token others stands more ih =>
      intro depth enough
      obtain _ | depth := depth
      · simp at enough
      have read := (steps (fixWithin step depth) _ _).1 (signatureStep_plain stands
        (others ++ opening :: (inside ++ closing :: rest)))
      exact read.trans (ih depth (by simpa using enough))
    | @parameters first last group others isFirst inner isLast more ih =>
      intro depth enough
      obtain _ | depth := depth
      · simp at enough
      have regrouped : first :: (group ++ last :: others) ++ opening :: (inside ++ closing :: rest) =
          first :: (group ++ last :: (others ++ opening :: (inside ++ closing :: rest))) := by
        simp
      have shorter : others.length < depth := by
        simp only [List.length_cons, List.length_append] at enough
        omega
      have read := (steps (fixWithin step depth) _ _).1 (signatureStep_parameters isFirst inner
        isLast (others ++ opening :: (inside ++ closing :: rest)))
      rw [regrouped]
      exact read.trans (ih depth shorter)
  rw [isFix]
  apply within
  simp only [List.length_append, List.length_cons]
  omega

end Parser
end SwiftLens
