import SwiftLens.Proofs.Parser.Contract
import SwiftLens.Proofs.Trees.WellFormed

namespace SwiftLens

open SwiftLens.Parser

namespace Token

/-- The tokens of a file up to its end, and the source they were read from. -/
structure ReadFrom (source : String) (file : List Token) : Prop where
  wellRead : WellRead file
  whole : (sourceOf file).toList <+: source.toList

theorem slice_suffix (run : List Token) : (slice run).toList <:+ (sourceOf run).toList := by
  cases run with
  | nil => exact List.suffix_refl _
  | cons token rest => exact ⟨token.gap.toList, by simp [slice, sourceOf, source]⟩

theorem ReadFrom.excerpt {source : String} {file run : List Token} {text : String}
    (read : ReadFrom source file) (inFile : run <:+: file)
    (inRun : text.toList <:+: (sourceOf run).toList) : Excerpt source text := by
  obtain ⟨front, back, rfl⟩ := inFile
  have inWhole : (sourceOf run).toList <:+: (sourceOf (front ++ run ++ back)).toList :=
    ⟨(sourceOf front).toList, (sourceOf back).toList, by simp⟩
  exact (inRun.trans inWhole).trans read.whole.isInfix

theorem tight_slice_of_first {token : Token} {rest : List Token} (wellRead : WellRead (token :: rest))
    (inLine : token.kind ≠ .newline)
    (ends : ∀ last, rest.getLast? = some last → last.kind ≠ .newline) :
    Tight (slice (token :: rest)).toList := by
  have tight := (wellRead.spelled token List.mem_cons_self inLine).tight
  rcases rest.eq_nil_or_concat with rfl | ⟨front, last, rfl⟩
  · simpa [slice, sourceOf] using tight
  · have tightLast := (wellRead.spelled last (by simp) (ends last (by simp))).tight
    have appended : Tight (token.text.toList ++ ((sourceOf front).toList ++ last.gap.toList) ++
        last.text.toList) := tight.append tightLast
    simpa [slice, sourceOf, source] using appended

/-- Only a line break has no text of its own, and what follows one touches it. -/
theorem tight_slice {run : List Token} (wellRead : WellRead run) (filled : run ≠ [])
    (ends : ∀ last, run.getLast? = some last → last.kind ≠ .newline) :
    Tight (slice run).toList := by
  rcases run with _ | ⟨token, rest⟩
  · exact absurd rfl filled
  by_cases isBreak : token.kind = .newline
  · rcases rest with _ | ⟨next, later⟩
    · exact absurd isBreak (ends token rfl)
    obtain ⟨inLine, touching⟩ := (List.isChain_cons_cons.mp wellRead.touching).1 isBreak
    have same : slice (token :: next :: later) = slice (next :: later) := by
      simp [slice, sourceOf, source, wellRead.breaks token List.mem_cons_self isBreak, touching]
    rw [same]
    apply tight_slice_of_first (wellRead.run (List.suffix_cons _ _).isInfix) inLine
    intro last found
    exact ends last (by rw [List.getLast?_cons_cons, List.getLast?_cons, found]; rfl)
  · apply tight_slice_of_first wellRead isBreak
    intro last found
    exact ends last (by rw [List.getLast?_cons, found]; rfl)

theorem splitGroup_splits {opening closing : Kind} {depth : Nat} {tokens group rest : List Token}
    (found : splitGroup opening closing depth tokens = some (group, rest)) :
    tokens = group ++ rest ∧ ∃ front last, group = front ++ [last] ∧ last.kind = closing := by
  induction tokens generalizing depth group rest with
  | nil => cases found
  | cons token tokens ih =>
    -- Every step but the last one passes the group on from a shorter list.
    have passed : ∀ {deeper : Nat},
        (splitGroup opening closing deeper tokens).map (fun found => (token :: found.1, found.2)) =
          some (group, rest) →
        token :: tokens = group ++ rest ∧
          ∃ front last, group = front ++ [last] ∧ last.kind = closing := by
      intro deeper mapped
      obtain ⟨⟨shorter, left⟩, closed, same⟩ := Option.map_eq_some_iff.mp mapped
      cases same
      obtain ⟨rfl, front, last, rfl, closes⟩ := ih closed
      exact ⟨rfl, token :: front, last, rfl, closes⟩
    simp only [splitGroup] at found
    split at found
    · exact passed found
    split at found
    · next closes =>
      cases depth with
      | zero =>
        cases found
        exact ⟨rfl, [], token, rfl, closes⟩
      | succ depth => exact passed found
    · exact passed found

end Token

section Skipped

variable {file : List Token} {bound : Nat}

theorem contract_closeGroup (opening : Token.Kind) :
    Contract file bound List.length
      (fun group => group <:+: file ∧
        ∃ front last, group = front ++ [last] ∧ last.kind = opening.closing)
      (closeGroup opening) where
  ok {tokens group rest} inFile _ parsed := by
    unfold closeGroup at parsed
    split at parsed
    · next _ _ found =>
      cases parsed
      obtain ⟨rfl, closes⟩ := Token.splitGroup_splits found
      have starts : group <+: group ++ rest := List.prefix_append group rest
      exact ⟨List.suffix_append _ _, by simp [Nat.add_comm],
        starts.isInfix.trans inFile.isInfix, closes⟩
    · cases parsed
  error _ _ failed := by
    unfold closeGroup at failed
    split at failed
    · cases failed
    · cases failed
      exact ⟨List.nil_suffix, by decide⟩

/-- A group that is passed over. -/
theorem contract_closeGroup_bind {α : Type} (opening : Token.Kind) {least : α → Nat}
    {Good : α → Prop} {next : Parser α} (later : Contract file bound least Good next) :
    Contract file bound least Good (closeGroup opening >>= fun _ => next) := by
  apply contract_bind (contract_closeGroup opening)
  intro group _
  exact (later.mono (Nat.sub_le _ _)).weaken fun value good => ⟨Nat.sub_le _ _, good⟩

theorem contract_newlines : Contract file bound (fun _ => 0) (fun _ => True) newlines :=
  contract_dropWhile _

theorem contract_block : Contract file bound (fun _ => 1) (fun _ => True) block := by
  apply contract_bind (contract_expect .leftBrace (by decide))
  intro _ _
  exact contract_closeGroup_bind _ (contract_pure rfl trivial)

theorem contract_signatureStep :
    Contract file bound (fun found => found.isNone.toNat) (fun _ => True) signatureStep := by
  apply contract_choice
  · exact contract_closeGroup_bind _ (contract_pure rfl trivial)
  apply contract_choice
  · exact contract_closeGroup_bind _ (contract_pure rfl trivial)
  apply contract_choice
  · exact contract_closeGroup_bind _ (contract_pure rfl trivial)
  apply contract_choice
  · exact contract_pure rfl trivial
  · exact contract_pure rfl trivial

theorem contract_signature : Contract file bound (fun _ => 0) (fun _ => True) signature := by
  apply contract_fix
  intro left more _ contract
  apply contract_bind contract_signatureStep
  intro found _
  cases found with
  | some hasBody => exact contract_pure rfl trivial
  | none => exact contract

theorem contract_expressionPiece :
    Contract file bound List.length (fun _ => True) expressionPiece := by
  apply contract_bind (contract_takeIf _)
  intro found _
  cases found with
  | some bracket =>
    apply contract_bind (contract_closeGroup _)
    intro group _
    exact contract_pure (by simp) trivial
  | none =>
    apply contract_bind (contract_takeIf _)
    intro found _
    cases found with
    | some token => exact contract_pure rfl trivial
    | none => exact contract_pure rfl trivial

theorem contract_expressionTokens :
    Contract file bound List.length (fun _ => True) expressionTokens := by
  apply contract_fix
  intro left more _ contract
  apply contract_bind contract_expressionPiece
  intro piece _
  apply contract_ite
  · intro isEmpty
    exact contract_pure (Nat.zero_sub _) trivial
  · intro filled
    have counted : 0 < piece.length := List.length_pos_iff.mpr (by simpa using filled)
    apply contract_bind (contract.mono (by omega))
    intro later _
    exact contract_pure (by simp) trivial

end Skipped

namespace Parser

theorem closeGroup_splits {opening : Token.Kind} {tokens group rest : List Token}
    (parsed : closeGroup opening tokens = .ok (group, rest)) :
    tokens = group ++ rest ∧ ∃ front last, group = front ++ [last] ∧ last.kind = opening.closing := by
  unfold closeGroup at parsed
  split at parsed
  · next found =>
    cases parsed
    exact Token.splitGroup_splits found
  · cases parsed

/-- A group closes with its bracket, and a line break is a piece only if an operator follows. -/
theorem expressionPiece_cases {tokens piece rest : List Token}
    (parsed : expressionPiece tokens = .ok (piece, rest)) :
    (∃ front last, piece = front ++ [last] ∧ last.kind ≠ .newline ∧ tokens = piece ++ rest) ∨
      (∃ token, piece = [token] ∧ tokens = token :: rest ∧ token.kind = .newline ∧
        continuesExpression rest = true) ∨
      (piece = [] ∧ rest = tokens ∧
        ∀ token later, tokens = token :: later → inExpression token later = false) := by
  obtain ⟨found, between, taken, continued⟩ := bind_ok parsed
  rcases takeIf_ok taken with ⟨bracket, rfl, rfl, opens⟩ | ⟨rfl, rfl⟩
  · obtain ⟨group, after, closed, finished⟩ := bind_ok continued
    cases finished
    obtain ⟨rfl, front, last, rfl, closes⟩ := closeGroup_splits closed
    refine .inl ⟨bracket :: front, last, rfl, ?_, rfl⟩
    unfold opensGroup at opens
    rw [closes]
    split at opens <;> simp_all [Token.Kind.closing]
  · obtain ⟨found, after, taken, finished⟩ := bind_ok continued
    rcases takeIf_ok taken with ⟨token, rfl, rfl, inside⟩ | ⟨rfl, rfl⟩
    · cases finished
      by_cases isBreak : token.kind = .newline
      · refine .inr (.inl ⟨token, rfl, rfl, isBreak, ?_⟩)
        simpa [inExpression, isBreak] using inside
      · exact .inl ⟨[], token, rfl, isBreak, rfl⟩
    · cases finished
      refine .inr (.inr ⟨rfl, rfl, ?_⟩)
      rintro token later rfl
      rw [takeIf_cons] at taken
      split at taken
      · cases taken
      · next outside => simpa using outside

/-- An operator that goes on with an expression belongs to it. -/
theorem inExpression_of_continues {token : Token} {rest : List Token}
    (inLine : token.kind ≠ .newline) (continues : continuesExpression (token :: rest) = true) :
    inExpression token rest = true := by
  have here : Token.afterNewlines (token :: rest) = token :: rest := by
    simp [Token.afterNewlines, Token.isNewline, inLine]
  rw [continuesExpression, here] at continues
  unfold inExpression
  revert continues inLine
  simp only [Token.kindAt, List.getElem?_cons_zero, Option.map_some]
  cases token.kind <;> simp

/-- The tokens `run` that an expression takes from `tokens`. They end in a line, and none are taken
only where no expression goes on. -/
structure ExpressionRun (tokens run rest : List Token) : Prop where
  splits : tokens = run ++ rest
  ends : ∀ last, run.getLast? = some last → last.kind ≠ .newline
  stops : run = [] → ∀ token later, tokens = token :: later → inExpression token later = false

theorem ExpressionRun.afterPiece {front between run rest : List Token} {last : Token}
    (inLine : last.kind ≠ .newline) (later : ExpressionRun between run rest) :
    ExpressionRun (front ++ [last] ++ between) (front ++ [last] ++ run) rest where
  splits := by rw [later.splits, List.append_assoc _ run]
  ends final found := by
    rw [List.getLast?_append, List.getLast?_concat] at found
    cases lastLater : run.getLast? with
    | none =>
      rw [lastLater] at found
      cases found
      exact inLine
    | some other =>
      rw [lastLater] at found
      cases found
      exact later.ends _ lastLater
  stops none := by simp at none

/-- An operator follows the line break, so the expression goes on. -/
theorem ExpressionRun.afterBreak {between run rest : List Token} {token : Token}
    (wellRead : Token.WellRead (token :: between)) (isBreak : token.kind = .newline)
    (continues : continuesExpression between = true) (later : ExpressionRun between run rest) :
    ExpressionRun (token :: between) (token :: run) rest where
  splits := by rw [later.splits, List.cons_append]
  ends final found := by
    cases run with
    | nil =>
      cases between with
      | nil => cases continues
      | cons next others =>
        have inLine := ((List.isChain_cons_cons.mp wellRead.touching).1 isBreak).1
        have outside := later.stops rfl next others rfl
        rw [inExpression_of_continues inLine continues] at outside
        cases outside
    | cons next others =>
      rw [List.getLast?_cons_cons] at found
      exact later.ends final found
  stops none := by cases none

theorem expressionTokens_run {tokens run rest : List Token} (wellRead : Token.WellRead tokens)
    (parsed : expressionTokens tokens = .ok (run, rest)) : ExpressionRun tokens run rest := by
  refine fix_ok (motive := fun tokens run rest =>
    Token.WellRead tokens → ExpressionRun tokens run rest) ?_ parsed wellRead
  intro more reads tokens run rest parsed wellRead
  obtain ⟨piece, between, read, continued⟩ := bind_ok parsed
  rcases expressionPiece_cases read with ⟨front, last, rfl, inLine, rfl⟩ |
    ⟨token, rfl, rfl, isBreak, continues⟩ | ⟨rfl, rfl, outside⟩
  · rw [if_neg (by simp)] at continued
    obtain ⟨later, after, readLater, finished⟩ := bind_ok continued
    cases finished
    exact (reads readLater (wellRead.run (List.suffix_append _ _).isInfix)).afterPiece inLine
  · rw [if_neg (by simp)] at continued
    obtain ⟨later, after, readLater, finished⟩ := bind_ok continued
    cases finished
    have laterRun := reads readLater (wellRead.run (List.suffix_cons _ _).isInfix)
    exact laterRun.afterBreak wellRead isBreak continues
  · cases continued
    exact ⟨rfl, by simp, fun _ => outside⟩

end Parser

section Read

variable {source : String} {file : List Token} {bound : Nat}
  (read : Token.ReadFrom source file)

include read

theorem contract_expression :
    Contract file bound (fun _ => 1) (ExpressionText source) expression := by
  have runs : Contract file bound List.length
      (fun run => True ∧ ∃ tokens rest, tokens <:+ file ∧ ExpressionRun tokens run rest)
      expressionTokens :=
    contract_expressionTokens.and fun inFile parsed =>
      ⟨_, _, inFile, expressionTokens_run (read.wellRead.run inFile.isInfix) parsed⟩
  apply contract_bind runs
  rintro run ⟨-, tokens, rest, inFile, consumed⟩
  apply contract_ite
  · intro _
    exact contract_fail (by decide)
  · intro filled
    have taken : run ≠ [] := by simpa using filled
    have inRun : run <:+: file := by
      rw [consumed.splits] at inFile
      have starts : run <+: run ++ rest := List.prefix_append run rest
      exact starts.isInfix.trans inFile.isInfix
    apply contract_pure
    · have counted := List.length_pos_iff.mpr taken
      omega
    · exact ⟨read.excerpt inRun (Token.slice_suffix run).isInfix,
        Token.tight_slice (read.wellRead.run inRun) taken consumed.ends⟩

theorem contract_initializer? :
    Contract file bound (fun _ => 0) (fun found => ∀ text ∈ found, ExpressionText source text)
      initializer? := by
  apply contract_choice
  · apply contract_bind (contract_expression read)
    intro text isExpression
    exact contract_pure rfl (by simpa using isExpression)
  · exact contract_pure rfl (by simp)

end Read
end SwiftLens
