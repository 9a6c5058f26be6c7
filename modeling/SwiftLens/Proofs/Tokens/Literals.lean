import SwiftLens.Token.StringLiteral

namespace SwiftLens
namespace StringLiteral

def Context.closingSize : Context → Nat
  | singleLine => 1
  | multiline => 3
  | interpolation _ => 1

@[simp]
def closingSizes : List Context → Nat
  | [] => 0
  | context :: outer => context.closingSize + closingSizes outer

structure Closes (contexts : List Context) (text : List Char) : Prop where
  long : closingSizes contexts ≤ text.length
  drops : ∀ frames : List Frame, frames.map Frame.context = contexts →
    ∀ after, skipPlain frames (text ++ after) = .ok after

theorem closes_nil : Closes [] [] where
  long := Nat.le_refl 0
  drops frames none after := by
    obtain rfl : frames = [] := by simpa using none
    rw [List.nil_append, skipPlain]

/-- A scan that has taken `chars` and goes on in other contexts. -/
theorem Closes.step {contexts outer : List Context} {text : List Char}
    (closes : Closes contexts text) (context : Context) (chars : List Char)
    (long : context.closingSize + closingSizes outer ≤ chars.length + closingSizes contexts)
    (steps : ∀ opening frames after, frames.map Frame.context = outer →
      ∃ inner : List Frame, inner.map Frame.context = contexts ∧
        skipPlain (⟨context, opening⟩ :: frames) (chars ++ (text ++ after)) =
          skipPlain inner (text ++ after)) :
    Closes (context :: outer) (chars ++ text) where
  long := by
    have inner := closes.long
    rw [closingSizes, List.length_append]
    omega
  drops frames same after := by
    obtain ⟨⟨_, opening⟩, others, rfl, rfl, sameOuter⟩ := List.map_eq_cons_iff.mp same
    obtain ⟨inner, sameInner, stepped⟩ := steps opening others after sameOuter
    rw [List.append_assoc, stepped]
    exact closes.drops inner sameInner after

/-- A lone backslash at the end escapes nothing and leaves the literal open. -/
theorem not_escape {frame : Frame} {outer : List Frame} {c : Char} {tail rest : List Char}
    (noEscape : ∀ head more, c = '\\' → tail = head :: more → False)
    (skipped : skipPlain (frame :: outer) tail = .ok rest) : c ≠ '\\' := by
  intro isEscape
  cases tail with
  | nil => cases skipped
  | cons head more => exact noEscape head more isEscape rfl

/-- Two quotes that do not begin a text do not begin it before something else. -/
theorem no_quotes_before {text rest : List Char} (long : 2 ≤ text.length)
    (absent : ∀ more, text ++ rest = '"' :: '"' :: more → False) (after more : List Char) :
    text ++ after = '"' :: '"' :: more → False := by
  match text, long with
  | first :: second :: tail, _ =>
    intro same
    simp only [List.cons_append, List.cons.injEq] at same
    obtain ⟨rfl, rfl, -⟩ := same
    exact absent (tail ++ rest) rfl

theorem literal_of_inText {frame : Frame} {begun : List Char}
    (inText : ∀ parens opening, frame = ⟨.interpolation parens, opening⟩ → False) (parens : Nat)
    (opening : List Char) :
    (⟨frame.context, begun⟩ : Frame) = ⟨.interpolation parens, opening⟩ → False := by
  intro same
  obtain ⟨isInterpolation, -⟩ := Frame.mk.inj same
  exact inText parens frame.opening (by rw [← isInterpolation])

theorem skipPlain_anywhere {frames : List Frame} {source rest : List Char}
    (skipped : skipPlain frames source = .ok rest) :
    ∃ text, source = text ++ rest ∧ Closes (frames.map Frame.context) text := by
  fun_induction skipPlain frames source with
  | case1 =>
    cases skipped
    exact ⟨[], rfl, closes_nil⟩
  | case2 => cases skipped
  | case3 parens opening outer tail ih =>
    obtain ⟨text, rfl, closes⟩ := ih skipped
    refine ⟨'(' :: text, rfl, closes.step _ ['('] (by simp [Context.closingSize]) ?_⟩
    intro begun frames after same
    exact ⟨⟨.interpolation (parens + 1), begun⟩ :: frames, by simp [same], rfl⟩
  | case4 opening outer tail ih =>
    obtain ⟨text, rfl, closes⟩ := ih skipped
    refine ⟨')' :: text, rfl, closes.step _ [')'] (by simp [Context.closingSize]) ?_⟩
    intro begun frames after same
    exact ⟨frames, same, rfl⟩
  | case5 parens opening outer tail ih =>
    obtain ⟨text, rfl, closes⟩ := ih skipped
    refine ⟨')' :: text, rfl, closes.step _ [')'] (by simp [Context.closingSize]) ?_⟩
    intro begun frames after same
    exact ⟨⟨.interpolation parens, begun⟩ :: frames, by simp [same], rfl⟩
  | case6 parens opening outer tail ih =>
    obtain ⟨text, rfl, closes⟩ := ih skipped
    refine ⟨'"' :: '"' :: '"' :: text, rfl,
      closes.step _ ['"', '"', '"'] (by simp [Context.closingSize]; omega) ?_⟩
    intro begun frames after same
    exact ⟨⟨.multiline, _⟩ :: ⟨.interpolation parens, begun⟩ :: frames, by simp [same], rfl⟩
  | case7 parens opening outer tail single ih =>
    obtain ⟨text, rfl, closes⟩ := ih skipped
    have long := closes.long
    simp only [List.map_cons, closingSizes, Context.closingSize] at long
    refine ⟨'"' :: text, rfl, closes.step _ ['"'] (by simp [Context.closingSize]; omega) ?_⟩
    intro begun frames after same
    refine ⟨⟨.singleLine, '"' :: (text ++ after)⟩ :: ⟨.interpolation parens, begun⟩ :: frames,
      by simp [same], ?_⟩
    exact skipPlain.eq_7 _ _ _ _ (no_quotes_before (by omega) single after)
  | case8 parens opening outer c tail noOpening noEnd noInnerEnd noBlock noQuote ih =>
    obtain ⟨text, rfl, closes⟩ := ih skipped
    refine ⟨c :: text, rfl, closes.step _ [c] (by simp) ?_⟩
    intro begun frames after same
    refine ⟨⟨.interpolation parens, begun⟩ :: frames, by simp [same], ?_⟩
    exact skipPlain.eq_8 _ _ _ _ _ noOpening noEnd noInnerEnd
      (fun _ isQuote => absurd isQuote noQuote) noQuote
  | case9 frame outer tail inText ih =>
    obtain ⟨text, rfl, closes⟩ := ih skipped
    refine ⟨'\\' :: '(' :: text, rfl,
      closes.step _ ['\\', '('] (by simp [Context.closingSize]; omega) ?_⟩
    intro begun frames after same
    refine ⟨⟨.interpolation 0, begun⟩ :: ⟨frame.context, begun⟩ :: frames, by simp [same], ?_⟩
    exact skipPlain.eq_9 _ _ _ (literal_of_inText inText)
  | case10 frame outer c tail inText noOpening ih =>
    obtain ⟨text, rfl, closes⟩ := ih skipped
    refine ⟨'\\' :: c :: text, rfl, closes.step _ ['\\', c] (by simp) ?_⟩
    intro begun frames after same
    refine ⟨⟨frame.context, begun⟩ :: frames, by simp [same], ?_⟩
    exact skipPlain.eq_10 _ _ _ _ (literal_of_inText inText) noOpening
  | case11 opening outer tail ih =>
    obtain ⟨text, rfl, closes⟩ := ih skipped
    refine ⟨'"' :: '"' :: '"' :: text, rfl,
      closes.step _ ['"', '"', '"'] (by simp [Context.closingSize]) ?_⟩
    intro begun frames after same
    exact ⟨frames, same, rfl⟩
  | case12 opening outer c tail _ noEscape noEnd ih =>
    have notEscape := not_escape noEscape skipped
    obtain ⟨text, rfl, closes⟩ := ih skipped
    have long := closes.long
    simp only [List.map_cons, closingSizes, Context.closingSize] at long
    refine ⟨c :: text, rfl, closes.step _ [c] (by simp) ?_⟩
    intro begun frames after same
    refine ⟨⟨.multiline, begun⟩ :: frames, by simp [same], ?_⟩
    exact skipPlain.eq_12 _ _ _ _ (fun _ isEscape => absurd isEscape notEscape)
      (fun _ _ isEscape => absurd isEscape notEscape)
      (fun more isQuote => no_quotes_before (by omega) (fun rest => noEnd rest isQuote) after more)
  | case13 opening outer tail ih =>
    obtain ⟨text, rfl, closes⟩ := ih skipped
    refine ⟨'"' :: text, rfl, closes.step _ ['"'] (by simp [Context.closingSize]) ?_⟩
    intro begun frames after same
    exact ⟨frames, same, skipPlain.eq_13 _ _ _⟩
  | case14 => cases skipped
  | case15 opening outer c tail _ noEscape noQuote noFeed ih =>
    have notEscape := not_escape noEscape skipped
    obtain ⟨text, rfl, closes⟩ := ih skipped
    refine ⟨c :: text, rfl, closes.step _ [c] (by simp) ?_⟩
    intro begun frames after same
    refine ⟨⟨.singleLine, begun⟩ :: frames, by simp [same], ?_⟩
    have stays := skipPlain.eq_14 begun frames c (text ++ after)
      (fun _ isEscape => absurd isEscape notEscape)
      (fun _ _ isEscape => absurd isEscape notEscape) noQuote
    rw [if_neg noFeed] at stays
    exact stays

theorem closesWith_append {marks : Nat} {front : List Char} {stop : Char} (noMark : stop ≠ '#')
    (after : List Char) : closesWith marks (front ++ stop :: after) = closesWith marks front := by
  unfold closesWith
  induction marks generalizing front with
  | zero => simp
  | succ marks ih =>
    cases front with
    | nil => simp [List.replicate_succ, List.isPrefixOf, noMark.symm]
    | cons c tail => simp [List.replicate_succ, List.isPrefixOf, ih]

structure ClosesRaw (skips : List Char → Option (List Char)) (marks : Nat) (text : List Char) :
    Prop where
  ends : ∃ front, text = front ++ '"' :: List.replicate marks '#'
  drops : ∀ after, skips (text ++ after) = some after

theorem closesWith_replicate (marks : Nat) (after : List Char) :
    closesWith marks (List.replicate marks '#' ++ after) = true := by
  rw [closesWith, List.isPrefixOf_iff_prefix]
  exact List.prefix_append _ _

theorem exists_marks {marks : Nat} {rest : List Char} (closes : closesWith marks rest = true) :
    rest = List.replicate marks '#' ++ rest.drop marks := by
  rw [closesWith, List.isPrefixOf_iff_prefix] at closes
  obtain ⟨after, rfl⟩ := closes
  simp

/-- Whether the marks stand next is settled by the quote before the last marks. -/
theorem ClosesRaw.closesWith_eq {skips : List Char → Option (List Char)} {marks : Nat}
    {text : List Char} (closes : ClosesRaw skips marks text) (after rest : List Char) :
    closesWith marks (text ++ after) = closesWith marks (text ++ rest) := by
  obtain ⟨front, rfl⟩ := closes.ends
  rw [List.append_assoc, List.append_assoc, List.cons_append, List.cons_append,
    closesWith_append (by decide), closesWith_append (by decide)]

theorem skipRawLine_anywhere {marks : Nat} {source rest : List Char}
    (skipped : skipRawLine marks source = some rest) :
    ∃ text, source = text ++ rest ∧ ClosesRaw (skipRawLine marks) marks text := by
  fun_induction skipRawLine marks source with
  | case1 => cases skipped
  | case2 => cases skipped
  | case3 c tail noFeed ends =>
    cases skipped
    rw [Bool.and_eq_true, decide_eq_true_eq] at ends
    obtain ⟨rfl, closes⟩ := ends
    refine ⟨'"' :: List.replicate marks '#', ?_, ⟨[], rfl⟩, ?_⟩
    · rw [List.cons_append, ← exists_marks closes]
    · intro after
      simp [skipRawLine, closesWith_replicate]
  | case4 c tail noFeed stays ih =>
    obtain ⟨text, rfl, closes⟩ := ih skipped
    obtain ⟨front, ends⟩ := closes.ends
    refine ⟨c :: text, rfl, ⟨c :: front, by rw [ends]; rfl⟩, ?_⟩
    intro after
    rw [closes.closesWith_eq rest after] at stays
    rw [List.cons_append, skipRawLine, if_neg noFeed, if_neg stays]
    exact closes.drops after

theorem skipRawBlock_anywhere {marks : Nat} {source rest : List Char}
    (skipped : skipRawBlock marks source = some rest) :
    ∃ text, source = text ++ rest ∧ 3 ≤ text.length ∧
      ClosesRaw (skipRawBlock marks) marks text := by
  fun_induction skipRawBlock marks source with
  | case1 => cases skipped
  | case2 tail closes =>
    cases skipped
    refine ⟨'"' :: '"' :: '"' :: List.replicate marks '#', ?_, by simp, ⟨['"', '"'], rfl⟩, ?_⟩
    · rw [List.cons_append, List.cons_append, List.cons_append, ← exists_marks closes]
    · intro after
      simp [skipRawBlock, closesWith_replicate]
  | case3 tail stays ih =>
    obtain ⟨text, rfl, long, closes⟩ := ih skipped
    obtain ⟨front, ends⟩ := closes.ends
    refine ⟨'"' :: '"' :: '"' :: text, rfl, by simp, ⟨'"' :: '"' :: '"' :: front, by rw [ends]; rfl⟩, ?_⟩
    intro after
    rw [closes.closesWith_eq rest after] at stays
    rw [List.cons_append, List.cons_append, List.cons_append, skipRawBlock, if_neg stays]
    exact closes.drops after
  | case4 c tail noQuotes ih =>
    obtain ⟨text, rfl, long, closes⟩ := ih skipped
    obtain ⟨front, ends⟩ := closes.ends
    refine ⟨c :: text, rfl, by simp; omega, ⟨c :: front, by rw [ends]; rfl⟩, ?_⟩
    intro after
    rw [List.cons_append, skipRawBlock.eq_3 _ _ _ fun more isQuote =>
      no_quotes_before (by omega) (fun rest => noQuotes rest isQuote) after more]
    exact closes.drops after

end StringLiteral
end SwiftLens
