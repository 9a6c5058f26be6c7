import SwiftLens.Token.Trivia

namespace SwiftLens
namespace Trivia

/-- What stands between the marks of a block comment. A mark inside it belongs to a complete comment
of its own. -/
inductive CommentBody : List Char → Prop
  | nil : CommentBody []
  | plain {c : Char} {rest : List Char} (noOpening : ¬['/', '*'] <+: c :: rest ++ ['*', '/'])
      (noClosing : ¬['*', '/'] <+: c :: rest ++ ['*', '/']) (body : CommentBody rest) :
      CommentBody (c :: rest)
  | nested {inner rest : List Char} (inside : CommentBody inner) (body : CommentBody rest) :
      CommentBody ('/' :: '*' :: (inner ++ '*' :: '/' :: rest))

def AtLineEnd (source : List Char) : Prop :=
  source = [] ∨ ∃ rest, source = '\n' :: rest

/-- Blanks and comments, with `following` after them. A line comment ends before its line feed or
with the source. -/
inductive IsGap (following : List Char) : List Char → Prop
  | nil : IsGap following []
  | blank {c : Char} {rest : List Char} (isBlank : c ∈ [' ', '\t', '\r', '\n'])
      (gap : IsGap following rest) : IsGap following (c :: rest)
  | lineComment {text rest : List Char} (inLine : '\n' ∉ text)
      (ends : AtLineEnd (rest ++ following)) (gap : IsGap following rest) :
      IsGap following ('/' :: '/' :: (text ++ rest))
  | blockComment {body rest : List Char} (inside : CommentBody body) (gap : IsGap following rest) :
      IsGap following ('/' :: '*' :: (body ++ '*' :: '/' :: rest))

def ClosesComments : Nat → List Char → Prop
  | 0, rest => ∃ body, CommentBody body ∧ rest = body ++ ['*', '/']
  | enclosing + 1, rest => ∃ body outer, CommentBody body ∧ ClosesComments enclosing outer ∧
      rest = body ++ '*' :: '/' :: outer

theorem prefix_pair_iff {first second c : Char} {rest : List Char} :
    [first, second] <+: c :: rest ↔ first = c ∧ rest.head? = some second := by
  cases rest with
  | nil => simp
  | cons next tail => simp [List.cons_prefix_cons, eq_comm]

/-- Whether a mark stands at the front of a body is settled by the mark that closes the body. -/
theorem prefix_pair_append {first second c : Char} {body : List Char} (outer : List Char) :
    [first, second] <+: c :: (body ++ '*' :: '/' :: outer) ↔
      [first, second] <+: c :: body ++ ['*', '/'] := by
  rw [List.cons_append, prefix_pair_iff, prefix_pair_iff]
  cases body <;> simp

theorem ClosesComments.plain {enclosing : Nat} {c : Char} {rest : List Char}
    (closes : ClosesComments enclosing rest) (noOpening : ¬['/', '*'] <+: c :: rest)
    (noClosing : ¬['*', '/'] <+: c :: rest) : ClosesComments enclosing (c :: rest) := by
  cases enclosing with
  | zero =>
    obtain ⟨body, inside, rfl⟩ := closes
    rw [prefix_pair_append] at noOpening noClosing
    exact ⟨c :: body, .plain noOpening noClosing inside, rfl⟩
  | succ enclosing =>
    obtain ⟨body, outer, inside, closes, rfl⟩ := closes
    rw [prefix_pair_append] at noOpening noClosing
    exact ⟨c :: body, outer, .plain noOpening noClosing inside, closes, rfl⟩

theorem ClosesComments.opened {enclosing : Nat} {rest : List Char}
    (closes : ClosesComments (enclosing + 1) rest) :
    ClosesComments enclosing ('/' :: '*' :: rest) := by
  obtain ⟨inner, outer, inside, closes, rfl⟩ := closes
  cases enclosing with
  | zero =>
    obtain ⟨body, around, rfl⟩ := closes
    exact ⟨_, .nested inside around, by simp⟩
  | succ enclosing =>
    obtain ⟨body, more, around, closes, rfl⟩ := closes
    exact ⟨_, more, .nested inside around, closes, by simp⟩

def State.Drops (following : List Char) : State → List Char → Prop
  | .blank, dropped => IsGap following dropped
  | .lineComment, dropped => ∃ text gap, '\n' ∉ text ∧ AtLineEnd (gap ++ following) ∧
      IsGap following gap ∧ dropped = text ++ gap
  | .blockComment enclosing _, dropped => ∃ rest gap, ClosesComments enclosing rest ∧
      IsGap following gap ∧ dropped = rest ++ gap

def StopsAt (stop : List Char) (answer : Except ScanFailure (List Char)) : Prop :=
  answer = .ok stop ∨ ∃ rest, stop = '/' :: '*' :: rest ∧ answer = .error ⟨.openComment, stop⟩

/-- A scan drops trivia up to where it stops, unless the comment that it began in stays open. -/
theorem drops_of_skipFrom (state : State) (source : List Char) :
    (∃ enclosing opening, state = .blockComment enclosing opening ∧
      skipFrom state source = .error ⟨.openComment, opening⟩) ∨
      ∃ dropped stop, source = dropped ++ stop ∧ state.Drops stop dropped ∧
        StopsAt stop (skipFrom state source) := by
  fun_induction skipFrom state source with
  | case1 => exact .inr ⟨[], [], rfl, .nil, .inl rfl⟩
  | case2 tail ih =>
    rcases ih with ⟨_, _, ⟨⟩, _⟩ | ⟨dropped, stop, rfl, ⟨text, gap, inLine, ends, isGap, rfl⟩, stops⟩
    exact .inr ⟨'/' :: '/' :: (text ++ gap), stop, rfl, .lineComment inLine ends isGap, stops⟩
  | case3 tail ih =>
    rcases ih with ⟨_, _, ⟨⟩, stays⟩ | ⟨dropped, stop, rfl, ⟨rest, gap, closes, isGap, rfl⟩, stops⟩
    · -- The comment that stays open is where the scan stops.
      exact .inr ⟨[], '/' :: '*' :: tail, rfl, .nil, .inr ⟨tail, rfl, stays⟩⟩
    · obtain ⟨body, inside, rfl⟩ := closes
      exact .inr ⟨'/' :: '*' :: (body ++ '*' :: '/' :: gap), stop, by simp,
        .blockComment inside isGap, stops⟩
  | case4 c tail _ _ isBlank ih =>
    rcases ih with ⟨_, _, ⟨⟩, _⟩ | ⟨dropped, stop, rfl, isGap, stops⟩
    have listed : c ∈ [' ', '\t', '\r', '\n'] := by
      simpa [isGapBlank, or_assoc] using isBlank
    exact .inr ⟨c :: dropped, stop, rfl, .blank listed isGap, stops⟩
  | case5 c tail => exact .inr ⟨[], c :: tail, rfl, .nil, .inl rfl⟩
  | case6 => exact .inr ⟨[], [], rfl, ⟨[], [], by simp, .inl rfl, .nil, rfl⟩, .inl rfl⟩
  | case7 c tail ih =>
    by_cases isFeed : c = '\n'
    · subst isFeed
      rcases ih with ⟨_, _, ⟨⟩, _⟩ | ⟨dropped, stop, rfl, drops, stops⟩
      have isGap : IsGap stop ('\n' :: dropped) := .blank (by simp) drops
      exact .inr ⟨'\n' :: dropped, stop, rfl,
        ⟨[], '\n' :: dropped, by simp, .inr ⟨_, rfl⟩, isGap, rfl⟩, stops⟩
    · rw [if_neg isFeed] at ih ⊢
      rcases ih with
        ⟨_, _, ⟨⟩, _⟩ | ⟨dropped, stop, rfl, ⟨text, gap, inLine, ends, isGap, rfl⟩, stops⟩
      have stays : '\n' ∉ c :: text := by simp [Ne.symm isFeed, inLine]
      exact .inr ⟨c :: (text ++ gap), stop, rfl, ⟨c :: text, gap, stays, ends, isGap, rfl⟩, stops⟩
  | case8 enclosing opening => exact .inl ⟨enclosing, opening, rfl, rfl⟩
  | case9 enclosing opening tail ih =>
    rcases ih with ⟨_, _, ⟨⟩, stays⟩ | ⟨dropped, stop, rfl, ⟨rest, gap, closes, isGap, rfl⟩, stops⟩
    · exact .inl ⟨enclosing, opening, rfl, stays⟩
    · exact .inr ⟨_, stop, rfl, ⟨'/' :: '*' :: rest, gap, closes.opened, isGap, rfl⟩, stops⟩
  | case10 opening tail ih =>
    rcases ih with ⟨_, _, ⟨⟩, _⟩ | ⟨dropped, stop, rfl, isGap, stops⟩
    exact .inr ⟨_, stop, rfl, ⟨['*', '/'], dropped, ⟨[], .nil, rfl⟩, isGap, rfl⟩, stops⟩
  | case11 enclosing opening tail ih =>
    rcases ih with ⟨_, _, ⟨⟩, stays⟩ | ⟨dropped, stop, rfl, ⟨rest, gap, closes, isGap, rfl⟩, stops⟩
    · exact .inl ⟨enclosing + 1, opening, rfl, stays⟩
    · exact .inr ⟨_, stop, rfl,
        ⟨'*' :: '/' :: rest, gap, ⟨[], rest, .nil, closes, rfl⟩, isGap, rfl⟩, stops⟩
  | case12 enclosing opening c tail noOpening noLast noClosing ih =>
    rcases ih with ⟨_, _, ⟨⟩, stays⟩ | ⟨dropped, stop, rfl, ⟨rest, gap, closes, isGap, rfl⟩, stops⟩
    · exact .inl ⟨enclosing, opening, rfl, stays⟩
    have notOpened : ¬['/', '*'] <+: c :: rest := by
      rintro ⟨more, opens⟩
      obtain ⟨rfl, rfl⟩ := List.cons.inj opens
      exact noOpening _ rfl rfl
    have notClosed : ¬['*', '/'] <+: c :: rest := by
      rintro ⟨more, ends⟩
      obtain ⟨rfl, rfl⟩ := List.cons.inj ends
      cases enclosing with
      | zero => exact noLast _ rfl rfl rfl
      | succ enclosing => exact noClosing _ _ rfl rfl rfl
    exact .inr ⟨_, stop, rfl, ⟨c :: rest, gap, closes.plain notOpened notClosed, isGap, rfl⟩, stops⟩

/-- The scanner drops a gap. -/
theorem gap_of_skip {source following : List Char} (skipped : skip source = .ok following) :
    ∃ gap, source = gap ++ following ∧ IsGap following gap := by
  unfold skip at skipped
  rcases drops_of_skipFrom .blank source with ⟨_, _, ⟨⟩, _⟩ | ⟨gap, stop, split, isGap, stops⟩
  rcases stops with found | ⟨rest, opens, failed⟩
  · rw [skipped] at found
    cases found
    exact ⟨gap, split, isGap⟩
  · rw [skipped] at failed
    cases failed

/-- A scan fails at a block comment that follows a gap. -/
theorem gap_of_skip_error {source : List Char} {failure : ScanFailure}
    (failed : skip source = .error failure) :
    failure.fault = .openComment ∧ (∃ rest, failure.rest = '/' :: '*' :: rest) ∧
      ∃ gap, source = gap ++ failure.rest ∧ IsGap failure.rest gap := by
  unfold skip at failed
  rcases drops_of_skipFrom .blank source with ⟨_, _, ⟨⟩, _⟩ | ⟨gap, stop, split, isGap, stops⟩
  rcases stops with found | ⟨rest, opens, found⟩
  · rw [failed] at found
    cases found
  · rw [failed] at found
    cases found
    exact ⟨rfl, ⟨rest, opens⟩, gap, split, isGap⟩

/-- The inside of a block comment is passed over, whatever encloses the comment. -/
theorem CommentBody.skipFrom_append {body : List Char} (inside : CommentBody body)
    (enclosing : Nat) (opening after : List Char) :
    skipFrom (.blockComment enclosing opening) (body ++ '*' :: '/' :: after) =
      skipFrom (.blockComment enclosing opening) ('*' :: '/' :: after) := by
  induction inside generalizing enclosing after with
  | nil => rfl
  | @plain c rest noOpening noClosing inside ih =>
    rw [← prefix_pair_append after, prefix_pair_iff] at noOpening noClosing
    rw [List.cons_append, skipFrom.eq_11 enclosing opening c _
      (fun more isSlash next => noOpening ⟨isSlash.symm, by rw [next]; rfl⟩)
      (fun more _ isStar next => noClosing ⟨isStar.symm, by rw [next]; rfl⟩)
      (fun _ more _ isStar next => noClosing ⟨isStar.symm, by rw [next]; rfl⟩)]
    exact ih enclosing after
  | @nested inner rest within inside ihWithin ih =>
    have closed : skipFrom (.blockComment (enclosing + 1) opening)
        (inner ++ '*' :: '/' :: (rest ++ '*' :: '/' :: after)) =
          skipFrom (.blockComment enclosing opening) (rest ++ '*' :: '/' :: after) :=
      ihWithin (enclosing + 1) (rest ++ '*' :: '/' :: after)
    rw [List.cons_append, List.cons_append, List.append_assoc, List.cons_append, List.cons_append]
    exact closed.trans (ih enclosing after)

theorem skipFrom_lineComment {text : List Char} (inLine : '\n' ∉ text) {after : List Char}
    (ends : AtLineEnd after) : skipFrom .lineComment (text ++ after) = skip after := by
  induction text with
  | nil =>
    rcases ends with rfl | ⟨rest, rfl⟩
    · rfl
    · rfl
  | cons c text ih =>
    rw [List.mem_cons, not_or] at inLine
    rw [List.cons_append, skipFrom, if_neg (Ne.symm inLine.1)]
    exact ih inLine.2

theorem AtLineEnd.cut {source other : List Char} (ends : AtLineEnd source) (cut : other <+: source) :
    AtLineEnd other := by
  rcases ends with rfl | ⟨rest, rfl⟩
  · left
    exact List.prefix_nil.mp cut
  · cases other with
    | nil => exact .inl rfl
    | cons c tail =>
      obtain ⟨rfl, -⟩ := List.cons_prefix_cons.mp cut
      exact .inr ⟨tail, rfl⟩

/-- A gap is dropped also before a text that is cut short. -/
theorem IsGap.skip_append {following gap : List Char} (isGap : IsGap following gap)
    {other : List Char} (cut : other <+: following) : skip (gap ++ other) = skip other := by
  induction isGap with
  | nil => rfl
  | @blank c rest isBlank _ ih =>
    rw [List.cons_append, ← ih]
    simp only [List.mem_cons, List.not_mem_nil, or_false] at isBlank
    rcases isBlank with rfl | rfl | rfl | rfl <;> rfl
  | @lineComment text rest inLine ends _ ih =>
    have shorter : rest ++ other <+: rest ++ following :=
      List.prefix_append_right_inj rest |>.mpr cut
    have endsHere : AtLineEnd (rest ++ other) := ends.cut shorter
    rw [List.cons_append, List.cons_append, List.append_assoc]
    exact (skipFrom_lineComment inLine endsHere).trans ih
  | @blockComment body rest inside _ ih =>
    rw [List.cons_append, List.cons_append, List.append_assoc, List.cons_append, List.cons_append]
    exact (inside.skipFrom_append 0 _ (rest ++ other)).trans ih

end Trivia
end SwiftLens
