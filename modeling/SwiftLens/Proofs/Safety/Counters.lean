import SwiftLens.Declaration.Parser
import SwiftLens.Token.Lexer

namespace SwiftLens

namespace Counter

def up? (count : UInt32) : Option UInt32 :=
  if count.toNat + 1 < UInt32.size then some (count + 1) else none

def down? (count : UInt32) : Option UInt32 :=
  if 0 < count.toNat then some (count - 1) else none

theorem up?_ofNat {count : Nat} (fits : count + 1 < UInt32.size) :
    up? (.ofNat count) = some (.ofNat (count + 1)) := by
  rw [up?, UInt32.toNat_ofNat_of_lt' (Nat.lt_of_succ_lt fits), if_pos fits, UInt32.ofNat_add]
  rfl

theorem down?_ofNat {count : Nat} (fits : count + 1 < UInt32.size) :
    down? (.ofNat (count + 1)) = some (.ofNat count) := by
  rw [down?, UInt32.toNat_ofNat_of_lt' fits, if_pos (Nat.succ_pos count)]
  have less : UInt32.ofNat (count + 1) - 1 = UInt32.ofNat count := by
    rw [UInt32.ofNat_add]
    exact UInt32.add_sub_cancel _ _
  rw [less]

theorem ofNat_eq_zero {count : Nat} (fits : count < UInt32.size) : UInt32.ofNat count = 0 ↔ count = 0 := by
  rw [← UInt32.toNat_inj, UInt32.toNat_ofNat_of_lt' fits]
  rfl

end Counter

open Counter

namespace Token

def countedGroup (opening closing : Kind) :
    UInt32 → List Token → Option (Option (List Token × List Token))
  | _, [] => some none
  | depth, token :: rest =>
    let within (group : Option (List Token × List Token)) : Option (List Token × List Token) :=
      group.map fun (group, after) => (token :: group, after)
    if token.kind = opening then
      (up? depth).bind fun deeper => (countedGroup opening closing deeper rest).map within
    else if token.kind = closing then
      (down? depth).bind fun outer =>
        if outer = 0 then some (some ([token], rest))
        else (countedGroup opening closing outer rest).map within
    else (countedGroup opening closing depth rest).map within

theorem countedGroup_eq (opening closing : Kind) {depth : Nat} {tokens : List Token}
    (fits : depth + tokens.length + 1 < UInt32.size) :
    countedGroup opening closing (.ofNat (depth + 1)) tokens =
      some (splitGroup opening closing depth tokens) := by
  induction tokens generalizing depth with
  | nil => rfl
  | cons token rest ih =>
    rw [List.length_cons] at fits
    simp only [countedGroup, splitGroup]
    split
    · rw [up?_ofNat (by omega), Option.bind_some, ih (by omega)]
      rfl
    split
    · rw [down?_ofNat (by omega), Option.bind_some]
      cases depth with
      | zero => rfl
      | succ depth =>
        rw [if_neg (by rw [ofNat_eq_zero (by omega)]; omega), ih (by omega)]
        rfl
    · rw [ih (by omega)]
      rfl

end Token

namespace Declaration

def countedNames : UInt32 → Bool → List Token → Option (Option (List String × List Token))
  | _, _, [] => some none
  | depth, awaiting, token :: rest =>
    match token.kind with
    | .less => (up? depth).bind fun deeper => countedNames deeper awaiting rest
    | .greater =>
      (down? depth).bind fun outer =>
        if outer = 0 then some (some ([], rest)) else countedNames outer awaiting rest
    | .comma => countedNames depth (awaiting || depth == 1) rest
    | .identifier =>
      if depth == 1 && awaiting && token.text != "each" then
        (countedNames depth false rest).map fun found =>
          found.map fun (names, after) => (token.text :: names, after)
      else countedNames depth awaiting rest
    | _ => countedNames depth awaiting rest

theorem ofNat_succ_beq_one {depth : Nat} (fits : depth + 1 < UInt32.size) :
    (UInt32.ofNat (depth + 1) == 1) = (depth == 0) := by
  have same : UInt32.ofNat (depth + 1) = 1 ↔ depth = 0 := by
    rw [← UInt32.toNat_inj, UInt32.toNat_ofNat_of_lt' fits]
    change depth + 1 = 1 ↔ depth = 0
    omega
  rw [Bool.eq_iff_iff, beq_iff_eq, beq_iff_eq, same]

theorem countedNames_eq {depth : Nat} {awaiting : Bool} {tokens : List Token}
    (fits : depth + tokens.length + 1 < UInt32.size) :
    countedNames (.ofNat (depth + 1)) awaiting tokens = some (genericNames depth awaiting tokens) := by
  induction tokens generalizing depth awaiting with
  | nil => simp [countedNames, genericNames]
  | cons token rest ih =>
    rw [List.length_cons] at fits
    cases kind : token.kind with
    | less =>
      simp only [countedNames, genericNames, kind]
      rw [up?_ofNat (by omega), Option.bind_some, ih (by omega)]
    | greater =>
      cases depth with
      | zero => simp only [countedNames, genericNames, kind]; rfl
      | succ depth =>
        simp only [countedNames, genericNames, kind]
        rw [down?_ofNat (by omega), Option.bind_some,
          if_neg (by rw [ofNat_eq_zero (by omega)]; omega), ih (by omega)]
    | comma =>
      simp only [countedNames, genericNames, kind]
      rw [ofNat_succ_beq_one (by omega), ih (by omega)]
    | identifier =>
      simp only [countedNames, genericNames, kind]
      rw [ofNat_succ_beq_one (by omega)]
      split
      · rw [ih (by omega)]
        rfl
      · exact ih (by omega)
    | _ =>
      simp only [countedNames, genericNames, kind]
      exact ih (by omega)

end Declaration

namespace Trivia

inductive CountedState
  | blank
  | lineComment
  | blockComment (depth : UInt32) (opening : List Char)

def countedSkip : CountedState → List Char → Option (Except ScanFailure (List Char))
  | .blank, [] => some (.ok [])
  | .blank, '/' :: '/' :: rest => countedSkip .lineComment rest
  | .blank, '/' :: '*' :: rest => countedSkip (.blockComment 1 ('/' :: '*' :: rest)) rest
  | .blank, c :: rest => if isGapBlank c then countedSkip .blank rest else some (.ok (c :: rest))
  | .lineComment, [] => some (.ok [])
  | .lineComment, c :: rest => countedSkip (if c = '\n' then .blank else .lineComment) rest
  | .blockComment _ opening, [] => some (.error ⟨.openComment, opening⟩)
  | .blockComment depth opening, '/' :: '*' :: rest =>
    (up? depth).bind fun deeper => countedSkip (.blockComment deeper opening) rest
  | .blockComment depth opening, '*' :: '/' :: rest =>
    (down? depth).bind fun outer =>
      countedSkip (if outer = 0 then .blank else .blockComment outer opening) rest
  | .blockComment depth opening, _ :: rest => countedSkip (.blockComment depth opening) rest

namespace State

def counted : State → CountedState
  | blank => .blank
  | lineComment => .lineComment
  | blockComment enclosing opening => .blockComment (.ofNat (enclosing + 1)) opening

def depth : State → Nat
  | blockComment enclosing _ => enclosing + 1
  | _ => 0

end State

theorem countedSkip_eq {state : State} {source : List Char}
    (fits : state.depth + source.length < UInt32.size) :
    countedSkip state.counted source = some (skipFrom state source) := by
  fun_induction skipFrom state source with
  | case1 => rfl
  | case2 rest ih =>
    simp only [State.depth, List.length_cons] at fits ih
    exact ih (by omega)
  | case3 rest ih =>
    simp only [State.depth, List.length_cons] at fits ih
    exact ih (by omega)
  | case4 c rest notLine notBlock isBlank ih =>
    simp only [State.depth, List.length_cons] at fits ih
    rw [State.counted, countedSkip, if_pos isBlank]
    · exact ih (by omega)
    · exact notLine
    · exact notBlock
  | case5 c rest notLine notBlock visible =>
    rw [State.counted, countedSkip, if_neg visible]
    · exact notLine
    · exact notBlock
  | case6 => rfl
  | case7 c rest ih =>
    rw [State.counted, countedSkip]
    by_cases feed : c = '\n'
    · simp only [feed, if_true, State.depth, List.length_cons] at fits ih ⊢
      exact ih (by omega)
    · simp only [feed, if_false, State.depth, List.length_cons] at fits ih ⊢
      exact ih (by omega)
  | case8 => rfl
  | case9 enclosing opening rest ih =>
    simp only [State.depth, List.length_cons] at fits ih
    rw [State.counted, countedSkip, up?_ofNat (by omega), Option.bind_some]
    exact ih (by omega)
  | case10 opening rest ih =>
    simp only [State.depth, List.length_cons] at fits ih
    exact ih (by omega)
  | case11 enclosing opening rest ih =>
    simp only [State.depth, List.length_cons] at fits ih
    rw [State.counted, countedSkip, down?_ofNat (by omega), Option.bind_some,
      if_neg (by rw [ofNat_eq_zero (by omega)]; omega)]
    exact ih (by omega)
  | case12 enclosing opening c rest notOpen notLast notClose ih =>
    simp only [State.depth, List.length_cons] at fits ih
    rw [State.counted, countedSkip]
    · exact ih (by omega)
    · exact notOpen
    · intro after star slash
      cases enclosing with
      | zero => exact notLast after rfl star slash
      | succ enclosing => exact notClose enclosing after rfl star slash

theorem countedSkip_blank {source : List Char} (short : source.length < UInt32.size) :
    countedSkip .blank source = some (skip source) := by
  have fits : State.blank.depth + source.length < UInt32.size := by
    simpa [State.depth] using short
  exact countedSkip_eq fits

end Trivia

namespace StringLiteral

inductive CountedContext
  | singleLine
  | multiline
  | interpolation (depth : UInt32)

structure CountedFrame where
  context : CountedContext
  opening : List Char

def countedSkip : List CountedFrame → List Char → Option (Except ScanFailure (List Char))
  | [], rest => some (.ok rest)
  | frame :: _, [] => some (.error ⟨.openString, frame.opening⟩)
  | ⟨.interpolation depth, opening⟩ :: outer, '(' :: rest =>
    (up? depth).bind fun deeper => countedSkip (⟨.interpolation deeper, opening⟩ :: outer) rest
  | ⟨.interpolation depth, opening⟩ :: outer, ')' :: rest =>
    (down? depth).bind fun left =>
      countedSkip (if left = 0 then outer else ⟨.interpolation left, opening⟩ :: outer) rest
  | ⟨.interpolation depth, opening⟩ :: outer, '"' :: '"' :: '"' :: rest =>
    countedSkip (⟨.multiline, '"' :: '"' :: '"' :: rest⟩ :: ⟨.interpolation depth, opening⟩ :: outer)
      rest
  | ⟨.interpolation depth, opening⟩ :: outer, '"' :: rest =>
    countedSkip (⟨.singleLine, '"' :: rest⟩ :: ⟨.interpolation depth, opening⟩ :: outer) rest
  | ⟨.interpolation depth, opening⟩ :: outer, _ :: rest =>
    countedSkip (⟨.interpolation depth, opening⟩ :: outer) rest
  | frame :: outer, '\\' :: '(' :: rest =>
    countedSkip (⟨.interpolation 1, frame.opening⟩ :: frame :: outer) rest
  | frame :: outer, '\\' :: _ :: rest => countedSkip (frame :: outer) rest
  | ⟨.multiline, _⟩ :: outer, '"' :: '"' :: '"' :: rest => countedSkip outer rest
  | ⟨.multiline, opening⟩ :: outer, _ :: rest => countedSkip (⟨.multiline, opening⟩ :: outer) rest
  | ⟨.singleLine, _⟩ :: outer, '"' :: rest => countedSkip outer rest
  | ⟨.singleLine, opening⟩ :: outer, c :: rest =>
    if c = '\n' then some (.error ⟨.openString, opening⟩)
    else countedSkip (⟨.singleLine, opening⟩ :: outer) rest

def Context.counted : Context → CountedContext
  | singleLine => .singleLine
  | multiline => .multiline
  | interpolation parens => .interpolation (.ofNat (parens + 1))

def Frame.counted (frame : Frame) : CountedFrame :=
  ⟨frame.context.counted, frame.opening⟩

theorem Frame.counted_literal {frame : Frame}
    (literal : ∀ parens opening, frame = ⟨.interpolation parens, opening⟩ → False) (depth : UInt32)
    (opening : List Char) (same : frame.counted = ⟨.interpolation depth, opening⟩) : False := by
  obtain ⟨context, start⟩ := frame
  cases context with
  | interpolation parens => exact literal parens start rfl
  | singleLine => cases same
  | multiline => cases same

def Frame.depth (frame : Frame) : Nat :=
  match frame.context with
  | .interpolation parens => parens + 1
  | _ => 0

/-- Every count fits, even if all the characters to come open parentheses. -/
def CountsFit (frames : List Frame) (left : Nat) : Prop :=
  ∀ frame ∈ frames, frame.depth + left < UInt32.size

theorem CountsFit.spend {frames : List Frame} {left fewer : Nat} (fit : CountsFit frames left)
    (less : fewer ≤ left) : CountsFit frames fewer := by
  intro frame member
  have fits := fit frame member
  omega

theorem CountsFit.push {frame : Frame} {frames : List Frame} {left : Nat}
    (fits : frame.depth + left < UInt32.size) (fit : CountsFit frames left) :
    CountsFit (frame :: frames) left :=
  List.forall_mem_cons.mpr ⟨fits, fit⟩

theorem CountsFit.pop {frame : Frame} {frames : List Frame} {left : Nat}
    (fit : CountsFit (frame :: frames) left) : CountsFit frames left :=
  (List.forall_mem_cons.mp fit).2

theorem CountsFit.top {frame : Frame} {frames : List Frame} {left : Nat}
    (fit : CountsFit (frame :: frames) left) : frame.depth + left < UInt32.size :=
  (List.forall_mem_cons.mp fit).1

theorem countedSkip_eq {frames : List Frame} {source : List Char}
    (fit : CountsFit frames source.length) :
    countedSkip (frames.map Frame.counted) source = some (skipPlain frames source) := by
  fun_induction skipPlain frames source with
  | case1 => rw [List.map_nil, countedSkip]
  | case2 => rw [List.map_cons, countedSkip]; rfl
  | case3 parens opening outer rest ih =>
    have top := fit.top
    simp only [Frame.depth, List.length_cons] at top
    simp only [List.map_cons, Frame.counted, Context.counted] at ih ⊢
    rw [countedSkip, up?_ofNat (by omega), Option.bind_some]
    exact ih ((fit.pop.spend (by simp)).push (by simp only [Frame.depth]; omega))
  | case4 opening outer rest ih =>
    simp only [List.map_cons, Frame.counted, Context.counted] at ih ⊢
    rw [countedSkip]
    exact ih (fit.pop.spend (by simp))
  | case5 opening outer parens rest ih =>
    have top := fit.top
    simp only [Frame.depth, List.length_cons] at top
    simp only [List.map_cons, Frame.counted, Context.counted] at ih ⊢
    rw [countedSkip, down?_ofNat (by omega), Option.bind_some,
      if_neg (by rw [ofNat_eq_zero (by omega)]; omega)]
    exact ih ((fit.pop.spend (by simp)).push (by simp only [Frame.depth]; omega))
  | case6 parens opening outer rest ih =>
    have top := fit.top
    simp only [Frame.depth, List.length_cons] at top
    simp only [List.map_cons, Frame.counted, Context.counted] at ih ⊢
    rw [countedSkip]
    exact ih ((fit.spend (by simp; omega)).push (by simp only [Frame.depth]; omega))
  | case7 parens opening outer rest notThree ih =>
    have top := fit.top
    simp only [Frame.depth, List.length_cons] at top
    simp only [List.map_cons, Frame.counted, Context.counted] at ih ⊢
    rw [countedSkip]
    · exact ih ((fit.spend (by simp)).push (by simp only [Frame.depth]; omega))
    · exact notThree
  | case8 parens opening outer c rest notOpen notLast notClose notThree notQuote ih =>
    simp only [List.map_cons, Frame.counted, Context.counted] at ih ⊢
    rw [countedSkip]
    · exact ih (fit.spend (by simp))
    · exact notOpen
    · intro closes
      cases parens with
      | zero => exact notLast rfl closes
      | succ parens => exact notClose parens rfl closes
    · exact notThree
    · exact notQuote
  | case9 frame outer rest literal ih =>
    have top := fit.top
    simp only [List.length_cons] at top
    rw [List.map_cons, countedSkip]
    · exact ih ((fit.spend (by simp; omega)).push (by simp only [Frame.depth]; omega))
    · exact Frame.counted_literal literal
  | case10 frame outer c rest literal notOpen ih =>
    rw [List.map_cons, countedSkip]
    · exact ih (fit.spend (by simp; omega))
    · exact Frame.counted_literal literal
    · exact notOpen
  | case11 opening outer rest ih =>
    simp only [List.map_cons, Frame.counted, Context.counted] at ih ⊢
    rw [countedSkip]
    exact ih (fit.pop.spend (by simp; omega))
  | case12 opening outer c rest notOpen notEscape notThree ih =>
    simp only [List.map_cons, Frame.counted, Context.counted] at ih ⊢
    rw [countedSkip]
    · exact ih (fit.spend (by simp))
    · exact notOpen
    · exact notEscape
    · exact notThree
  | case13 opening outer rest ih =>
    simp only [List.map_cons, Frame.counted, Context.counted] at ih ⊢
    rw [countedSkip]
    exact ih (fit.pop.spend (by simp))
  | case14 opening outer rest notOpen notEscape notQuote =>
    simp only [List.map_cons, Frame.counted, Context.counted]
    rw [countedSkip, if_pos rfl]
    · exact notOpen
    · exact notEscape
    · exact notQuote
  | case15 opening outer c rest notOpen notEscape notQuote noFeed ih =>
    simp only [List.map_cons, Frame.counted, Context.counted] at ih ⊢
    rw [countedSkip, if_neg noFeed]
    · exact ih (fit.spend (by simp))
    · exact notOpen
    · exact notEscape
    · exact notQuote

def countedLiteral (afterQuote : List Char) : Option (Except ScanFailure (List Char)) :=
  match afterQuote with
  | '"' :: '"' :: rest => countedSkip [⟨.multiline, '"' :: afterQuote⟩] rest
  | rest => countedSkip [⟨.singleLine, '"' :: afterQuote⟩] rest

theorem countedSkip_single {frame : Frame} {source : List Char} (closed : frame.depth = 0)
    (short : source.length < UInt32.size) :
    countedSkip [frame.counted] source = some (skipPlain [frame] source) := by
  have fit : CountsFit [frame] source.length := by
    rintro _ (_ | ⟨_, ⟨⟩⟩)
    omega
  exact countedSkip_eq fit

theorem countedLiteral_eq {afterQuote : List Char} (short : afterQuote.length < UInt32.size) :
    countedLiteral afterQuote = some (skip afterQuote) := by
  unfold countedLiteral
  split
  · next rest =>
    simp only [List.length_cons] at short
    have closed : (Frame.mk .multiline ('"' :: '"' :: '"' :: rest)).depth = 0 := rfl
    exact countedSkip_single closed (by omega)
  · next noThree =>
    have line : skip afterQuote = skipPlain [⟨.singleLine, '"' :: afterQuote⟩] afterQuote := by
      unfold skip
      split
      · exact absurd rfl (noThree _)
      · rfl
    rw [line]
    have closed : (Frame.mk .singleLine ('"' :: afterQuote)).depth = 0 := rfl
    exact countedSkip_single closed short

end StringLiteral
end SwiftLens
