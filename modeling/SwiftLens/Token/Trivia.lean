import SwiftLens.Text.Position

namespace SwiftLens

inductive ScanFault
  | openString
  | openComment
  | openBacktick (found : String)
  | badCharacter (character : Char)
deriving DecidableEq, Repr

structure ScanFailure where
  fault : ScanFault
  rest : List Char
deriving DecidableEq, Repr

namespace Trivia

/-- Where a scan between tokens stands. A block comment knows how many comments enclose it and the
source from the opening of the outermost one. -/
inductive State
  | blank
  | lineComment
  | blockComment (enclosing : Nat) (opening : List Char)

def isGapBlank (c : Char) : Bool :=
  c == ' ' || c == '\t' || c == '\r' || c == '\n'

def skipFrom : State → List Char → Except ScanFailure (List Char)
  | .blank, [] => .ok []
  | .blank, '/' :: '/' :: rest => skipFrom .lineComment rest
  | .blank, '/' :: '*' :: rest => skipFrom (.blockComment 0 ('/' :: '*' :: rest)) rest
  | .blank, c :: rest => if isGapBlank c then skipFrom .blank rest else .ok (c :: rest)
  | .lineComment, [] => .ok []
  | .lineComment, c :: rest => skipFrom (if c = '\n' then .blank else .lineComment) rest
  | .blockComment _ opening, [] => .error ⟨.openComment, opening⟩
  | .blockComment enclosing opening, '/' :: '*' :: rest =>
    skipFrom (.blockComment (enclosing + 1) opening) rest
  | .blockComment 0 _, '*' :: '/' :: rest => skipFrom .blank rest
  | .blockComment (enclosing + 1) opening, '*' :: '/' :: rest =>
    skipFrom (.blockComment enclosing opening) rest
  | .blockComment enclosing opening, _ :: rest => skipFrom (.blockComment enclosing opening) rest

def skip (source : List Char) : Except ScanFailure (List Char) :=
  skipFrom .blank source

theorem skipFrom_suffix {state : State} {source rest : List Char}
    (skipped : skipFrom state source = .ok rest) : rest <:+ source := by
  fun_induction skipFrom state source with
  | case1 => simp_all
  | case2 tail ih => exact (ih skipped).trans ⟨['/', '/'], rfl⟩
  | case3 tail ih => exact (ih skipped).trans ⟨['/', '*'], rfl⟩
  | case4 c tail _ _ _ ih => exact (ih skipped).trans (List.suffix_cons _ _)
  | case5 => simp_all
  | case6 => simp_all
  | case7 c tail ih => exact (ih skipped).trans (List.suffix_cons _ _)
  | case8 => simp at skipped
  | case9 _ _ tail ih => exact (ih skipped).trans ⟨['/', '*'], rfl⟩
  | case10 _ tail ih => exact (ih skipped).trans ⟨['*', '/'], rfl⟩
  | case11 _ _ tail ih => exact (ih skipped).trans ⟨['*', '/'], rfl⟩
  | case12 _ _ c tail _ _ _ ih => exact (ih skipped).trans (List.suffix_cons _ _)

theorem skip_suffix {source rest : List Char} (skipped : skip source = .ok rest) :
    rest <:+ source :=
  skipFrom_suffix skipped

end Trivia
end SwiftLens
