import SwiftLens.Text.Split

namespace SwiftLens

inductive FileError
  | notFound
  | notDirectory
  | isDirectory
  | alreadyExists
  | nameTooLong
  | nulCharacter
  | notText
deriving DecidableEq, Repr

def FileError.message : FileError → String
  | notFound => "No such file or directory (os error 2)"
  | notDirectory => "Not a directory (os error 20)"
  | isDirectory => "Is a directory (os error 21)"
  | alreadyExists => "File exists (os error 17)"
  | nameTooLong => "File name too long (os error 36)"
  | nulCharacter => "file name contained an unexpected NUL byte"
  | notText => "stream did not contain valid UTF-8"

def maxPathBytes : Nat := 4079

def maxNameBytes : Nat := 255

def joinPath (directory name : String) : String :=
  if directory.isEmpty || directory.toList.getLast? == some '/' then directory ++ name
  else directory ++ "/" ++ name

inductive PathStep
  | into (name : String)
  | up
deriving DecidableEq, Repr

def PathStep.ofPart? : String → Option PathStep
  | "" => none
  | "." => none
  | ".." => some .up
  | name => some (.into name)

/-- How a path ends. After a name can stand a file or a directory, after a slash only a directory,
and after dots only a directory that is there already. -/
inductive PathEnding
  | name
  | slash
  | dots
deriving DecidableEq, Repr

def PathEnding.ofParts (parts : List String) : PathEnding :=
  match (parts.filter (· != "")).getLast? with
  | some "." => .dots
  | some ".." => .dots
  | _ => if parts.getLast? == some "" then .slash else .name

structure TreePath where
  steps : List PathStep
  ending : PathEnding
deriving DecidableEq, Repr

namespace TreePath

def ofParts (parts : List String) : TreePath :=
  ⟨parts.filterMap PathStep.ofPart?, .ofParts parts⟩

def ofText (text : String) : Except FileError TreePath :=
  if text.toList.contains '\x00' then .error .nulCharacter
  else if maxPathBytes < text.utf8ByteSize then .error .nameTooLong
  else .ok (ofParts (splitText '/' text))

def parent (path : TreePath) : TreePath :=
  ⟨path.steps.dropLast, .slash⟩

end TreePath
end SwiftLens
