namespace SwiftLens

inductive LogLevel
  | debug
  | info
  | warn
deriving DecidableEq, Repr

def LogLevel.word : LogLevel → String
  | debug => "DEBUG"
  | info => "INFO"
  | warn => "WARN"

structure LogLine where
  level : LogLevel
  message : String
deriving DecidableEq, Repr

def LogLine.text (line : LogLine) : String :=
  line.level.word ++ " " ++ line.message

structure Reported (α : Type) where
  value : α
  log : List LogLine := []

end SwiftLens
