namespace SwiftLens
namespace Utf8

def replacement : Char := '\uFFFD'

/-- First bytes of characters of more than one byte: from `first` to `last`, with a second byte
from `low` to `high` and `following` further bytes after that one. What a first byte has above
`mark` belongs to the value. -/
structure LeadRange where
  mark : Nat
  first : Nat
  last : Nat
  low : Nat
  high : Nat
  following : Nat

/-- The first bytes in increasing order. The bounds on the second byte keep out spellings that are
longer than needed, surrogates and values beyond the last code point. -/
def leadRanges : List LeadRange :=
  [⟨0xC0, 0xC2, 0xDF, 0x80, 0xBF, 0⟩, ⟨0xE0, 0xE0, 0xE0, 0xA0, 0xBF, 1⟩,
   ⟨0xE0, 0xE1, 0xEC, 0x80, 0xBF, 1⟩, ⟨0xE0, 0xED, 0xED, 0x80, 0x9F, 1⟩,
   ⟨0xE0, 0xEE, 0xEF, 0x80, 0xBF, 1⟩, ⟨0xF0, 0xF0, 0xF0, 0x90, 0xBF, 2⟩,
   ⟨0xF0, 0xF1, 0xF3, 0x80, 0xBF, 2⟩, ⟨0xF0, 0xF4, 0xF4, 0x80, 0x8F, 2⟩]

structure Unfinished where
  value : Nat
  low : Nat
  high : Nat
  following : Nat

inductive Progress
  | finished (c : Char)
  | unfinished (begun : Unfinished)
  | illFormed

def start (byte : Nat) : Progress :=
  if byte < 0x80 then .finished (.ofNat byte)
  else
    match leadRanges.find? fun lead => lead.first ≤ byte && byte ≤ lead.last with
    | some lead => .unfinished ⟨byte - lead.mark, lead.low, lead.high, lead.following⟩
    | none => .illFormed

def Unfinished.next (begun : Unfinished) (byte : Nat) : Progress :=
  if begun.low ≤ byte && byte ≤ begun.high then
    let value := begun.value * 64 + byte % 64
    match begun.following with
    | 0 => .finished (.ofNat value)
    | following + 1 => .unfinished ⟨value, 0x80, 0xBF, following⟩
  else .illFormed

def Progress.shown : Progress → List Char × Option Unfinished
  | finished c => ([c], none)
  | unfinished begun => ([], some begun)
  | illFormed => ([replacement], none)

def step (begun? : Option Unfinished) (byte : Nat) : List Char × Option Unfinished :=
  match begun? with
  | none => (start byte).shown
  | some begun =>
    match begun.next byte with
    | .illFormed => (replacement :: (start byte).shown.1, (start byte).shown.2)
    | progress => progress.shown

def decodeFrom : Option Unfinished → List UInt8 → List Char
  | none, [] => []
  | some _, [] => [replacement]
  | begun?, byte :: rest =>
    (step begun? byte.toNat).1 ++ decodeFrom (step begun? byte.toNat).2 rest

def decode (bytes : ByteArray) : String :=
  .ofList (decodeFrom none bytes.data.toList)

/-- ASCII bytes are shown as their characters. -/
theorem decodeFrom_ascii (bytes : List UInt8) (ascii : ∀ byte ∈ bytes, byte.toNat < 0x80) :
    decodeFrom none bytes = bytes.map fun byte => .ofNat byte.toNat := by
  induction bytes with
  | nil => rfl
  | cons byte rest ih =>
    have small := ascii byte List.mem_cons_self
    have others := ih fun other member => ascii other (List.mem_cons_of_mem byte member)
    simp [decodeFrom, step, start, Progress.shown, small, others]

end Utf8
end SwiftLens
