import OpaqueTokens.Json.Number

/-!
# Lexemes of a document

A document is a sequence of lexemes with blanks between them. The scanner is a machine that reads
one byte at a time: it checks that numbers are well formed, that words are known ones and that
strings hold no control byte and only known escapes, and leaves the bytes of a string as they
are written. What a string means is settled where its text is asked for.
-/

namespace OpaqueTokens.Json

/-- The smallest parts of a document. -/
inductive Lexeme where
  | openArray
  | closeArray
  | openObject
  | closeObject
  | colon
  | comma
  | null
  | bool (value : Bool)
  | number (text : NumberText)
  /-- A string, as the bytes between its quotes. -/
  | string (content : List UInt8)
  deriving DecidableEq, Repr

/-- How much of an escape is still to come inside a string. -/
inductive Escape where
  | none
  /-- The byte after the backslash. -/
  | letter
  /-- This many hexadecimal digits and one more. -/
  | digits (more : Nat)
  deriving DecidableEq, Repr

/-- Where the scanner stands. The bytes of an unfinished lexeme are held latest first. -/
inductive Scan where
  | between
  | word (latestFirst : List UInt8)
  | number (latestFirst : List UInt8)
  | string (latestFirst : List UInt8) (escape : Escape)
  deriving DecidableEq, Repr

namespace Scan

/-- The blanks of a document: space, tab, line feed and carriage return. -/
def isBlankByte (b : UInt8) : Bool :=
  b == 0x20 || b == 0x09 || b == 0x0A || b == 0x0D

/-- The bytes that numbers are written with. -/
def isNumberByte (b : UInt8) : Bool :=
  (0x30 ≤ b && b ≤ 0x39) || b == 0x2B || b == 0x2D || b == 0x2E || b == 0x45 || b == 0x65

/-- The bytes that words are written with. -/
def isWordByte (b : UInt8) : Bool :=
  0x61 ≤ b && b ≤ 0x7A

/-- The hexadecimal digits of either case. -/
def isHexByte (b : UInt8) : Bool :=
  (0x30 ≤ b && b ≤ 0x39) || (0x41 ≤ b && b ≤ 0x46) || (0x61 ≤ b && b ≤ 0x66)

/-- The punctuation of a byte. -/
def punctuation? (b : UInt8) : Option Lexeme :=
  if b = 0x5B then some .openArray
  else if b = 0x5D then some .closeArray
  else if b = 0x7B then some .openObject
  else if b = 0x7D then some .closeObject
  else if b = 0x3A then some .colon
  else if b = 0x2C then some .comma
  else none

/-- The lexeme of a word. -/
def word? (bytes : List UInt8) : Option Lexeme :=
  if bytes = [0x6E, 0x75, 0x6C, 0x6C] then some .null
  else if bytes = [0x74, 0x72, 0x75, 0x65] then some (.bool true)
  else if bytes = [0x66, 0x61, 0x6C, 0x73, 0x65] then some (.bool false)
  else none

/-- A byte between lexemes: the lexemes that it completes, and where the scanner stands then. -/
def start (b : UInt8) : Option (List Lexeme × Scan) :=
  if isBlankByte b then some ([], .between)
  else if b = 0x22 then some ([], .string [] .none)
  else if isWordByte b then some ([], .word [b])
  else if isNumberByte b then some ([], .number [b])
  else (punctuation? b).map fun lexeme => ([lexeme], .between)

/-- A byte inside a string. -/
def inString (latestFirst : List UInt8) (escape : Escape) (b : UInt8) :
    Option (List Lexeme × Scan) :=
  match escape with
  | .none =>
    if b = 0x22 then some ([.string latestFirst.reverse], .between)
    else if b = 0x5C then some ([], .string (b :: latestFirst) .letter)
    else if b < 0x20 then none
    else some ([], .string (b :: latestFirst) .none)
  | .letter =>
    if b = 0x75 then some ([], .string (b :: latestFirst) (.digits 3))
    else if b ∈ [0x22, 0x5C, 0x2F, 0x62, 0x66, 0x6E, 0x72, 0x74] then
      some ([], .string (b :: latestFirst) .none)
    else none
  | .digits more =>
    if isHexByte b then
      let next := match more with
        | 0 => Escape.none
        | more + 1 => .digits more
      some ([], .string (b :: latestFirst) next)
    else none

/-- The lexeme that ends where another byte, or the end of the document, follows. -/
def finish : Scan → Option (List Lexeme)
  | .between => some []
  | .word latestFirst => (word? latestFirst.reverse).map ([·])
  | .number latestFirst => (NumberText.ofBytes? latestFirst.reverse).map fun text => [.number text]
  | .string _ _ => none

/-- One byte of a document. -/
def step (state : Scan) (b : UInt8) : Option (List Lexeme × Scan) :=
  match state with
  | .between => start b
  | .word latestFirst =>
    if isWordByte b then some ([], .word (b :: latestFirst))
    else do
      let ended ← finish state
      let (lexemes, next) ← start b
      pure (ended ++ lexemes, next)
  | .number latestFirst =>
    if isNumberByte b then some ([], .number (b :: latestFirst))
    else do
      let ended ← finish state
      let (lexemes, next) ← start b
      pure (ended ++ lexemes, next)
  | .string latestFirst escape => inString latestFirst escape b

end Scan

namespace Lexeme

/-- One byte of a document, where the lexemes so far are held latest first. -/
def scanStep (sofar : List Lexeme × Scan) (b : UInt8) : Option (List Lexeme × Scan) :=
  (sofar.2.step b).map fun (lexemes, next) => (lexemes.reverse ++ sofar.1, next)

/-- The lexemes of a document. -/
def scan? (bytes : List UInt8) : Option (List Lexeme) := do
  let (latestFirst, last) ← bytes.foldlM scanStep ([], .between)
  let ended ← last.finish
  pure (latestFirst.reverse ++ ended)

end Lexeme

end OpaqueTokens.Json
