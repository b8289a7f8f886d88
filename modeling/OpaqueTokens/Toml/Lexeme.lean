/-!
# Lexemes of configuration files

A configuration file is punctuation, strings, line breaks, blanks, and atoms: the runs of other
characters that bare keys, numbers, words and dates are written with. Comments are checked for
control characters and dropped. Strings come in four forms, with or without escapes and on one
or several lines, and are resolved here.
-/

namespace OpaqueTokens.Toml

/-- The smallest parts of a configuration file. -/
inductive Lexeme where
  | dot
  | comma
  | equals
  | openBracket
  | closeBracket
  | openBrace
  | closeBrace
  | newline
  | blank (chars : List Char)
  | atom (chars : List Char)
  | string (oneLine : Bool) (text : String)
  deriving DecidableEq, Repr

namespace Lexeme

/-- The characters that may stand in comments and literal strings: no control character but the
tab. -/
def isPlain (c : Char) : Bool :=
  c = '\t' || (' ' ≤ c && c ≠ '\x7f')

/-- The punctuation of a character. -/
def punctuation? : Char → Option Lexeme
  | '.' => some .dot
  | ',' => some .comma
  | '=' => some .equals
  | '[' => some .openBracket
  | ']' => some .closeBracket
  | '\x7b' => some .openBrace
  | '\x7d' => some .closeBrace
  | _ => none

/-- The blanks within a line. -/
def isBlankChar (c : Char) : Bool :=
  c = ' ' || c = '\t'

/-- The characters that atoms are written with; quotes too, but not at the front, where they
begin a string. -/
def isAtomChar (c : Char) : Bool :=
  (punctuation? c).isNone && !isBlankChar c && c ≠ '#' && c ≠ '\r' && c ≠ '\n'

/-- The value of a hexadecimal digit of either case. -/
def hexDigit? (c : Char) : Option Nat :=
  if '0' ≤ c ∧ c ≤ '9' then some (c.toNat - 48)
  else if 'a' ≤ c ∧ c ≤ 'f' then some (c.toNat - 87)
  else if 'A' ≤ c ∧ c ≤ 'F' then some (c.toNat - 55)
  else none

/-- The character of a code point in hexadecimal digits. -/
def ofHex? (digits : List Char) : Option Char := do
  let values ← digits.mapM hexDigit?
  let n := values.foldl (fun n d => 16 * n + d) 0
  if n < 0xD800 ∨ (0xDFFF < n ∧ n ≤ 0x10FFFF) then some (Char.ofNat n) else none

/-- The character of a one-letter escape. -/
def escape? : Char → Option Char
  | 'b' => some '\x08'
  | 't' => some '\t'
  | 'n' => some '\n'
  | 'f' => some '\x0c'
  | 'r' => some '\r'
  | 'e' => some '\x1b'
  | '"' => some '"'
  | '\\' => some '\\'
  | _ => none

/-- A resolved character before what is resolved after it. -/
def push (c : Char) (result : List Char × List Char) : List Char × List Char :=
  (c :: result.1, result.2)

/-- Up to two further quotes after a closing triple belong to the string. -/
def extraQuotes (quote : Char) : List Char → List Char × List Char
  | a :: b :: rest =>
    if a = quote ∧ b = quote then ([a, b], rest)
    else if a = quote then ([a], b :: rest)
    else ([], a :: b :: rest)
  | [a] => if a = quote then ([a], []) else ([], [a])
  | [] => ([], [])

/-- A literal string after its opening quote: its characters, and what follows it. -/
def literal? : List Char → Option (List Char × List Char)
  | [] => none
  | '\'' :: rest => some ([], rest)
  | c :: rest => if isPlain c then (literal? rest).map (push c) else none

/-- A literal string of several lines after its opening. -/
def literalLines? : List Char → Option (List Char × List Char)
  | [] => none
  | '\'' :: '\'' :: '\'' :: rest => some (extraQuotes '\'' rest)
  | '\r' :: '\n' :: rest => (literalLines? rest).map fun result => push '\r' (push '\n' result)
  | '\n' :: rest => (literalLines? rest).map (push '\n')
  | c :: rest => if isPlain c then (literalLines? rest).map (push c) else none

/-- Where reading stands in a string with escapes: in its text, or behind a backslash at the end
of a line, before or after the line break. -/
inductive Place where
  | text
  | lineEnd
  | indentation

/-- A string with escapes after its opening. A backslash at the end of a line of several takes
away the line break and all blanks and line breaks after it. -/
def basic? (lines : Bool) : Place → List Char → Option (List Char × List Char)
  | _, [] => none
  | .lineEnd, ' ' :: rest | .lineEnd, '\t' :: rest => basic? lines .lineEnd rest
  | .lineEnd, '\n' :: rest | .lineEnd, '\r' :: '\n' :: rest => basic? lines .indentation rest
  | .lineEnd, _ => none
  | .indentation, ' ' :: rest | .indentation, '\t' :: rest | .indentation, '\n' :: rest
  | .indentation, '\r' :: '\n' :: rest => basic? lines .indentation rest
  | _, '"' :: rest =>
    if lines then
      match rest with
      | '"' :: '"' :: rest => some (extraQuotes '"' rest)
      | rest => (basic? lines .text rest).map (push '"')
    else some ([], rest)
  | _, '\\' :: rest =>
    match rest with
    | 'x' :: a :: b :: rest => do push (← ofHex? [a, b]) (← basic? lines .text rest)
    | 'u' :: a :: b :: c :: d :: rest => do
      push (← ofHex? [a, b, c, d]) (← basic? lines .text rest)
    | 'U' :: a :: b :: c :: d :: e :: f :: g :: h :: rest => do
      push (← ofHex? [a, b, c, d, e, f, g, h]) (← basic? lines .text rest)
    | c :: rest =>
      match escape? c with
      | some resolved => (basic? lines .text rest).map (push resolved)
      | none =>
        if lines then
          if c = '\n' then basic? lines .indentation rest
          else if isBlankChar c then basic? lines .lineEnd rest
          else if c = '\r' then
            match rest with
            | '\n' :: rest => basic? lines .indentation rest
            | _ => none
          else none
        else none
    | [] => none
  | _, '\r' :: '\n' :: rest =>
    if lines then (basic? lines .text rest).map fun result => push '\r' (push '\n' result)
    else none
  | _, '\n' :: rest => if lines then (basic? lines .text rest).map (push '\n') else none
  | _, c :: rest => if isPlain c then (basic? lines .text rest).map (push c) else none

/-- The characters without a line break at their front. -/
def dropLineBreak : List Char → List Char
  | '\n' :: rest | '\r' :: '\n' :: rest => rest
  | chars => chars

/-- A string of any form at the front of the characters. -/
def string? : List Char → Option (Lexeme × List Char)
  | '"' :: '"' :: '"' :: rest => finish false (basic? true .text (dropLineBreak rest))
  | '"' :: rest => finish true (basic? false .text rest)
  | '\'' :: '\'' :: '\'' :: rest => finish false (literalLines? (dropLineBreak rest))
  | '\'' :: rest => finish true (literal? rest)
  | _ => none
where
  /-- The lexeme of resolved characters. -/
  finish (oneLine : Bool) (result : Option (List Char × List Char)) :
      Option (Lexeme × List Char) :=
    result.map fun (chars, rest) => (.string oneLine (String.ofList chars), rest)

/-- One lexeme at the front of the characters, or none for a comment, and what follows. -/
def next? : List Char → Option (Option Lexeme × List Char)
  | [] => none
  | '\n' :: rest => some (some .newline, rest)
  | '\r' :: '\n' :: rest => some (some .newline, rest)
  | '#' :: rest =>
    let comment := rest.takeWhile fun c => c ≠ '\n' && c ≠ '\r'
    if comment.all isPlain then some (none, rest.drop comment.length) else none
  | c :: rest =>
    match punctuation? c with
    | some lexeme => some (some lexeme, rest)
    | none =>
      if isBlankChar c then
        some (some (.blank (c :: rest.takeWhile isBlankChar)), rest.dropWhile isBlankChar)
      else if c = '"' ∨ c = '\'' then
        (string? (c :: rest)).map fun (lexeme, rest) => (some lexeme, rest)
      else if isAtomChar c then
        some (some (.atom (c :: rest.takeWhile isAtomChar)), rest.dropWhile isAtomChar)
      else none

/-- The lexemes of characters that are at most this many. -/
def scanUpTo? : Nat → List Char → Option (List Lexeme)
  | _, [] => some []
  | 0, _ :: _ => none
  | bound + 1, chars => do
    let (lexeme, rest) ← next? chars
    let lexemes ← scanUpTo? bound rest
    pure (lexeme.toList ++ lexemes)

/-- The lexemes of a file; a byte order mark at its front does not count. -/
def scan? (text : String) : Option (List Lexeme) :=
  let chars :=
    match text.toList with
    | '\ufeff' :: rest => rest
    | chars => chars
  scanUpTo? chars.length chars

end Lexeme

end OpaqueTokens.Toml
