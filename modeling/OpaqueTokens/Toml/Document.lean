import OpaqueTokens.Toml.Lexeme
import OpaqueTokens.Toml.Scalar

/-!
# Configuration files

A file is a table of values and tables. Lines set keys, which may be paths, in the table of the
header above them. No key is set twice and no table is opened twice; a table that came about only
because a path led through it may still be opened once by a header, and one that came about by a
path on a line may still be extended by such paths.
-/

namespace OpaqueTokens.Toml

/-- How a table came about, which decides how it may be extended. -/
inductive TableKind where
  /-- By a header of its own, or as the file itself. -/
  | header
  /-- By a header of a table inside it. -/
  | implicit
  /-- By a path on a line. -/
  | dotted
  /-- By braces; such a table is closed. -/
  | inline
  deriving DecidableEq, Repr

/-- A value of a file. -/
inductive Value where
  | string (text : String)
  | scalar (value : Scalar)
  /-- A list; the ones that grow by headers of their own hold only tables. -/
  | array (growing : Bool) (items : List Value)
  | table (kind : TableKind) (entries : List (String × Value))
  deriving Repr, Inhabited

namespace Document

/-- The entries of a table, in the order in which they are set. -/
abbrev Entries := List (String × Value)

/-- A change of a table's entries, which may be refused for the kind that the table is of. -/
abbrev Change := TableKind → Entries → Option (TableKind × Entries)

/-- Replaces the value of a key in its place, or adds the key. -/
def put (key : String) (value : Value) : Entries → Entries
  | [] => [(key, value)]
  | (other, held) :: rest =>
    if other = key then (key, value) :: rest else (other, held) :: put key value rest

/-- Changes the table at the end of a path. Tables that the path lacks are made on the way; a
list that grows by headers stands for its last table. A path on a line may only lead through
tables that were not opened by a header. -/
def changeAt (onLine : Bool) (change : Change) :
    List String → TableKind → Entries → Option (TableKind × Entries)
  | [], kind, entries => change kind entries
  | key :: path, kind, entries =>
    match entries.lookup key with
    | none => do
      let (inner, held) ←
        changeAt onLine change path (if onLine then .dotted else .implicit) []
      pure (kind, put key (.table inner held) entries)
    | some (.table inner held) =>
      if inner = .inline ∨ (onLine ∧ inner = .header) then none
      else do
        let (inner, held) ← changeAt onLine change path inner held
        pure (kind, put key (.table inner held) entries)
    | some (.array true items) =>
      match items.getLast? with
      | some (.table inner held) => do
        let (inner, held) ← changeAt onLine change path inner held
        pure (kind, put key (.array true (items.dropLast ++ [.table inner held])) entries)
      | _ => none
    | some _ => none

/-- Sets a key that the table lacks. At the end of a path on a line stands a table that came
about in this way, and without a path one that did not. -/
def set (withPath : Bool) (key : String) (value : Value) : Change := fun kind entries =>
  if (kind = .dotted) ≠ withPath ∨ (entries.lookup key).isSome then none
  else some (kind, entries ++ [(key, value)])

/-- Opens the table of a header. -/
def openTable (key : String) : Change := fun kind entries =>
  match entries.lookup key with
  | none => some (kind, put key (.table .header []) entries)
  | some (.table .implicit held) => some (kind, put key (.table .header held) entries)
  | some _ => none

/-- Opens the next table of a list of tables. -/
def openItem (key : String) : Change := fun kind entries =>
  match entries.lookup key with
  | none => some (kind, put key (.array true [.table .header []]) entries)
  | some (.array true items) =>
    some (kind, put key (.array true (items ++ [.table .header []])) entries)
  | some _ => none

/-- A path without its last key, and that key. -/
def splitLast? (path : List String) : Option (List String × String) :=
  path.getLast?.map (path.dropLast, ·)

/-- Sets the key at the end of a path on a line. -/
def setPath (path : List String) (value : Value) : Change := fun kind entries => do
  let (path, key) ← splitLast? path
  changeAt true (set (!path.isEmpty) key value) path kind entries

/-- The lexemes without the blanks at their front. -/
def dropBlanks : List Lexeme → List Lexeme
  | .blank _ :: rest => dropBlanks rest
  | lexemes => lexemes

/-- The lexemes without the blanks and line breaks at their front. -/
def dropSpace : List Lexeme → List Lexeme
  | .blank _ :: rest | .newline :: rest => dropSpace rest
  | lexemes => lexemes

/-- The characters that keys without quotes are written with. -/
def isKeyChar (c : Char) : Bool :=
  c.isAlphanum || c = '_' || c = '-'

/-- A key at the front of the lexemes. -/
def key? : List Lexeme → Option (String × List Lexeme)
  | .atom chars :: rest => if chars.all isKeyChar then some (String.ofList chars, rest) else none
  | .string true text :: rest => some (text, rest)
  | _ => none

/-- A path of at most this many keys at the front of the lexemes, and the blanks after it. -/
def pathUpTo? : Nat → List Lexeme → Option (List String × List Lexeme)
  | 0, _ => none
  | bound + 1, lexemes => do
    let (key, rest) ← key? (dropBlanks lexemes)
    match dropBlanks rest with
    | .dot :: rest =>
      let (path, rest) ← pathUpTo? bound rest
      pure (key :: path, rest)
    | rest => pure ([key], rest)

/-- The greatest number of keys in one path, and the greatest depth of lists and tables within
one value. -/
def maxDepth : Nat := 80

/-- A path at the front of the lexemes, and the blanks after it. -/
def path? (lexemes : List Lexeme) : Option (List String × List Lexeme) :=
  pathUpTo? maxDepth lexemes

/-- The characters of the atoms and dots at the front of the lexemes. -/
def run : List Lexeme → List Char × List Lexeme
  | .atom chars :: rest => let (more, rest) := run rest; (chars ++ more, rest)
  | .dot :: rest => let (more, rest) := run rest; ('.' :: more, rest)
  | rest => ([], rest)

/-- A value without quotes at the front of the lexemes. A date may be followed by a single space
and a time. -/
def scalar? (lexemes : List Lexeme) : Option (Scalar × List Lexeme) := do
  let (chars, rest) := run lexemes
  let (chars, rest) :=
    match rest with
    | .blank [' '] :: .atom more :: after =>
      if Scalar.afterDate? chars = some [] ∧ (more.head?.any Char.isDigit) then
        let (time, rest) := run (.atom more :: after)
        (chars ++ ' ' :: time, rest)
      else (chars, rest)
    | rest => (chars, rest)
  let scalar ← Scalar.ofChars? chars
  pure (scalar, rest)

mutual

/-- A value at the front of the lexemes, with lists and tables nested at most this deep. -/
def value? : (bound room : Nat) → List Lexeme → Option (Value × List Lexeme)
  | 0, _, _ => none
  | _, _, .string _ text :: rest => some (.string text, rest)
  | bound + 1, room + 1, .openBracket :: rest => do
    let (items, rest) ← items? bound room rest
    pure (.array false items, rest)
  | bound + 1, room + 1, .openBrace :: rest => do
    let (entries, rest) ← entries? bound room [] rest
    pure (.table .inline entries, rest)
  | _, 0, .openBracket :: _ | _, 0, .openBrace :: _ => none
  | _, _, lexemes => (scalar? lexemes).map fun (scalar, rest) => (.scalar scalar, rest)

/-- The items of a list up to its closing bracket; a comma may stand after the last one. -/
def items? : (bound room : Nat) → List Lexeme → Option (List Value × List Lexeme)
  | 0, _, _ => none
  | bound + 1, room, lexemes =>
    match dropSpace lexemes with
    | .closeBracket :: rest => some ([], rest)
    | lexemes => do
      let (item, rest) ← value? bound room lexemes
      match dropSpace rest with
      | .comma :: rest =>
        let (items, rest) ← items? bound room rest
        pure (item :: items, rest)
      | .closeBracket :: rest => pure ([item], rest)
      | _ => none

/-- The entries of a table in braces, added to the ones before; a comma may stand after the last
one. Lines may be broken between all of its parts, but not within a path. -/
def entries? : (bound room : Nat) → Entries → List Lexeme → Option (Entries × List Lexeme)
  | 0, _, _, _ => none
  | bound + 1, room, entries, lexemes =>
    match dropSpace lexemes with
    | .closeBrace :: rest => some (entries, rest)
    | lexemes => do
      let (path, rest) ← path? lexemes
      match dropSpace rest with
      | .equals :: rest =>
        let (value, rest) ← value? bound room (dropSpace rest)
        let (_, entries) ← setPath path value .inline entries
        match dropSpace rest with
        | .comma :: rest => entries? bound room entries rest
        | .closeBrace :: rest => pure (entries, rest)
        | _ => none
      | _ => none

end

/-- A file that is read in part: the path of the current header, and the entries so far. -/
structure Progress where
  path : List String := []
  entries : Entries := []

/-- Reads a header, after its first bracket. -/
def header? (progress : Progress) (lexemes : List Lexeme) : Option (Progress × List Lexeme) :=
  match lexemes with
  | .openBracket :: rest => do
    let (path, rest) ← path? rest
    match rest with
    | .closeBracket :: .closeBracket :: rest =>
      let (parent, key) ← splitLast? path
      let (_, entries) ← changeAt false (openItem key) parent .header progress.entries
      pure (⟨path, entries⟩, rest)
    | _ => none
  | lexemes => do
    let (path, rest) ← path? lexemes
    match rest with
    | .closeBracket :: rest =>
      let (parent, key) ← splitLast? path
      let (_, entries) ← changeAt false (openTable key) parent .header progress.entries
      pure (⟨path, entries⟩, rest)
    | _ => none

/-- Reads a line that sets a key. -/
def assignment? (progress : Progress) (lexemes : List Lexeme) :
    Option (Progress × List Lexeme) := do
  let (path, rest) ← path? lexemes
  match rest with
  | .equals :: rest =>
    let (value, rest) ← value? (2 * rest.length) maxDepth (dropBlanks rest)
    let (_, entries) ←
      changeAt false (setPath path value) progress.path .header progress.entries
    pure (⟨progress.path, entries⟩, rest)
  | _ => none

/-- Reads lines, at most this many. -/
def lines? : Nat → Progress → List Lexeme → Option Entries
  | 0, _, _ => none
  | bound + 1, progress, lexemes =>
    match dropBlanks lexemes with
    | [] => some progress.entries
    | .newline :: rest => lines? bound progress rest
    | lexemes => do
      let (progress, rest) ←
        match lexemes with
        | .openBracket :: rest => header? progress rest
        | lexemes => assignment? progress lexemes
      match dropBlanks rest with
      | [] => some progress.entries
      | .newline :: rest => lines? bound progress rest
      | _ => none

/-- The entries of a file. -/
def ofText? (text : String) : Option Entries := do
  let lexemes ← Lexeme.scan? text
  lines? (lexemes.length + 1) {} lexemes

end Document

end OpaqueTokens.Toml
