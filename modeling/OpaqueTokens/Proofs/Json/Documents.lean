import OpaqueTokens.Proofs.Json.Doubles
import OpaqueTokens.Proofs.Json.Strings

/-!
# Documents read back

A value that is written without blanks is read as the tree of that value, whatever it holds and
however deep it is. What the tree means is a question of its own: its value is found again where
its numbers are integers of sixty-four bits and the reader has room for its depth.
-/

namespace OpaqueTokens.Json

open Text (utf8)

mutual

/-- The lexemes of a value. -/
def lexemes : Json → List Lexeme
  | .null => [.null]
  | .bool b => [.bool b]
  | .number n => [.number n.text]
  | .string s => [.string (escaped s)]
  | .array items => .openArray :: (itemLexemes items ++ [.closeArray])
  | .object fields => .openObject :: (fieldLexemes fields ++ [.closeObject])

/-- The lexemes of values with commas between them. -/
def itemLexemes : List Json → List Lexeme
  | [] => []
  | [item] => item.lexemes
  | item :: next :: rest => item.lexemes ++ .comma :: itemLexemes (next :: rest)

/-- The lexemes of fields with commas between them. -/
def fieldLexemes : List (String × Json) → List Lexeme
  | [] => []
  | [(name, value)] => .string (escaped name) :: .colon :: value.lexemes
  | (name, value) :: next :: rest =>
    .string (escaped name) :: .colon :: (value.lexemes ++ .comma :: fieldLexemes (next :: rest))

end

mutual

/-- The tree of a value as it is written. -/
def toNode : Json → Node
  | .null => .null
  | .bool b => .bool b
  | .number n => .number n.text
  | .string s => .string (escaped s)
  | .array items => .array (itemNodes items)
  | .object fields => .object (fieldNodes fields)

/-- The trees of the values of a list. -/
def itemNodes : List Json → List Node
  | [] => []
  | item :: rest => item.toNode :: itemNodes rest

/-- The fields of an object with the trees of their values. -/
def fieldNodes : List (String × Json) → List (List UInt8 × Node)
  | [] => []
  | (name, value) :: rest => (escaped name, value.toNode) :: fieldNodes rest

end

open Lexeme (scan? scan?_append_punctuation scan?_punctuation scan?_quote)

/-- A name and what follows its colon scan one after the other. -/
theorem scan?_named (name : String) {bytes : List UInt8} {after : List Lexeme}
    (h : scan? bytes = some after) :
    scan? (quote name ++ 0x3A :: bytes) = some (.string (escaped name) :: .colon :: after) :=
  scan?_append_punctuation (scan?_quote name)
    (rfl : Scan.punctuation? 0x3A = some .colon) h

/-- What stands between brackets scans between them. -/
theorem scan?_bracketed {first last : UInt8} {opening closing : Lexeme}
    (hopen : Scan.punctuation? first = some opening)
    (hclose : Scan.punctuation? last = some closing)
    {bytes : List UInt8} {inner : List Lexeme} (h : scan? bytes = some inner) :
    scan? (first :: bytes ++ [last]) = some (opening :: (inner ++ [closing])) :=
  scan?_punctuation hopen (scan?_append_punctuation h hclose (rfl : scan? [] = some []))

mutual

/-- A value that is written scans as its lexemes. -/
theorem scan?_write : (value : Json) → scan? value.write = some value.lexemes
  | .null => by simp only [write, lexemes]; rfl
  | .bool true => by simp only [write, lexemes]; rfl
  | .bool false => by simp only [write, lexemes]; rfl
  | .number n => by simpa only [write, lexemes] using n.scan?_write
  | .string s => by simpa only [write, lexemes] using scan?_quote s
  | .array items => by
    simpa only [write, lexemes] using scan?_bracketed rfl rfl (scan?_writeItems items)
  | .object fields => by
    simpa only [write, lexemes] using scan?_bracketed rfl rfl (scan?_writeFields fields)

/-- Values with commas between them scan as their lexemes. -/
theorem scan?_writeItems : (items : List Json) → scan? (writeItems items) = some (itemLexemes items)
  | [] => rfl
  | [item] => by simpa only [writeItems, itemLexemes] using scan?_write item
  | item :: next :: rest => by
    simpa only [writeItems, itemLexemes] using
      scan?_append_punctuation (scan?_write item) rfl (scan?_writeItems (next :: rest))

/-- Fields with commas between them scan as their lexemes. -/
theorem scan?_writeFields : (fields : List (String × Json)) →
    scan? (writeFields fields) = some (fieldLexemes fields)
  | [] => rfl
  | [(name, value)] => by
    simpa only [writeFields, fieldLexemes] using scan?_named name (scan?_write value)
  | (name, value) :: next :: rest => by
    have hrest := scan?_append_punctuation (scan?_write value) (p := 0x2C) rfl
      (scan?_writeFields (next :: rest))
    simpa only [writeFields, fieldLexemes, List.append_assoc, List.cons_append] using
      scan?_named name hrest

end

namespace Node

/-- Where a value may stand: after a comma, or first in a list. -/
def Awaiting.IsValue (awaiting : Awaiting) : Prop :=
  awaiting = .value ∨ awaiting = .valueOrClose

/-- Where a value may stand, every lexeme but a closing bracket starts one. -/
theorem step_isValue {awaiting : Awaiting} (h : awaiting.IsValue) (frames : List Frame)
    {lexeme : Lexeme} (hlexeme : lexeme ≠ .closeArray) :
    step (.unfinished frames awaiting) lexeme = startValue frames lexeme := by
  rcases h with rfl | rfl <;> simp [step, hlexeme]

/-- A name and its colon make way for a value. -/
theorem foldlM_name {awaiting : Awaiting} (h : awaiting = .name ∨ awaiting = .nameOrClose)
    (held : List (List UInt8 × Node)) (frames : List Frame) (name : List UInt8)
    (rest : List Lexeme) :
    (.string name :: .colon :: rest).foldlM step (.unfinished (.fields held :: frames) awaiting) =
      rest.foldlM step (.unfinished (.named held name :: frames) .value) := by
  rcases h with rfl | rfl <;> simp [step, startField]

mutual

/-- The lexemes of a value put its tree where it stands. -/
theorem foldlM_lexemes : (value : Json) → (frames : List Frame) → (awaiting : Awaiting) →
    awaiting.IsValue →
    value.lexemes.foldlM step (.unfinished frames awaiting) = put value.toNode frames
  | .null, frames, _, h => by simp [lexemes, toNode, step_isValue h, startValue]
  | .bool b, frames, _, h => by simp [lexemes, toNode, step_isValue h, startValue]
  | .number n, frames, _, h => by simp [lexemes, toNode, step_isValue h, startValue]
  | .string s, frames, _, h => by simp [lexemes, toNode, step_isValue h, startValue]
  | .array items, frames, _, h => by
    rw [lexemes, List.foldlM_cons, step_isValue h frames (by simp), toNode]
    by_cases hne : items = []
    · simp [hne, startValue, itemLexemes, itemNodes, step, close]
    · have hitems := foldlM_itemLexemes items hne [] frames .valueOrClose (.inr rfl)
      simp [startValue, hitems, step, close]
  | .object fields, frames, _, h => by
    rw [lexemes, List.foldlM_cons, step_isValue h frames (by simp), toNode]
    by_cases hne : fields = []
    · simp [hne, startValue, fieldLexemes, fieldNodes, step, close]
    · have hfields := foldlM_fieldLexemes fields hne [] frames .nameOrClose
        (.inr rfl)
      simp [startValue, hfields, step, close]

/-- The lexemes of values add their trees to the list that they stand in. -/
theorem foldlM_itemLexemes : (items : List Json) → items ≠ [] → (held : List Node) →
    (frames : List Frame) → (awaiting : Awaiting) → awaiting.IsValue →
    (itemLexemes items).foldlM step (.unfinished (.items held :: frames) awaiting) =
      some (.unfinished (.items ((itemNodes items).reverse ++ held) :: frames) .commaOrClose)
  | [], hne, _, _, _, _ => absurd rfl hne
  | [item], _, held, frames, _, h => by
    simp [itemLexemes, itemNodes, foldlM_lexemes item (.items held :: frames) _ h, put]
  | item :: next :: rest, _, held, frames, _, h => by
    have hrest := foldlM_itemLexemes (next :: rest) (List.cons_ne_nil _ _) (item.toNode :: held)
      frames .value (.inl rfl)
    rw [itemLexemes, List.foldlM_append, foldlM_lexemes item (.items held :: frames) _ h, itemNodes]
    simp [put, step, afterComma, hrest]

/-- The lexemes of fields add them to the object that they stand in. -/
theorem foldlM_fieldLexemes : (fields : List (String × Json)) → fields ≠ [] →
    (held : List (List UInt8 × Node)) → (frames : List Frame) → (awaiting : Awaiting) →
    awaiting = .name ∨ awaiting = .nameOrClose →
    (fieldLexemes fields).foldlM step (.unfinished (.fields held :: frames) awaiting) =
      some (.unfinished (.fields ((fieldNodes fields).reverse ++ held) :: frames) .commaOrClose)
  | [], hne, _, _, _, _ => absurd rfl hne
  | [(name, value)], _, held, frames, _, h => by
    rw [fieldLexemes, foldlM_name h,
      foldlM_lexemes value (.named held (escaped name) :: frames) .value (.inl rfl)]
    simp [fieldNodes, put]
  | (name, value) :: next :: rest, _, held, frames, _, h => by
    have hrest := foldlM_fieldLexemes (next :: rest) (List.cons_ne_nil _ _)
      ((escaped name, value.toNode) :: held) frames .name (.inl rfl)
    rw [fieldLexemes, foldlM_name h, List.foldlM_append,
      foldlM_lexemes value (.named held (escaped name) :: frames) .value (.inl rfl), fieldNodes]
    simp [put, step, afterComma, hrest]

end

/-- The bytes of a value are read as its tree. -/
theorem ofBytes?_write (value : Json) : ofBytes? value.write = some value.toNode := by
  have htree := foldlM_lexemes value [] .value (.inl rfl)
  rw [ofBytes?, scan?_write, Option.bind_some, ofLexemes?, htree]
  rfl

end Node

end OpaqueTokens.Json
