import OpaqueTokens.Json.Lexeme
import OpaqueTokens.Json.Value
import OpaqueTokens.Text.Utf8

/-!
# Documents as they are written

The tree of a document before its strings and numbers are given a meaning. Any nesting is
accepted here, and so are strings that spell no text; a reader asks for the text, the integer or
the value of the parts that it needs and ignores the rest. That is how one document can be read
twice, first for its kind and then for its claims, and mean the same both times.
-/

namespace OpaqueTokens.Json

/-- A document as it is written. -/
inductive Node where
  | null
  | bool (value : Bool)
  | number (text : NumberText)
  | string (content : List UInt8)
  | array (items : List Node)
  | object (fields : List (List UInt8 × Node))
  deriving Repr, Inhabited

namespace Node

/-- A list or an object that is not closed yet; its parts are held latest first. -/
inductive Frame where
  | items (latestFirst : List Node)
  | fields (latestFirst : List (List UInt8 × Node))
  /-- An object that awaits the value of a name. -/
  | named (latestFirst : List (List UInt8 × Node)) (name : List UInt8)

/-- What may come next in the innermost frame. -/
inductive Awaiting where
  | value
  | valueOrClose
  | name
  | nameOrClose
  | colon
  | commaOrClose

/-- A document that is read in part: the open frames, the innermost first, or the whole tree. -/
inductive Reading where
  | unfinished (frames : List Frame) (awaiting : Awaiting)
  | finished (node : Node)

/-- Puts a complete value where the innermost frame awaits one. -/
def put (node : Node) : List Frame → Option Reading
  | [] => some (.finished node)
  | .items latestFirst :: frames =>
    some (.unfinished (.items (node :: latestFirst) :: frames) .commaOrClose)
  | .named latestFirst name :: frames =>
    some (.unfinished (.fields ((name, node) :: latestFirst) :: frames) .commaOrClose)
  | .fields _ :: _ => none

/-- A lexeme where a value is awaited. -/
def startValue (frames : List Frame) : Lexeme → Option Reading
  | .null => put .null frames
  | .bool value => put (.bool value) frames
  | .number text => put (.number text) frames
  | .string content => put (.string content) frames
  | .openArray => some (.unfinished (.items [] :: frames) .valueOrClose)
  | .openObject => some (.unfinished (.fields [] :: frames) .nameOrClose)
  | .closeArray | .closeObject | .colon | .comma => none

/-- Closes the innermost frame. -/
def close (lexeme : Lexeme) : List Frame → Option Reading
  | .items latestFirst :: frames =>
    if lexeme = .closeArray then put (.array latestFirst.reverse) frames else none
  | .fields latestFirst :: frames =>
    if lexeme = .closeObject then put (.object latestFirst.reverse) frames else none
  | _ => none

/-- A name in the innermost object. -/
def startField (lexeme : Lexeme) : List Frame → Option Reading
  | .fields latestFirst :: frames =>
    match lexeme with
    | .string name => some (.unfinished (.named latestFirst name :: frames) .colon)
    | _ => none
  | _ => none

/-- What a comma leads to in the innermost frame. -/
def afterComma : List Frame → Option Reading
  | .items latestFirst :: frames => some (.unfinished (.items latestFirst :: frames) .value)
  | .fields latestFirst :: frames => some (.unfinished (.fields latestFirst :: frames) .name)
  | _ => none

/-- One lexeme of a document. -/
def step (reading : Reading) (lexeme : Lexeme) : Option Reading :=
  match reading with
  | .finished _ => none
  | .unfinished frames awaiting =>
    match awaiting with
    | .value => startValue frames lexeme
    | .valueOrClose =>
      if lexeme = .closeArray then close lexeme frames else startValue frames lexeme
    | .name => startField lexeme frames
    | .nameOrClose =>
      if lexeme = .closeObject then close lexeme frames else startField lexeme frames
    | .colon => if lexeme = .colon then some (.unfinished frames .value) else none
    | .commaOrClose => if lexeme = .comma then afterComma frames else close lexeme frames

/-- The tree of a sequence of lexemes. -/
def ofLexemes? (lexemes : List Lexeme) : Option Node := do
  match ← lexemes.foldlM step (.unfinished [] .value) with
  | .finished node => some node
  | .unfinished _ _ => none

/-- The tree of a document. -/
def ofBytes? (bytes : List UInt8) : Option Node :=
  (Lexeme.scan? bytes).bind ofLexemes?

/-- The number that four hexadecimal digits spell. -/
def hexValue (b : UInt8) : Nat :=
  if b ≤ 0x39 then b.toNat - 0x30 else (b.toNat % 32) + 9

/-- The sixteen-bit unit of an escape. -/
def unit (a b c d : UInt8) : Nat :=
  ((hexValue a * 16 + hexValue b) * 16 + hexValue c) * 16 + hexValue d

/-- The byte that a one-letter escape stands for. -/
def letterByte (letter : UInt8) : UInt8 :=
  if letter = 0x62 then 0x08
  else if letter = 0x66 then 0x0C
  else if letter = 0x6E then 0x0A
  else if letter = 0x72 then 0x0D
  else if letter = 0x74 then 0x09
  else letter

/-- The bytes of a string with its escapes resolved. Two units escaped one after the other make
one character where they are a surrogate pair; any other surrogate has no text. -/
def unescape? : List UInt8 → Option (List UInt8)
  | [] => some []
  | 0x5C :: 0x75 :: a :: b :: c :: d :: rest =>
    let high := unit a b c d
    if high < 0xD800 ∨ 0xDFFF < high then
      (unescape? rest).map (String.utf8EncodeChar (Char.ofNat high) ++ ·)
    else if 0xDC00 ≤ high then none
    else
      match rest with
      | 0x5C :: 0x75 :: e :: f :: g :: h :: rest =>
        let low := unit e f g h
        if 0xDC00 ≤ low ∧ low ≤ 0xDFFF then
          let point := 0x10000 + (high - 0xD800) * 0x400 + (low - 0xDC00)
          (unescape? rest).map (String.utf8EncodeChar (Char.ofNat point) ++ ·)
        else none
      | _ => none
  | 0x5C :: letter :: rest => (unescape? rest).map (letterByte letter :: ·)
  | b :: rest => (unescape? rest).map (b :: ·)

/-- The text of a string's content. -/
def textOf? (content : List UInt8) : Option String :=
  (unescape? content).bind Text.ofUtf8?

/-- The text of a string. -/
def text? : Node → Option String
  | .string content => textOf? content
  | _ => none

/-- The integer of a number without fraction and exponent. -/
def integer? : Node → Option Int
  | .number text => text.integer?
  | _ => none

/-- The texts of a list of strings. -/
def texts? : Node → Option (List String)
  | .array items => items.mapM text?
  | _ => none

mutual

/-- The value of a document whose lists and objects are nested at most this deep. -/
def toJson? : Nat → Node → Option Json
  | _, .null => some .null
  | _, .bool value => some (.bool value)
  | _, .number text => text.value?.map .number
  | _, .string content => (textOf? content).map .string
  | 0, .array _ | 0, .object _ => none
  | room + 1, .array items => (itemsToJson? room items).map .array
  | room + 1, .object fields => (fieldsToJson? room fields).map .object

/-- The values of a list. -/
def itemsToJson? : Nat → List Node → Option (List Json)
  | _, [] => some []
  | room, item :: rest => do
    let value ← toJson? room item
    let values ← itemsToJson? room rest
    pure (value :: values)

/-- The fields of an object with their values. -/
def fieldsToJson? : Nat → List (List UInt8 × Node) → Option (List (String × Json))
  | _, [] => some []
  | room, (name, node) :: rest => do
    let name ← textOf? name
    let value ← toJson? room node
    let fields ← fieldsToJson? room rest
    pure ((name, value) :: fields)

end

end Node

/-- The value of a document whose lists and objects are nested at most this deep. -/
def ofBytes? (room : Nat) (bytes : List UInt8) : Option Json :=
  (Node.ofBytes? bytes).bind (Node.toJson? room)

end OpaqueTokens.Json
