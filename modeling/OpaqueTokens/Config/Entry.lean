import OpaqueTokens.Json.Value
import OpaqueTokens.Toml.Document

/-!
# Entries of a configuration

What a configuration is read from, whichever format it was written in: texts, flags, and sections
of named entries. A section may also be written as the list of its entries in their order. Entries
of unknown names do not count, but a number that cannot be represented spoils a section also
there.
-/

namespace OpaqueTokens

/-- A value in a configuration as it is written. -/
inductive Entry where
  | text (value : String)
  | flag (value : Bool)
  /-- A value of a kind that no setting has. -/
  | other
  /-- A value that cannot be represented. -/
  | unreadable
  | items (values : List Entry)
  | group (fields : List (String × Entry))
  deriving Repr, Inhabited

namespace Entry

mutual

/-- Whether all that a value holds can be represented. -/
def isReadable : Entry → Bool
  | .text _ | .flag _ | .other => true
  | .unreadable => false
  | .items values => allReadable values
  | .group fields => fieldsReadable fields

/-- Whether all values of a list can be represented. -/
def allReadable : List Entry → Bool
  | [] => true
  | value :: rest => value.isReadable && allReadable rest

/-- Whether the values of all fields can be represented. -/
def fieldsReadable : List (String × Entry) → Bool
  | [] => true
  | (_, value) :: rest => value.isReadable && fieldsReadable rest

end

mutual

/-- The entry of a JSON value. -/
def ofJson : Json → Entry
  | .string value => .text value
  | .bool value => .flag value
  | .null | .number _ => .other
  | .array values => .items (ofJsonItems values)
  | .object fields => .group (ofJsonFields fields)

/-- The entries of a list of JSON values. -/
def ofJsonItems : List Json → List Entry
  | [] => []
  | value :: rest => ofJson value :: ofJsonItems rest

/-- The entries of the fields of a JSON object. -/
def ofJsonFields : List (String × Json) → List (String × Entry)
  | [] => []
  | (name, value) :: rest => (name, ofJson value) :: ofJsonFields rest

end

/-- The entry of a TOML value without quotes. A date or time is a section without any known
name. -/
def ofScalar : Toml.Scalar → Entry
  | .boolean value => .flag value
  | .number true => .other
  | .number false => .unreadable
  | .moment => .group []

mutual

/-- The entry of a TOML value. -/
def ofToml : Toml.Value → Entry
  | .string value => .text value
  | .scalar value => ofScalar value
  | .array _ values => .items (ofTomlItems values)
  | .table _ fields => .group (ofTomlFields fields)

/-- The entries of a list of TOML values. -/
def ofTomlItems : List Toml.Value → List Entry
  | [] => []
  | value :: rest => ofToml value :: ofTomlItems rest

/-- The entries of the fields of a TOML table. -/
def ofTomlFields : List (String × Toml.Value) → List (String × Entry)
  | [] => []
  | (name, value) :: rest => (name, ofToml value) :: ofTomlFields rest

end

/-- What is done with the items of a section's list that are more than the section has names. -/
inductive Surplus where
  | refused
  | ignored
  deriving DecidableEq, Repr

/-- The text of a text. -/
def text? : Entry → Option String
  | .text value => some value
  | _ => none

/-- The value of a flag. -/
def flag? : Entry → Option Bool
  | .flag value => some value
  | _ => none

/-- The entries of a section with these names. Of entries that share a name the last one
counts. -/
def section? (surplus : Surplus) (names : List String) : Entry → Option (List (String × Entry))
  | .group fields =>
    if fields.all fun field => names.contains field.1 || field.2.isReadable then
      some fields.reverse
    else none
  | .items values =>
    if surplus = .refused ∧ names.length < values.length then none
    else some (names.zip values)
  | .text _ | .flag _ | .other | .unreadable => none

/-- Reads the entry of a name, or takes the default where there is none. -/
def setting? {α : Type} (fields : List (String × Entry)) (name : String)
    (read? : Entry → Option α) (default : α) : Option α :=
  match fields.lookup name with
  | some entry => read? entry
  | none => some default

end Entry

end OpaqueTokens
