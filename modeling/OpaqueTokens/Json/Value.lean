import OpaqueTokens.Json.Number

/-!
# Values of documents

The value of a document, with its objects as lists of fields in written order. Attributes that a
token carries are kept in bags: fields in the order of their names, each name once, and the same
inside every value. Two bags with the same fields are therefore the same value and are written
alike.
-/

namespace OpaqueTokens

/-- The value of a document. -/
inductive Json where
  | null
  | bool (value : Bool)
  | number (value : Json.Number)
  | string (value : String)
  | array (items : List Json)
  | object (fields : List (String × Json))
  deriving Repr, Inhabited

namespace Json

/-- A whole number as a value. -/
def int (n : Int) : Json :=
  .number (.integer n)

mutual

/-- Equality of values is decided by going through both. -/
def decEq : (a b : Json) → Decidable (a = b)
  | .null, .null => isTrue rfl
  | .bool a, .bool b => decidable_of_iff (a = b) (by simp)
  | .number a, .number b => decidable_of_iff (a = b) (by simp)
  | .string a, .string b => decidable_of_iff (a = b) (by simp)
  | .array as, .array bs =>
    match decEqItems as bs with
    | isTrue h => isTrue (by rw [h])
    | isFalse h => isFalse (by simpa using h)
  | .object as, .object bs =>
    match decEqFields as bs with
    | isTrue h => isTrue (by rw [h])
    | isFalse h => isFalse (by simpa using h)
  | .null, .bool _ | .null, .number _ | .null, .string _ | .null, .array _ | .null, .object _ =>
    isFalse (by simp)
  | .bool _, .null | .bool _, .number _ | .bool _, .string _ | .bool _, .array _
  | .bool _, .object _ => isFalse (by simp)
  | .number _, .null | .number _, .bool _ | .number _, .string _ | .number _, .array _
  | .number _, .object _ => isFalse (by simp)
  | .string _, .null | .string _, .bool _ | .string _, .number _ | .string _, .array _
  | .string _, .object _ => isFalse (by simp)
  | .array _, .null | .array _, .bool _ | .array _, .number _ | .array _, .string _
  | .array _, .object _ => isFalse (by simp)
  | .object _, .null | .object _, .bool _ | .object _, .number _ | .object _, .string _
  | .object _, .array _ => isFalse (by simp)

/-- Equality of lists of values. -/
def decEqItems : (as bs : List Json) → Decidable (as = bs)
  | [], [] => isTrue rfl
  | a :: as, b :: bs =>
    match decEq a b, decEqItems as bs with
    | isTrue h, isTrue h' => isTrue (by rw [h, h'])
    | isFalse h, _ => isFalse (by simp [h])
    | _, isFalse h => isFalse (by simp [h])
  | [], _ :: _ | _ :: _, [] => isFalse (by simp)

/-- Equality of lists of fields. -/
def decEqFields : (as bs : List (String × Json)) → Decidable (as = bs)
  | [], [] => isTrue rfl
  | (k, a) :: as, (l, b) :: bs =>
    match (inferInstance : Decidable (k = l)), decEq a b, decEqFields as bs with
    | isTrue h, isTrue h', isTrue h'' => isTrue (by rw [h, h', h''])
    | isFalse h, _, _ => isFalse (by simp [h])
    | _, isFalse h, _ => isFalse (by simp [h])
    | _, _, isFalse h => isFalse (by simp [h])
  | [], _ :: _ | _ :: _, [] => isFalse (by simp)

end

instance : DecidableEq Json := decEq

/-- The value of the last field of a name. -/
def field? (fields : List (String × Json)) (name : String) : Option Json :=
  (fields.reverse.find? (·.1 = name)).map (·.2)

/-- Puts a field into fields in the order of their names, in the place of one of its name. -/
def insertField (name : String) (value : Json) : List (String × Json) → List (String × Json)
  | [] => [(name, value)]
  | (other, held) :: rest =>
    if name < other then (name, value) :: (other, held) :: rest
    else if name = other then (name, value) :: rest
    else (other, held) :: insertField name value rest

mutual

/-- A value with the fields of every object in the order of their names; of fields that share a
name the last one stays. -/
def normalize : Json → Json
  | .array items => .array (normalizeItems items)
  | .object fields => .object (normalizeFields [] fields)
  | .null => .null
  | .bool b => .bool b
  | .number n => .number n
  | .string s => .string s

/-- The normalised values of a list. -/
def normalizeItems : List Json → List Json
  | [] => []
  | item :: rest => item.normalize :: normalizeItems rest

/-- The normalised fields, put one after another into fields that are in order already. -/
def normalizeFields (sorted : List (String × Json)) :
    List (String × Json) → List (String × Json)
  | [] => sorted
  | (name, value) :: rest => normalizeFields (insertField name value.normalize sorted) rest

end

mutual

/-- The property of a value whose objects all have their fields in the order of their names. -/
def IsNormal : Json → Prop
  | .array items => AllNormal items
  | .object fields => fields.Pairwise (·.1 < ·.1) ∧ FieldsNormal fields
  | .null | .bool _ | .number _ | .string _ => True

/-- Every value of a list is normal. -/
def AllNormal : List Json → Prop
  | [] => True
  | item :: rest => item.IsNormal ∧ AllNormal rest

/-- The value of every field is normal. -/
def FieldsNormal : List (String × Json) → Prop
  | [] => True
  | (_, value) :: rest => value.IsNormal ∧ FieldsNormal rest

end

/-- A field after an insertion is the new one or was there before. -/
theorem mem_insertField {name : String} {value : Json} {fields : List (String × Json)}
    {field : String × Json} (h : field ∈ insertField name value fields) :
    field = (name, value) ∨ field ∈ fields := by
  induction fields with
  | nil => simpa [insertField] using h
  | cons head rest ih =>
    obtain ⟨other, held⟩ := head
    unfold insertField at h
    split at h
    · simpa using h
    · split at h
      · rcases List.mem_cons.mp h with h | h <;> simp [h]
      · rcases List.mem_cons.mp h with h | h
        · simp [h]
        · rcases ih h with h | h <;> simp [h]

/-- Insertion keeps the fields in the order of their names. -/
theorem pairwise_insertField (name : String) (value : Json) {fields : List (String × Json)}
    (h : fields.Pairwise (·.1 < ·.1)) : (insertField name value fields).Pairwise (·.1 < ·.1) := by
  induction fields with
  | nil => simp [insertField]
  | cons head rest ih =>
    obtain ⟨other, held⟩ := head
    obtain ⟨hhead, hrest⟩ := List.pairwise_cons.mp h
    unfold insertField
    split
    · rename_i hlt
      refine List.pairwise_cons.mpr ⟨fun field hfield => ?_, h⟩
      rcases List.mem_cons.mp hfield with rfl | hin
      · exact hlt
      · exact String.lt_trans hlt (hhead field hin)
    · split
      · rename_i heq
        exact List.pairwise_cons.mpr ⟨fun field hin => heq ▸ hhead field hin, hrest⟩
      · rename_i hle hne
        refine List.pairwise_cons.mpr ⟨fun field hfield => ?_, ih hrest⟩
        rcases mem_insertField hfield with rfl | hin
        · rcases String.le_total name other with hcase | hcase
          · exact absurd (String.le_antisymm hcase (String.not_lt.mp hle)) hne
          · refine Decidable.byContradiction fun hge => hne ?_
            exact String.le_antisymm (String.not_lt.mp hge) hcase
        · exact hhead field hin

/-- Fields are normal when the value of each of them is. -/
theorem fieldsNormal_iff {fields : List (String × Json)} :
    FieldsNormal fields ↔ ∀ field ∈ fields, field.2.IsNormal := by
  induction fields with
  | nil => simp [FieldsNormal]
  | cons head rest ih => obtain ⟨name, value⟩ := head; simp [FieldsNormal, ih]

/-- Inserting a normal value keeps fields normal. -/
theorem fieldsNormal_insertField (name : String) {value : Json} {fields : List (String × Json)}
    (hvalue : value.IsNormal) (h : FieldsNormal fields) :
    FieldsNormal (insertField name value fields) := by
  rw [fieldsNormal_iff] at h ⊢
  intro field hfield
  rcases mem_insertField hfield with rfl | hin
  · exact hvalue
  · exact h field hin

mutual

/-- Normalising a value makes it normal. -/
theorem isNormal_normalize : (value : Json) → value.normalize.IsNormal
  | .array items => by
    simpa only [normalize, IsNormal] using allNormal_normalizeItems items
  | .object fields => by
    simpa only [normalize, IsNormal] using
      normalizeFields_isNormal [] fields List.Pairwise.nil trivial
  | .null | .bool _ | .number _ | .string _ => trivial

/-- Normalising values makes them all normal. -/
theorem allNormal_normalizeItems : (items : List Json) → AllNormal (normalizeItems items)
  | [] => trivial
  | item :: rest => ⟨isNormal_normalize item, allNormal_normalizeItems rest⟩

/-- Normalising fields puts them in order and makes their values normal. -/
theorem normalizeFields_isNormal (sorted : List (String × Json)) :
    (fields : List (String × Json)) → sorted.Pairwise (·.1 < ·.1) → FieldsNormal sorted →
      (normalizeFields sorted fields).Pairwise (·.1 < ·.1) ∧
        FieldsNormal (normalizeFields sorted fields)
  | [], hsorted, hnormal => ⟨hsorted, hnormal⟩
  | (name, value) :: rest, hsorted, hnormal =>
    normalizeFields_isNormal (insertField name value.normalize sorted) rest
      (pairwise_insertField name value.normalize hsorted)
      (fieldsNormal_insertField name (isNormal_normalize value) hnormal)

end

end Json

/-- Attributes of a token: fields in the order of their names, normal throughout. -/
@[ext]
structure Bag where
  fields : List (String × Json) := []
  sorted : fields.Pairwise (·.1 < ·.1) := by exact List.Pairwise.nil
  normal : Json.FieldsNormal fields := by trivial
  deriving DecidableEq

namespace Bag

/-- The bag without fields. -/
def empty : Bag := {}

/-- The bag of fields in any order; of fields that share a name the last one stays. -/
def ofFields (fields : List (String × Json)) : Bag where
  fields := Json.normalizeFields [] fields
  sorted := (Json.normalizeFields_isNormal [] fields List.Pairwise.nil trivial).1
  normal := (Json.normalizeFields_isNormal [] fields List.Pairwise.nil trivial).2

/-- A bag as a value. -/
def toJson (bag : Bag) : Json :=
  .object bag.fields

/-- A bag without fields. -/
def isEmpty (bag : Bag) : Bool :=
  bag.fields.isEmpty

/-- Both bags, where a name in both takes the value of the second. -/
def merge (general specific : Bag) : Bag :=
  ofFields (general.fields ++ specific.fields)

end Bag

end OpaqueTokens
