import OpaqueTokens.Text.Blank

/-!
# Scopes

A scope is a set of values, each a word. It is kept in the order of its values, so that two
scopes with the same values are equal and are joined to the same text. Every way to make a scope
splits what it is given into words first; therefore the joined text splits into the same values
again.
-/

namespace OpaqueTokens

/-- A set of scope values in their order. -/
@[ext]
structure Scope where
  values : List String := []
  sorted : values.Pairwise (· < ·) := by exact List.Pairwise.nil
  words : ∀ value ∈ values, Text.IsWord value := by simp
  deriving DecidableEq

namespace Scope

/-- Puts a value into values that are in order, unless it is there already. -/
def insertValue (value : String) : List String → List String
  | [] => [value]
  | other :: rest =>
    if value < other then value :: other :: rest
    else if value = other then other :: rest
    else other :: insertValue value rest

/-- The values after an insertion are the new one and the ones before. -/
theorem mem_insertValue {value : String} {values : List String} {x : String} :
    x ∈ insertValue value values ↔ x = value ∨ x ∈ values := by
  induction values with
  | nil => simp [insertValue]
  | cons other rest ih =>
    unfold insertValue
    split
    · simp
    · split
      · rename_i heq; subst heq; simp
      · simp only [List.mem_cons, ih]
        constructor
        · rintro (h | h | h) <;> simp [h]
        · rintro (h | h | h) <;> simp [h]

/-- Insertion keeps the values in order. -/
theorem pairwise_insertValue (value : String) {values : List String}
    (h : values.Pairwise (· < ·)) : (insertValue value values).Pairwise (· < ·) := by
  induction values with
  | nil => simp [insertValue]
  | cons other rest ih =>
    obtain ⟨hhead, hrest⟩ := List.pairwise_cons.mp h
    unfold insertValue
    split
    · rename_i hlt
      refine List.pairwise_cons.mpr ⟨fun x hx => ?_, h⟩
      rcases List.mem_cons.mp hx with rfl | hin
      · exact hlt
      · exact String.lt_trans hlt (hhead x hin)
    · split
      · exact h
      · rename_i hnlt hne
        refine List.pairwise_cons.mpr ⟨fun x hx => ?_, ih hrest⟩
        rcases mem_insertValue.mp hx with rfl | hin
        · exact Decidable.byContradiction fun hge =>
            hne (String.le_antisymm (String.not_lt.mp hge) (String.not_lt.mp hnlt))
        · exact hhead x hin

/-- The scope without values. -/
def empty : Scope := {}

/-- A scope with one word more. -/
def insertWord (scope : Scope) (word : String) (h : Text.IsWord word) : Scope where
  values := insertValue word scope.values
  sorted := pairwise_insertValue word scope.sorted
  words := fun value hvalue => by
    rcases mem_insertValue.mp hvalue with rfl | hin
    · exact h
    · exact scope.words value hin

/-- A scope with further words. -/
def insertWords (scope : Scope) : (words : List String) → (∀ w ∈ words, Text.IsWord w) → Scope
  | [], _ => scope
  | word :: rest, h =>
    (scope.insertWord word (h word List.mem_cons_self)).insertWords rest
      fun w hw => h w (List.mem_cons_of_mem _ hw)

/-- A scope with the words of a text. -/
def insert (scope : Scope) (text : String) : Scope :=
  scope.insertWords (Text.words text) fun _ h => Text.isWord_of_mem_words h

/-- Whether an insertion brings a value that the scope lacks. -/
def insertsNew (scope : Scope) (text : String) : Bool :=
  (Text.words text).any fun word => !scope.values.contains word

/-- The scope of the words of a text. -/
def ofText (text : String) : Scope :=
  empty.insert text

/-- The scope of the words of several texts. -/
def ofTexts (texts : List String) : Scope :=
  texts.foldl insert empty

/-- The values in their order with single spaces between them. -/
def joined (scope : Scope) : String :=
  " ".intercalate scope.values

/-- Whether a scope has no values. -/
def isEmpty (scope : Scope) : Bool :=
  scope.values.isEmpty

/-- The number of values. -/
def size (scope : Scope) : Nat :=
  scope.values.length

/-- Whether a text is one of the values. -/
def contains (scope : Scope) (value : String) : Bool :=
  scope.values.contains value

/-- Whether every value of another scope is one of this one. -/
def containsAll (scope other : Scope) : Bool :=
  other.values.all scope.contains

/-- The values that two scopes share. -/
def intersection (scope other : Scope) : Scope where
  values := scope.values.filter other.contains
  sorted := scope.sorted.filter _
  words := fun value h => scope.words value (List.mem_filter.mp h).1

/-- Whether the grant is for an identity. -/
def hasOpenid (scope : Scope) : Bool :=
  scope.contains "openid"

/-- Whether the grant outlives the session. -/
def hasOfflineAccess (scope : Scope) : Bool :=
  scope.contains "offline_access"

end Scope

end OpaqueTokens
