import OpaqueTokens.Proofs.Text.Words
import OpaqueTokens.Scope

/-!
# Scopes as joined text and as sets

A scope is read back from its joined text: the text splits into the values, and values that are
put in order one after another stay as they are. Since they are in order, scopes that contain each
other are the same.
-/

namespace OpaqueTokens.Scope

/-- A value past all others is put last. -/
theorem insertValue_of_lt {value : String} {values : List String} (h : ∀ v ∈ values, v < value) :
    insertValue value values = values ++ [value] := by
  induction values with
  | nil => rfl
  | cons other rest ih =>
    rw [List.forall_mem_cons] at h
    have hlt : ¬value < other := String.lt_asymm h.1
    have hne : value ≠ other := fun heq => String.lt_irrefl other (heq ▸ h.1)
    simp [insertValue, hlt, hne, ih h.2]

/-- Words in order that all lie past the values are put after them as they are. -/
theorem values_insertWords {scope : Scope} {words : List String}
    (hwords : ∀ w ∈ words, Text.IsWord w) (h : (scope.values ++ words).Pairwise (· < ·)) :
    (scope.insertWords words hwords).values = scope.values ++ words := by
  induction words generalizing scope with
  | nil => simp [insertWords]
  | cons word rest ih =>
    have hpast : ∀ v ∈ scope.values, v < word := fun v hv =>
      (List.pairwise_append.mp h).2.2 v hv word List.mem_cons_self
    have hvalues : (scope.insertWord word (hwords word List.mem_cons_self)).values =
        scope.values ++ [word] := insertValue_of_lt hpast
    rw [insertWords, ih _ (by rw [hvalues]; simpa using h), hvalues]
    simp

/-- The joined text of a scope is read back as that scope. -/
theorem ofText_joined (scope : Scope) : ofText scope.joined = scope := by
  have hwords : Text.words scope.joined = scope.values := Text.words_intercalate scope.words
  apply Scope.ext
  rw [ofText, insert, values_insertWords]
  · simpa [empty] using hwords
  · simpa [empty, hwords] using scope.sorted

/-- A scope is empty just when nothing is one of its values. -/
theorem isEmpty_iff {scope : Scope} : scope.isEmpty = true ↔ ∀ value, value ∉ scope.values := by
  rw [isEmpty, List.isEmpty_iff, List.eq_nil_iff_forall_not_mem]

/-- A scope contains another one just when all values of the other are its own. -/
theorem containsAll_iff {scope other : Scope} :
    scope.containsAll other = true ↔ ∀ value ∈ other.values, value ∈ scope.values := by
  simp [containsAll, contains]

theorem containsAll_self (scope : Scope) : scope.containsAll scope = true :=
  containsAll_iff.mpr fun _ h => h

/-- A scope contains all that the scopes that it contains do. -/
theorem containsAll_trans {a b c : Scope} (hab : a.containsAll b = true)
    (hbc : b.containsAll c = true) : a.containsAll c = true :=
  containsAll_iff.mpr fun value h =>
    containsAll_iff.mp hab value (containsAll_iff.mp hbc value h)

/-- Scopes that contain each other are the same, since their values are in order. -/
theorem containsAll_antisymm {a b : Scope} (hab : a.containsAll b = true)
    (hba : b.containsAll a = true) : a = b := by
  have hnodup (scope : Scope) : scope.values.Nodup := scope.sorted.imp String.ne_of_lt
  have hmem (value : String) : value ∈ a.values ↔ value ∈ b.values :=
    ⟨containsAll_iff.mp hba value, containsAll_iff.mp hab value⟩
  have hperm : a.values.Perm b.values :=
    (List.perm_ext_iff_of_nodup (hnodup a) (hnodup b)).mpr hmem
  refine Scope.ext (hperm.eq_of_pairwise ?_ a.sorted b.sorted)
  intro x y _ _ hxy hyx
  exact absurd hyx (String.lt_asymm hxy)

/-- Scopes with the same values are the same. -/
theorem eq_of_mem_iff {a b : Scope} (h : ∀ value, value ∈ a.values ↔ value ∈ b.values) : a = b :=
  containsAll_antisymm (containsAll_iff.mpr fun value => (h value).mpr)
    (containsAll_iff.mpr fun value => (h value).mp)

/-- The values that two scopes share are the values of both. -/
theorem mem_intersection_iff {a b : Scope} {value : String} :
    value ∈ (a.intersection b).values ↔ value ∈ a.values ∧ value ∈ b.values := by
  simp [intersection, contains]

/-- The values that two scopes share are values of the first one. -/
theorem containsAll_intersection (scope other : Scope) :
    scope.containsAll (scope.intersection other) = true :=
  containsAll_iff.mpr fun _ h => (mem_intersection_iff.mp h).1

/-- The values after several words were put in are these and the ones before. -/
theorem mem_insertWords_iff {scope : Scope} {words : List String}
    (hwords : ∀ w ∈ words, Text.IsWord w) {value : String} :
    value ∈ (scope.insertWords words hwords).values ↔ value ∈ scope.values ∨ value ∈ words := by
  induction words generalizing scope with
  | nil => simp [insertWords]
  | cons word rest ih =>
    rw [insertWords, ih, insertWord, mem_insertValue, List.mem_cons]
    tauto

/-- The values after an insertion are the words of the text and the values before. -/
theorem mem_insert_iff {scope : Scope} {text value : String} :
    value ∈ (scope.insert text).values ↔ value ∈ scope.values ∨ value ∈ Text.words text :=
  mem_insertWords_iff _

/-- The values of the scope of a text are its words. -/
theorem mem_ofText_iff {text value : String} :
    value ∈ (ofText text).values ↔ value ∈ Text.words text := by
  simp [ofText, mem_insert_iff, empty]

/-- The values after the insertion of several texts are the words of all these and the values
before. -/
theorem mem_foldl_insert_iff {scope : Scope} {texts : List String} {value : String} :
    value ∈ (texts.foldl insert scope).values ↔
      value ∈ scope.values ∨ ∃ text ∈ texts, value ∈ Text.words text := by
  induction texts generalizing scope with
  | nil => simp
  | cons text rest ih =>
    rw [List.foldl_cons, ih, mem_insert_iff, List.exists_mem_cons_iff, or_assoc]

/-- The values of the scope of several texts are the words of all these. -/
theorem mem_ofTexts_iff {texts : List String} {value : String} :
    value ∈ (ofTexts texts).values ↔ ∃ text ∈ texts, value ∈ Text.words text := by
  simp [ofTexts, mem_foldl_insert_iff, empty]

/-- An insertion reports a new value just when it changes the scope. -/
theorem insertsNew_iff {scope : Scope} {text : String} :
    scope.insertsNew text = true ↔ scope.insert text ≠ scope := by
  have hsame : scope.insert text = scope ↔ ∀ word ∈ Text.words text, word ∈ scope.values := by
    constructor
    · intro h word hword
      rw [← h]
      exact mem_insert_iff.mpr (.inr hword)
    · intro h
      refine eq_of_mem_iff fun value => ?_
      rw [mem_insert_iff, or_iff_left_of_imp (h value)]
  rw [ne_eq, hsame]
  simp [insertsNew]

/-- Scopes are equal just when their joined texts are. -/
theorem joined_inj {a b : Scope} : a.joined = b.joined ↔ a = b := by
  refine ⟨fun h => ?_, fun h => h ▸ rfl⟩
  rw [← ofText_joined a, h, ofText_joined]

end OpaqueTokens.Scope
