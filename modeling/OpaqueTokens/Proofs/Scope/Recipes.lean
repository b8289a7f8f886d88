import OpaqueTokens.Json.Writer
import OpaqueTokens.Proofs.Json.Documents
import OpaqueTokens.Proofs.Json.Strings
import OpaqueTokens.Proofs.Scope

/-!
# Ways to make a scope

A scope is made of a text, of several texts, or of a document, and it is changed by inserting a text
or by keeping what it shares with another one. What its values are is said here without regard to
how a scope is held, by the words of the texts that went into it. From this follows that two ways
with the same values make the same scope, the same joined text and the same document, and that each
of these is read back as the scope.
-/

namespace OpaqueTokens.Scope

/-- The document of a scope: its joined text as a string. -/
def document (scope : Scope) : List UInt8 :=
  (Json.string scope.joined).write

/-- The text that a document is a string of. -/
def textOfDocument? (document : List UInt8) : Option String :=
  (Json.Node.ofBytes? document).bind Json.Node.text?

/-- The scope that is read from a document, which must be a string. -/
def ofDocument? (document : List UInt8) : Option Scope :=
  (textOfDocument? document).map ofText

/-- A document is a string of the text that it was written for. -/
theorem textOfDocument?_write (text : String) :
    textOfDocument? (Json.string text).write = some text := by
  rw [textOfDocument?, Json.Node.ofBytes?_write, Option.bind_some, Json.toNode, Json.Node.text?,
    Json.Node.textOf?_escaped]

/-- A scope is read back from its document. -/
theorem ofDocument?_document (scope : Scope) : ofDocument? scope.document = some scope := by
  rw [ofDocument?, document, textOfDocument?_write, Option.map_some, ofText_joined]

/-- Collecting texts is splitting them, put one after another with any blanks between. -/
theorem ofTexts_eq_ofText {texts : List String} {text : String}
    (h : Text.SpacedOut texts text.toList) : ofTexts texts = ofText text := by
  refine eq_of_mem_iff fun value => ?_
  rw [mem_ofTexts_iff, mem_ofText_iff]
  simp only [Text.words, List.mem_map, Text.wordChars_spacedOut h, List.mem_flatMap]
  constructor
  · rintro ⟨text, htext, run, hrun, rfl⟩
    exact ⟨run, ⟨text, htext, hrun⟩, rfl⟩
  · rintro ⟨run, ⟨text, htext, hrun⟩, rfl⟩
    exact ⟨text, htext, run, hrun, rfl⟩

/-- The ways to make a scope. -/
inductive Recipe where
  | ofText (text : String)
  | ofTexts (texts : List String)
  | ofDocument (bytes : List UInt8)
  | insert (recipe : Recipe) (text : String)
  | intersection (left right : Recipe)

namespace Recipe

/-- The scope that is made, unless a document on the way is no string. -/
def scope? : Recipe → Option Scope
  | .ofText text => some (Scope.ofText text)
  | .ofTexts texts => some (Scope.ofTexts texts)
  | .ofDocument bytes => Scope.ofDocument? bytes
  | .insert recipe text => recipe.scope?.map (·.insert text)
  | .intersection left right => do
    let left ← left.scope?
    let right ← right.scope?
    pure (left.intersection right)

/-- The values that a scope should have, by the texts that it is made of. -/
def Has (value : String) : Recipe → Prop
  | .ofText text => Text.IsWordOf value text
  | .ofTexts texts => ∃ text ∈ texts, Text.IsWordOf value text
  | .ofDocument bytes => ∃ text, textOfDocument? bytes = some text ∧ Text.IsWordOf value text
  | .insert recipe text => recipe.Has value ∨ Text.IsWordOf value text
  | .intersection left right => left.Has value ∧ right.Has value

/-- The values of a scope are those that it should have. -/
theorem mem_values_iff {value : String} (recipe : Recipe) {scope : Scope}
    (h : recipe.scope? = some scope) : value ∈ scope.values ↔ recipe.Has value := by
  induction recipe generalizing scope with
  | ofText text =>
    obtain rfl := Option.some.inj h
    rw [mem_ofText_iff, Text.mem_words_iff, Has]
  | ofTexts texts =>
    obtain rfl := Option.some.inj h
    simp only [mem_ofTexts_iff, Text.mem_words_iff, Has]
  | ofDocument bytes =>
    obtain ⟨text, htext, rfl⟩ := Option.map_eq_some_iff.mp h
    simp only [mem_ofText_iff, Text.mem_words_iff, Has, htext, Option.some.injEq,
      exists_eq_left']
  | insert recipe text ih =>
    obtain ⟨before, hbefore, rfl⟩ := Option.map_eq_some_iff.mp h
    rw [mem_insert_iff, Text.mem_words_iff, ih hbefore, Has]
  | intersection left right ihleft ihright =>
    obtain ⟨first, hfirst, h⟩ := Option.bind_eq_some_iff.mp h
    obtain ⟨second, hsecond, h⟩ := Option.bind_eq_some_iff.mp h
    obtain rfl := Option.some.inj h
    rw [mem_intersection_iff, ihleft hfirst, ihright hsecond, Has]

end Recipe

/-- However a scope is made, its values are the words that went into it, in their order, and none of
them is empty or holds a blank. The joined text and the document of a scope are read back as the
scope, and scopes are equal just when their joined texts are. Inserting a text adds the values of
its scope, and it reports whether the scope changed. Several texts make the scope that they make
when they are put one after another with blanks between them. -/
theorem scopes_canonical (recipe : Recipe) {scope : Scope} (hmade : recipe.scope? = some scope) :
    (∀ value, value ∈ scope.values ↔ recipe.Has value) ∧
    scope.values.Pairwise (· < ·) ∧
    (∀ value ∈ scope.values, value ≠ "" ∧ ∀ c ∈ value.toList, Text.isBlank c = false) ∧
    ofText scope.joined = scope ∧ ofDocument? scope.document = some scope ∧
    (∀ other : Scope, scope = other ↔ scope.joined = other.joined) ∧
    (∀ text, (∀ value, value ∈ (scope.insert text).values ↔
        value ∈ scope.values ∨ value ∈ (ofText text).values) ∧
      (scope.insertsNew text = true ↔ scope.insert text ≠ scope)) ∧
    (∀ texts text, Text.SpacedOut texts text.toList → ofTexts texts = ofText text) ∧
    ∀ texts (separator : String), Text.IsGap separator.toList →
      ofTexts texts = ofText (separator.intercalate texts) := by
  refine ⟨fun value => recipe.mem_values_iff hmade, scope.sorted, scope.words,
    ofText_joined scope, ofDocument?_document scope, fun other => joined_inj.symm,
    fun text => ⟨fun value => ?_, insertsNew_iff⟩, fun texts text => ofTexts_eq_ofText,
    fun texts separator hgap => ofTexts_eq_ofText (Text.spacedOut_intercalate hgap texts)⟩
  rw [mem_insert_iff, mem_ofText_iff]

/-- Words that are apart by an ideographic space and by the escape of a line break: of the values
that were collected and inserted, those are kept that the document has. -/
def sampleRecipe : Recipe :=
  .intersection (.insert (.ofTexts ["write\u3000read", "", "openid"]) "admin\tread")
    (.ofDocument (Text.utf8 "\"admin\\nprofile  write\""))

/-- The scope of the sample is joined in the order of its values and read back, and what it has does
not change it. -/
theorem scopes_canonical_sample : ∃ scope, sampleRecipe.scope? = some scope ∧
    scope.joined = "admin write" ∧ ofText "admin write" = scope ∧
      ofDocument? scope.document = some scope ∧ scope.insert "write\u2003admin" = scope := by
  have hjoined : sampleRecipe.scope?.map joined = some "admin write" := by decide +kernel
  obtain ⟨scope, hmade, hscope⟩ := Option.map_eq_some_iff.mp hjoined
  obtain ⟨-, -, -, htext, hdocument, -, hinsert, -⟩ := scopes_canonical sampleRecipe hmade
  rw [hscope] at htext
  refine ⟨scope, hmade, hscope, htext, hdocument, ?_⟩
  have hnothing : scope.insertsNew "write\u2003admin" ≠ true := by
    rw [← htext]
    decide
  exact not_not.mp fun hchanged => hnothing ((hinsert _).2.mpr hchanged)

end OpaqueTokens.Scope
