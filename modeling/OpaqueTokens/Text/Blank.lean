/-!
# Blank characters and words

Scopes, keys and durations are written by people, so blanks around and between their parts do
not count. A blank is a character with the Unicode property `White_Space`; a word is a maximal
run of characters that are not blank.
-/

namespace OpaqueTokens.Text

/-- The Unicode property `White_Space`, all twenty-five characters of it. -/
def isBlank (c : Char) : Bool :=
  let n := c.toNat
  (0x09 ≤ n && n ≤ 0x0D) || n == 0x20 || n == 0x85 || n == 0xA0 || n == 0x1680 ||
    (0x2000 ≤ n && n ≤ 0x200A) || n == 0x2028 || n == 0x2029 || n == 0x202F || n == 0x205F ||
    n == 0x3000

/-- The property of a word: it is not empty and holds no blank. -/
def IsWord (text : String) : Prop :=
  text ≠ "" ∧ ∀ c ∈ text.toList, isBlank c = false

instance (text : String) : Decidable (IsWord text) :=
  inferInstanceAs (Decidable (_ ∧ _))

/-- The characters up to the first blank, and the words that start after it. -/
def segments : List Char → List Char × List (List Char)
  | [] => ([], [])
  | c :: rest =>
    let (first, later) := segments rest
    if isBlank c then ([], if first.isEmpty then later else first :: later)
    else (c :: first, later)

/-- The maximal runs of characters that are not blank, in order. -/
def wordChars (chars : List Char) : List (List Char) :=
  let (first, later) := segments chars
  if first.isEmpty then later else first :: later

/-- The words of a text, in order. -/
def words (text : String) : List String :=
  (wordChars text.toList).map String.ofList

/-- A text without the blanks at its two ends. -/
def trim (text : String) : String :=
  String.ofList ((text.toList.dropWhile isBlank).reverse.dropWhile isBlank).reverse

/-- No run of `segments` holds a blank, and no run after the first is empty. -/
theorem segments_spec (chars : List Char) :
    (∀ c ∈ (segments chars).1, isBlank c = false) ∧
      ∀ w ∈ (segments chars).2, w ≠ [] ∧ ∀ c ∈ w, isBlank c = false := by
  induction chars with
  | nil => simp [segments]
  | cons c rest ih =>
    obtain ⟨hfirst, hlater⟩ := ih
    by_cases hc : isBlank c = true
    · refine ⟨by simp [segments, hc], fun w hw => ?_⟩
      by_cases hempty : (segments rest).1.isEmpty = true
      · exact hlater w (by simpa [segments, hc, hempty] using hw)
      · have hw' : w = (segments rest).1 ∨ w ∈ (segments rest).2 := by
          simpa [segments, hc, hempty] using hw
        rcases hw' with rfl | hw'
        · exact ⟨by simpa using hempty, hfirst⟩
        · exact hlater w hw'
    · have hc' : isBlank c = false := by simpa using hc
      refine ⟨fun d hd => ?_, fun w hw => hlater w (by simpa [segments, hc'] using hw)⟩
      have hd' : d = c ∨ d ∈ (segments rest).1 := by simpa [segments, hc'] using hd
      rcases hd' with rfl | hd'
      · exact hc'
      · exact hfirst d hd'

/-- Every word that a text is split into has the property of a word. -/
theorem isWord_of_mem_words {text w : String} (h : w ∈ words text) : IsWord w := by
  obtain ⟨chars, hchars, rfl⟩ := List.mem_map.mp h
  obtain ⟨hfirst, hlater⟩ := segments_spec text.toList
  have hmem : (chars ≠ [] ∧ chars = (segments text.toList).1) ∨
      chars ∈ (segments text.toList).2 := by
    by_cases hempty : (segments text.toList).1.isEmpty = true
    · exact .inr (by simpa [wordChars, hempty] using hchars)
    · have hsplit : chars = (segments text.toList).1 ∨ chars ∈ (segments text.toList).2 := by
        simpa [wordChars, hempty] using hchars
      rcases hsplit with rfl | hin
      · exact .inl ⟨by simpa using hempty, rfl⟩
      · exact .inr hin
  have hword : chars ≠ [] ∧ ∀ c ∈ chars, isBlank c = false := by
    rcases hmem with ⟨hne, rfl⟩ | hin
    · exact ⟨hne, hfirst⟩
    · exact hlater _ hin
  refine ⟨fun hnil => hword.1 ?_, by simpa using hword.2⟩
  simpa using congrArg String.toList hnil

end OpaqueTokens.Text
