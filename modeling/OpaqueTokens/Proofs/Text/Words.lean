import Mathlib.Data.List.Basic
import Mathlib.Data.List.TakeWhile
import OpaqueTokens.Text.Blank

/-!
# Words between blanks

Splitting at a blank is splitting the two sides apart, so words that are joined by blanks are
found again one by one. The blanks themselves are not found again. What a text is split into are
exactly the words that stand in it between blanks or its ends; trimming a text leaves what stands
between the blanks at its two ends.
-/

namespace OpaqueTokens.Text

/-- What stands after a blank does not touch the runs before it. -/
theorem segments_append_blank {c : Char} (hc : isBlank c = true) (before after : List Char) :
    segments (before ++ c :: after) =
      ((segments before).1, (segments before).2 ++ wordChars after) := by
  induction before with
  | nil => simp [segments, hc, wordChars]
  | cons d rest ih =>
    rw [List.cons_append, segments, ih, segments]
    by_cases hd : isBlank d = true
    · by_cases hempty : (segments rest).1.isEmpty = true <;> simp [hd, hempty]
    · simp [hd]

/-- A blank ends the words before it. -/
theorem wordChars_append_blank {c : Char} (hc : isBlank c = true) (before after : List Char) :
    wordChars (before ++ c :: after) = wordChars before ++ wordChars after := by
  simp only [wordChars, segments_append_blank hc]
  by_cases hempty : (segments before).1.isEmpty = true <;> simp [hempty]

/-- Characters without a blank are one run. -/
theorem segments_of_no_blank {chars : List Char} (h : ∀ c ∈ chars, isBlank c = false) :
    segments chars = (chars, []) := by
  induction chars with
  | nil => rfl
  | cons c rest ih =>
    rw [List.forall_mem_cons] at h
    simp [segments, h.1, ih h.2]

/-- A run without a blank is its own only run. -/
theorem wordChars_of_no_blank {run : List Char} (hne : run ≠ [])
    (h : ∀ c ∈ run, isBlank c = false) : wordChars run = [run] := by
  rw [wordChars, segments_of_no_blank h]
  simp [hne]

/-- A word has characters. -/
theorem IsWord.toList_ne_nil {word : String} (h : IsWord word) : word.toList ≠ [] :=
  fun hnil => h.1 (String.toList_inj.mp (by simpa using hnil))

/-- A word is its own only word. -/
theorem wordChars_word {word : String} (h : IsWord word) :
    wordChars word.toList = [word.toList] :=
  wordChars_of_no_blank h.toList_ne_nil h.2

/-- Words joined by single spaces are split into the same words. -/
theorem words_intercalate {ws : List String} (h : ∀ w ∈ ws, IsWord w) :
    words (" ".intercalate ws) = ws := by
  have hspace : isBlank ' ' = true := by decide
  induction ws with
  | nil => simp [words, wordChars, segments]
  | cons w rest ih =>
    rw [List.forall_mem_cons] at h
    cases rest with
    | nil => simp [words, wordChars_word h.1]
    | cons next others =>
      have hsplit := wordChars_append_blank hspace w.toList
        (" ".intercalate (next :: others)).toList
      have hrest := ih h.2
      rw [words] at hrest ⊢
      rw [String.intercalate_cons_cons]
      simp only [String.toList_append, String.reduceToList, List.append_assoc,
        List.cons_append, List.nil_append]
      rw [hsplit, wordChars_word h.1, List.map_append, hrest]
      simp

/-- Blanks in front of characters are not part of their runs. -/
theorem wordChars_gap_append {gap : List Char} (h : ∀ c ∈ gap, isBlank c = true)
    (after : List Char) : wordChars (gap ++ after) = wordChars after := by
  induction gap with
  | nil => rfl
  | cons c rest ih =>
    rw [List.forall_mem_cons] at h
    calc wordChars (c :: rest ++ after)
        = wordChars [] ++ wordChars (rest ++ after) := wordChars_append_blank h.1 [] _
      _ = wordChars after := by rw [ih h.2]; rfl

/-- A gap: blanks, and at least one. -/
def IsGap (gap : List Char) : Prop :=
  gap ≠ [] ∧ ∀ c ∈ gap, isBlank c = true

/-- A gap of any blanks ends the words before it, as a single blank does. -/
theorem wordChars_append_gap {gap : List Char} (h : IsGap gap) (before after : List Char) :
    wordChars (before ++ gap ++ after) = wordChars before ++ wordChars after := by
  obtain ⟨hne, hblank⟩ := h
  obtain ⟨c, rest, rfl⟩ := List.exists_cons_of_ne_nil hne
  rw [List.forall_mem_cons] at hblank
  rw [List.append_assoc, List.cons_append, wordChars_append_blank hblank.1,
    wordChars_gap_append hblank.2]

/-- Characters are those of several texts in their order, with a gap of any blanks between any two
of them. -/
inductive SpacedOut : List String → List Char → Prop where
  | none : SpacedOut [] []
  | one (text : String) : SpacedOut [text] text.toList
  | more {text next : String} {texts : List String} {gap chars : List Char} (hgap : IsGap gap)
    (h : SpacedOut (next :: texts) chars) :
    SpacedOut (text :: next :: texts) (text.toList ++ gap ++ chars)

/-- Texts are spaced out when they are joined with the same gap everywhere. -/
theorem spacedOut_intercalate {separator : String} (h : IsGap separator.toList) :
    (texts : List String) → SpacedOut texts (separator.intercalate texts).toList
  | [] => by simpa using SpacedOut.none
  | [text] => by simpa using SpacedOut.one text
  | text :: next :: rest => by
    rw [String.intercalate_cons_cons, String.toList_append, String.toList_append]
    exact .more h (spacedOut_intercalate h (next :: rest))

/-- Texts that are spaced out are split into the words of each, whatever the gaps. -/
theorem wordChars_spacedOut {texts : List String} {chars : List Char}
    (h : SpacedOut texts chars) :
    wordChars chars = texts.flatMap fun text => wordChars text.toList := by
  induction h with
  | none => rfl
  | one text => simp
  | more hgap _ ih => rw [List.flatMap_cons, ← ih, wordChars_append_gap hgap]

/-- A run of characters stands between blanks, or between a blank and an end of the characters, and
holds none itself. -/
def IsRunOf (run chars : List Char) : Prop :=
  run ≠ [] ∧ (∀ c ∈ run, isBlank c = false) ∧ ∃ before after : List Char,
    chars = before ++ run ++ after ∧ (∀ c ∈ before.getLast?, isBlank c = true) ∧
      ∀ c ∈ after.head?, isBlank c = true

/-- Characters have no blank, or there is a first one. -/
theorem no_blank_or_exists_first (chars : List Char) :
    (∀ c ∈ chars, isBlank c = false) ∨ ∃ (run : List Char) (c : Char) (rest : List Char),
      chars = run ++ c :: rest ∧ (∀ d ∈ run, isBlank d = false) ∧ isBlank c = true := by
  induction chars with
  | nil => exact .inl (by simp)
  | cons d others ih =>
    by_cases hd : isBlank d = true
    · exact .inr ⟨[], d, others, rfl, by simp, hd⟩
    · rw [Bool.not_eq_true] at hd
      rcases ih with hothers | ⟨run, c, rest, rfl, hrun, hc⟩
      · exact .inl (List.forall_mem_cons.mpr ⟨hd, hothers⟩)
      · exact .inr ⟨d :: run, c, rest, rfl, List.forall_mem_cons.mpr ⟨hd, hrun⟩, hc⟩

/-- Characters without a blank are split into nothing else than themselves. -/
theorem eq_of_mem_wordChars {run chars : List Char} (hchars : ∀ c ∈ chars, isBlank c = false)
    (h : run ∈ wordChars chars) : run = chars ∧ run ≠ [] := by
  by_cases hnil : chars = []
  · subst hnil
    simp [wordChars, segments] at h
  · rw [wordChars_of_no_blank hnil hchars, List.mem_singleton] at h
    exact ⟨h, h ▸ hnil⟩

/-- What characters are split into are runs of them. -/
theorem isRunOf_of_mem_wordChars {run : List Char} (chars : List Char)
    (h : run ∈ wordChars chars) : IsRunOf run chars := by
  rcases no_blank_or_exists_first chars with hchars | ⟨first, c, rest, hsplit, hfirst, hc⟩
  · obtain ⟨rfl, hne⟩ := eq_of_mem_wordChars hchars h
    exact ⟨hne, hchars, [], [], by simp, by simp, by simp⟩
  · rw [hsplit, wordChars_append_blank hc, List.mem_append] at h
    rcases h with h | h
    · obtain ⟨rfl, hne⟩ := eq_of_mem_wordChars hfirst h
      exact ⟨hne, hfirst, [], c :: rest, by simp [hsplit], by simp, by simpa using hc⟩
    · obtain ⟨hne, hrun, before, after, hrest, hbefore, hafter⟩ :=
        isRunOf_of_mem_wordChars rest h
      refine ⟨hne, hrun, first ++ c :: before, after, by simp [hsplit, hrest], ?_, hafter⟩
      -- The last character before the run is the blank itself if nothing stands between.
      rw [List.getLast?_append_of_ne_nil _ (List.cons_ne_nil c before)]
      cases before with
      | nil => simpa using hc
      | cons d others => simpa [List.getLast?_cons_cons] using hbefore
termination_by chars.length
decreasing_by simp [hsplit]; omega

/-- What characters are split into are exactly the runs of them. -/
theorem mem_wordChars_iff {run chars : List Char} :
    run ∈ wordChars chars ↔ IsRunOf run chars := by
  refine ⟨isRunOf_of_mem_wordChars chars, ?_⟩
  rintro ⟨hne, hrun, before, after, rfl, hbefore, hafter⟩
  have hlater : run ∈ wordChars (run ++ after) := by
    cases after with
    | nil => simp [wordChars_of_no_blank hne hrun]
    | cons c rest =>
      have hc : isBlank c = true := hafter c rfl
      simp [wordChars_append_blank hc, wordChars_of_no_blank hne hrun]
  rcases List.eq_nil_or_concat before with rfl | ⟨init, c, rfl⟩
  · exact hlater
  · have hc : isBlank c = true := hbefore c (by simp)
    rw [List.concat_eq_append, List.append_assoc, List.append_assoc, List.singleton_append,
      wordChars_append_blank hc]
    exact List.mem_append_right _ hlater

/-- A text is a word of another one: a run of its characters. -/
def IsWordOf (word text : String) : Prop :=
  IsRunOf word.toList text.toList

/-- The words of a text are exactly the runs of its characters. -/
theorem mem_words_iff {word text : String} : word ∈ words text ↔ IsWordOf word text := by
  rw [words, List.mem_map, IsWordOf, ← mem_wordChars_iff]
  constructor
  · rintro ⟨run, hrun, rfl⟩
    rwa [String.toList_ofList]
  · intro h
    exact ⟨word.toList, h, String.ofList_toList⟩

/-- A text is another one with blanks at its two ends. -/
def IsPadded (core text : String) : Prop :=
  ∃ before after : List Char, (∀ c ∈ before, isBlank c = true) ∧
    (∀ c ∈ after, isBlank c = true) ∧ text.toList = before ++ core.toList ++ after

/-- A text is what trimming leaves of it, with blanks at its two ends. -/
theorem isPadded_trim (text : String) : IsPadded (trim text) text := by
  refine ⟨text.toList.takeWhile isBlank,
    ((text.toList.dropWhile isBlank).reverse.takeWhile isBlank).reverse,
    fun c => List.mem_takeWhile_imp,
    fun c hc => List.mem_takeWhile_imp (List.mem_reverse.mp hc), ?_⟩
  rw [trim, String.toList_ofList, List.append_assoc, ← List.reverse_append,
    List.takeWhile_append_dropWhile, List.reverse_reverse, List.takeWhile_append_dropWhile]

/-- Blanks around a word are trimmed, and nothing else. -/
theorem trim_of_isPadded {core text : String} (hcore : IsWord core) (h : IsPadded core text) :
    trim text = core := by
  obtain ⟨before, after, hbefore, hafter, htext⟩ := h
  have hfront (rest : List Char) :
      (core.toList ++ rest).dropWhile isBlank = core.toList ++ rest := by
    obtain ⟨c, others, hcons⟩ := List.exists_cons_of_ne_nil hcore.toList_ne_nil
    have hc : isBlank c = false := hcore.2 c (by simp [hcons])
    rw [hcons, List.cons_append, List.dropWhile_cons_of_neg (by simp [hc])]
  have hback : core.toList.reverse.dropWhile isBlank = core.toList.reverse := by
    obtain ⟨init, c, hconcat⟩ := (List.eq_nil_or_concat core.toList).resolve_left
      hcore.toList_ne_nil
    have hc : isBlank c = false := hcore.2 c (by simp [hconcat])
    rw [hconcat, List.concat_eq_append, List.reverse_append, List.reverse_singleton,
      List.singleton_append, List.dropWhile_cons_of_neg (by simp [hc])]
  have hblank : ∀ c ∈ after.reverse, isBlank c = true := fun c hc =>
    hafter c (List.mem_reverse.mp hc)
  rw [trim, htext, List.append_assoc, List.dropWhile_append_of_pos hbefore, hfront,
    List.reverse_append, List.dropWhile_append_of_pos hblank, hback, List.reverse_reverse,
    String.ofList_toList]

end OpaqueTokens.Text
