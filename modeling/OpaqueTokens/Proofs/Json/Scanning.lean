import OpaqueTokens.Json.Lexeme
import OpaqueTokens.Json.Writer
import OpaqueTokens.Proofs.Text.Utf8

/-!
# Scanning what is written

The lexemes of a document are found piece by piece: a punctuation byte ends whatever stands
before it, so the lexemes around it are those of the two sides. Strings are scanned as the
writer leaves them, with their escapes, and numbers as a whole.
-/

namespace OpaqueTokens.Json

open Text (utf8)

namespace Scan

/-- The lexemes that bytes complete, in order, and where the scanner stands after them. -/
def run : Scan → List UInt8 → Option (List Lexeme × Scan)
  | state, [] => some ([], state)
  | state, b :: rest =>
    (state.step b).bind fun r => (run r.2 rest).map fun q => (r.1 ++ q.1, q.2)

/-- Runs over adjacent bytes follow one another. -/
theorem run_append (state : Scan) (a b : List UInt8) :
    state.run (a ++ b) =
      (state.run a).bind fun r => (r.2.run b).map fun q => (r.1 ++ q.1, q.2) := by
  induction a generalizing state with
  | nil => simp [run]
  | cons c rest ih =>
    rw [List.cons_append, run, run]
    cases hstep : state.step c with
    | none => simp
    | some r =>
      simp only [Option.bind_some, ih]
      cases hrun : r.2.run rest with
      | none => simp
      | some q => simp [Function.comp_def]

/-- Punctuation is read at once between lexemes. -/
theorem start_punctuation {p : UInt8} {lexeme : Lexeme} (h : punctuation? p = some lexeme) :
    start p = some ([lexeme], .between) ∧ isWordByte p = false ∧ isNumberByte p = false := by
  have hp : p = 0x5B ∨ p = 0x5D ∨ p = 0x7B ∨ p = 0x7D ∨ p = 0x3A ∨ p = 0x2C := by
    unfold punctuation? at h
    grind
  rcases hp with rfl | rfl | rfl | rfl | rfl | rfl <;> cases h <;> decide

/-- Punctuation ends the lexeme before it, if one may end there. -/
theorem step_punctuation {p : UInt8} {lexeme : Lexeme} (h : punctuation? p = some lexeme)
    {state : Scan} {ended : List Lexeme} (hended : state.finish = some ended) :
    state.step p = some (ended ++ [lexeme], .between) := by
  obtain ⟨hstart, hword, hnumber⟩ := start_punctuation h
  cases state with
  | between => cases hended; simp [step, hstart]
  | word latestFirst => simp [step, hword, hended, hstart]
  | number latestFirst => simp [step, hnumber, hended, hstart]
  | string latestFirst escape => cases hended

end Scan

namespace Lexeme

/-- Scanning holds the lexemes latest first but finds the same ones. -/
theorem foldlM_scanStep (bytes : List UInt8) (sofar : List Lexeme) (state : Scan) :
    bytes.foldlM scanStep (sofar, state) =
      (state.run bytes).map fun r => (r.1.reverse ++ sofar, r.2) := by
  induction bytes generalizing sofar state with
  | nil => simp [Scan.run]
  | cons b rest ih =>
    rw [List.foldlM_cons, Scan.run]
    cases hstep : state.step b with
    | none => simp [scanStep, hstep]
    | some r => simp [scanStep, hstep, ih, Function.comp_def]

/-- A document scans if a run over it ends where a lexeme may end. -/
theorem scan?_eq_some_iff {bytes : List UInt8} {lexemes : List Lexeme} :
    scan? bytes = some lexemes ↔ ∃ before state ended, Scan.run .between bytes =
      some (before, state) ∧ state.finish = some ended ∧ lexemes = before ++ ended := by
  rw [scan?, foldlM_scanStep]
  constructor
  · intro h
    cases hrun : Scan.run .between bytes with
    | none => simp [hrun] at h
    | some r =>
      have hfinal : (r.2.finish.bind fun ended => some (r.1 ++ ended)) = some lexemes := by
        simpa [hrun] using h
      obtain ⟨ended, hfinish, hlexemes⟩ := Option.bind_eq_some_iff.mp hfinal
      exact ⟨r.1, r.2, ended, rfl, hfinish, (Option.some.inj hlexemes).symm⟩
  · rintro ⟨before, state, ended, hrun, hfinish, rfl⟩
    simp [hrun, hfinish]

/-- The lexemes around a punctuation byte are those of its two sides. -/
theorem scan?_append_punctuation {bytes rest : List UInt8} {p : UInt8} {lexeme : Lexeme}
    {before after : List Lexeme} (hbytes : scan? bytes = some before)
    (hp : Scan.punctuation? p = some lexeme) (hrest : scan? rest = some after) :
    scan? (bytes ++ p :: rest) = some (before ++ lexeme :: after) := by
  obtain ⟨done, state, ended, hrun, hfinish, rfl⟩ := scan?_eq_some_iff.mp hbytes
  obtain ⟨later, last, final, hlater, hlast, rfl⟩ := scan?_eq_some_iff.mp hrest
  refine scan?_eq_some_iff.mpr ⟨done ++ (ended ++ [lexeme] ++ later), last, final, ?_, hlast, ?_⟩
  · simp [Scan.run_append, hrun, Scan.run, Scan.step_punctuation hp hfinish, hlater]
  · simp

/-- Punctuation at the front of a document is its first lexeme. -/
theorem scan?_punctuation {rest : List UInt8} {p : UInt8} {lexeme : Lexeme}
    {after : List Lexeme} (hp : Scan.punctuation? p = some lexeme)
    (hrest : scan? rest = some after) :
    scan? (p :: rest) = some (lexeme :: after) :=
  scan?_append_punctuation (rfl : scan? [] = some []) hp hrest

/-- A byte that may open a number does so between lexemes. -/
theorem start_numberByte (b : UInt8) :
    Scan.isNumberByte b = true ∧ b ≠ 0x65 → Scan.start b = some ([], .number [b]) :=
  Text.forall_byte (P := fun b => Scan.isNumberByte b = true ∧ b ≠ 0x65 →
    Scan.start b = some ([], .number [b])) (by decide +kernel) b

/-- The bytes of a number are held until something else follows. -/
theorem run_number {bytes : List UInt8} (h : ∀ b ∈ bytes, Scan.isNumberByte b = true)
    (held : List UInt8) :
    Scan.run (.number held) bytes = some ([], .number (bytes.reverse ++ held)) := by
  induction bytes generalizing held with
  | nil => simp [Scan.run]
  | cons b rest ih =>
    rw [List.forall_mem_cons] at h
    simp [Scan.run, Scan.step, h.1, ih h.2]

/-- Bytes that spell a number scan as that number. -/
theorem scan?_number {bytes : List UInt8} (h : ∀ b ∈ bytes, Scan.isNumberByte b = true)
    {text : NumberText} (htext : NumberText.ofBytes? bytes = some text) :
    scan? bytes = some [.number text] := by
  cases bytes with
  | nil => cases htext
  | cons b rest =>
    -- The letter of an exponent is a number byte too, but no number opens with it.
    have hb : b ≠ 0x65 := by
      rintro rfl
      simp [NumberText.ofBytes?, NumberText.takeDigits, NumberText.digit?] at htext
    rw [List.forall_mem_cons] at h
    refine scan?_eq_some_iff.mpr ⟨[], .number (rest.reverse ++ [b]), [.number text], ?_, ?_, rfl⟩
    · simp [Scan.run, Scan.step, start_numberByte b ⟨h.1, hb⟩, run_number h.2]
    · simp [Scan.finish, htext]

end Lexeme

end OpaqueTokens.Json
