import OpaqueTokens.Proofs.Json.Numbers
import OpaqueTokens.Proofs.Json.Scanning

/-!
# Numbers of double precision as they are written

Whatever digits are found for a number of double precision and wherever its point falls, what is
written has digits on both sides of the point and no zero in front, so it is a number in the
usual spelling. The digits themselves are not judged.
-/

namespace OpaqueTokens.Json

open Text (utf8)
open NumberText

namespace Double

/-- Of an integer and the next one, the one that is chosen is positive, if the first is only chosen
where it is. -/
theorem pos_of_choice {low high : Bool} {c : Prop} [Decidable c] {floor : Nat} {place : Int}
    {pair : Nat × Int} (hlow : low = true → floor ≠ 0)
    (h : (if (low && high) = true then if c then some (floor, place) else some (floor + 1, place)
      else if low = true then some (floor, place)
      else if high = true then some (floor + 1, place) else none) = some pair) : 0 < pair.1 := by
  cases low with
  | true =>
    have hfloor := Nat.pos_of_ne_zero (hlow rfl)
    cases high <;> by_cases hc : c <;> simp [hc] at h <;> simp [← h, hfloor]
  | false => cases high <;> simp at h; simp [← h]

/-- The digits of a number are those of a positive integer, or there is the lone digit zero. -/
theorem shortest_pos (x : Double) : 0 < x.shortest.1 ∨ x.shortest = (0, 0) := by
  unfold shortest
  obtain ⟨num, den⟩ := x.ratio
  obtain ⟨unitNum, unitDen⟩ := scaled 1 (x.exponent - 2)
  dsimp only
  generalize hfound : List.findSome? _ (List.range 17) = found
  cases found with
  | none => exact .inr rfl
  | some pair =>
    obtain ⟨i, -, hpair⟩ := List.exists_of_findSome?_eq_some hfound
    refine .inl (pos_of_choice ?_ hpair)
    intro hlow
    exact bne_iff_ne.mp (Bool.and_eq_true_iff.mp hlow).2

/-- Dropping zeros at the end keeps a positive integer positive and leaves zero as it is. -/
theorem dropZeros_pos (bound : Nat) (pair : Nat × Int) (h : 0 < pair.1 ∨ pair = (0, 0)) :
    0 < (dropZeros bound pair).1 ∨ dropZeros bound pair = (0, 0) := by
  induction bound generalizing pair with
  | zero => exact h
  | succ bound ih =>
    obtain ⟨digits, place⟩ := pair
    unfold dropZeros
    split
    · exact ih (digits / 10, place + 1) (.inl (by dsimp only; omega))
    · exact h

/-- An exponent is written with its sign. -/
theorem utf8_exponentText (exponent : Int) :
    utf8 (String.ofList (exponentText exponent)) =
      exponentBytes (some (decide (exponent < 0), digitsOf exponent.natAbs)) := by
  have hdigits := utf8_digits (isDigit_toDigits exponent.natAbs)
  rw [Text.utf8_ofList] at hdigits ⊢
  have hletter : String.utf8EncodeChar 'e' = [0x65] := by decide
  have hminus : String.utf8EncodeChar '-' = [0x2D] := by decide
  have hplus : String.utf8EncodeChar '+' = [0x2B] := by decide
  rw [exponentText, Number.toString_int, String.toList_ofList]
  by_cases h : exponent < 0
  · simp [h, Int.not_le.mpr h, hletter, hminus, hdigits, exponentBytes, digitsOf]
  · simp [h, Int.not_lt.mp h, hletter, hplus, hdigits, exponentBytes, digitsOf]

/-- The parts of a number that is written without a sign. -/
def plainText (whole fraction : List Char) (exponent : Option Int) : NumberText where
  negative := false
  whole := digitValues whole
  fraction := digitValues fraction
  exponent := exponent.map fun e => (decide (e < 0), digitsOf e.natAbs)

/-- Digits before the point, of which no zero stands in front, and digits after it are the parts
that numbers are made of. -/
theorem wellFormed_plainText {whole fraction : List Char} {exponent : Option Int}
    (hwhole : ∀ c ∈ whole, c.isDigit = true) (hfraction : ∀ c ∈ fraction, c.isDigit = true)
    (hne : whole ≠ []) (hhead : ∀ next rest, digitValues whole ≠ 0 :: next :: rest) :
    (plainText whole fraction exponent).WellFormed where
  whole_lt := digitValues_lt hwhole
  whole_ne_nil := by simpa [plainText, digitValues] using hne
  no_leading_zero := hhead
  fraction_lt := digitValues_lt hfraction
  exponent_lt := by
    intro negative digits h
    obtain ⟨e, -, hparts⟩ := Option.map_eq_some_iff.mp h
    cases hparts
    exact ⟨digitsOf_ne_nil e.natAbs, digitValues_lt (isDigit_toDigits e.natAbs)⟩

/-- The characters of a number without a sign are its digits around the point, and its exponent. -/
theorem spelled_plainText {whole fraction : List Char} {exponent : Option Int}
    (hwhole : ∀ c ∈ whole, c.isDigit = true) (hfraction : ∀ c ∈ fraction, c.isDigit = true) :
    (plainText whole fraction exponent).spelled = utf8 (String.ofList (whole ++
      (if fraction = [] then [] else '.' :: fraction) ++
      (match exponent with
        | none => []
        | some e => exponentText e))) := by
  have hpoint : String.utf8EncodeChar '.' = [0x2E] := by decide
  have hwholeBytes := utf8_digits hwhole
  have hfractionBytes := utf8_digits hfraction
  rw [Text.utf8_ofList] at hwholeBytes hfractionBytes
  rw [Text.utf8_ofList, List.flatMap_append, List.flatMap_append, hwholeBytes]
  have hmiddle : (if fraction = [] then [] else '.' :: fraction).flatMap String.utf8EncodeChar =
      fractionBytes (digitValues fraction) := by
    cases fraction with
    | nil => rfl
    | cons c rest =>
      rw [if_neg (List.cons_ne_nil c rest), List.flatMap_cons, hpoint, hfractionBytes]
      rfl
  have hend : (match exponent with
      | none => []
      | some e => exponentText e).flatMap String.utf8EncodeChar =
        exponentBytes (exponent.map fun e => (decide (e < 0), digitsOf e.natAbs)) := by
    cases exponent with
    | none => rfl
    | some e => rw [← Text.utf8_ofList, utf8_exponentText, Option.map_some]
  rw [hmiddle, hend]
  rfl

/-- The property of characters that are a number in the usual spelling, without a sign. -/
def Spellable (chars : List Char) : Prop :=
  ∃ text : NumberText, text.WellFormed ∧ text.negative = false ∧
    utf8 (String.ofList chars) = text.spelled

/-- Characters that are digits, perhaps a point and digits, and perhaps an exponent are a number
in the usual spelling. -/
theorem spellable_of_eq {chars : List Char} (whole fraction : List Char) (exponent : Option Int)
    (hwhole : ∀ c ∈ whole, c.isDigit = true) (hfraction : ∀ c ∈ fraction, c.isDigit = true)
    (hne : whole ≠ []) (hhead : ∀ next rest, digitValues whole ≠ 0 :: next :: rest)
    (hchars : chars = whole ++ (if fraction = [] then [] else '.' :: fraction) ++
      (match exponent with
        | none => []
        | some e => exponentText e)) : Spellable chars :=
  ⟨plainText whole fraction exponent, wellFormed_plainText hwhole hfraction hne hhead, rfl, by
    rw [hchars, spelled_plainText hwhole hfraction]⟩

/-- Zeros are digits. -/
theorem isDigit_zeros (count : Nat) : ∀ c ∈ List.replicate count '0', c.isDigit = true := by
  intro c hc
  rw [List.eq_of_mem_replicate hc]
  rfl

/-- Zero is spelled with a point and one more digit. -/
theorem spellable_zero : Spellable ['0', '.', '0'] :=
  spellable_of_eq ['0'] ['0'] none (isDigit_zeros 1) (isDigit_zeros 1) (List.cons_ne_nil _ _)
    (by simp [digitValues]) rfl

section Digits

variable {first : Char} {others : List Char}

/-- Digits of which no zero stands in front stay so when others follow. -/
theorem digitValues_ne_of_head (hfirst : first.toNat - 0x30 ≠ 0) (next : Nat) (rest : List Nat) :
    digitValues (first :: others) ≠ 0 :: next :: rest := by
  intro heq
  injection heq with hzero
  exact hfirst hzero

/-- A whole number is spelled with zeros behind its digits. -/
theorem spellable_whole (hdigits : ∀ c ∈ first :: others, c.isDigit = true)
    (hfirst : first.toNat - 0x30 ≠ 0) (count : Nat) :
    Spellable (first :: others ++ List.replicate count '0' ++ ['.', '0']) :=
  spellable_of_eq (first :: others ++ List.replicate count '0') ['0'] none
    (List.forall_mem_append.mpr ⟨hdigits, isDigit_zeros count⟩) (isDigit_zeros 1)
    (List.cons_ne_nil _ _) (digitValues_ne_of_head hfirst) (by simp)

/-- A number is spelled with the point between two of its digits. -/
theorem spellable_split (hdigits : ∀ c ∈ first :: others, c.isDigit = true)
    (hfirst : first.toNat - 0x30 ≠ 0) {k : Nat} (hk : k < others.length) :
    Spellable (first :: others.take k ++ '.' :: others.drop k) := by
  rw [List.forall_mem_cons] at hdigits
  obtain ⟨hhead, htail⟩ := hdigits
  have hafter : others.drop k ≠ [] := by
    rw [ne_eq, List.drop_eq_nil_iff]
    omega
  refine spellable_of_eq (first :: others.take k) (others.drop k) none ?_ ?_
    (List.cons_ne_nil _ _) (digitValues_ne_of_head hfirst) (by simp [hafter])
  · exact List.forall_mem_cons.mpr ⟨hhead, fun c hc => htail c (List.mem_of_mem_take hc)⟩
  · exact fun c hc => htail c (List.mem_of_mem_drop hc)

/-- A number below one is spelled with zeros in front of its digits. -/
theorem spellable_small (hdigits : ∀ c ∈ first :: others, c.isDigit = true) (count : Nat) :
    Spellable ('0' :: '.' :: List.replicate count '0' ++ first :: others) :=
  spellable_of_eq ['0'] (List.replicate count '0' ++ first :: others) none (isDigit_zeros 1)
    (List.forall_mem_append.mpr ⟨isDigit_zeros count, hdigits⟩) (List.cons_ne_nil _ _)
    (by simp [digitValues]) (by simp)

/-- A number is spelled with an exponent behind its digits. -/
theorem spellable_exponent (hdigits : ∀ c ∈ first :: others, c.isDigit = true)
    (hfirst : first.toNat - 0x30 ≠ 0) (exponent : Int) :
    Spellable (first :: (if others = [] then [] else '.' :: others) ++ exponentText exponent) := by
  rw [List.forall_mem_cons] at hdigits
  obtain ⟨hhead, htail⟩ := hdigits
  exact spellable_of_eq [first] others (some exponent) (List.forall_mem_singleton.mpr hhead) htail
    (List.cons_ne_nil _ _) (digitValues_ne_of_head hfirst) rfl

/-- Digits of which no zero stands in front are laid out as a number in the usual spelling. -/
theorem spellable_layOut (hdigits : ∀ c ∈ first :: others, c.isDigit = true)
    (hfirst : first.toNat - 0x30 ≠ 0) (place : Int) :
    Spellable (layOut (first :: others) place) := by
  rw [layOut.eq_def]
  dsimp only
  split
  · exact spellable_whole hdigits hfirst place.toNat
  split
  · rename_i hwhole hmiddle
    -- The point falls between two digits, since otherwise it would be past the last one.
    obtain ⟨k, hk⟩ : ∃ k : Nat, ((first :: others).length + place).toNat = k + 1 :=
      ⟨_, (Nat.succ_pred_eq_of_pos (by omega)).symm⟩
    have hlt : k < others.length := by
      simp only [List.length_cons] at hwhole hmiddle hk
      omega
    rw [hk, List.take_succ_cons, List.drop_succ_cons]
    exact spellable_split hdigits hfirst hlt
  split
  · exact spellable_small hdigits _
  · have hspelled := spellable_exponent hdigits hfirst ((first :: others).length + place - 1)
    cases others with
    | nil => exact hspelled
    | cons next more => simpa using hspelled

end Digits

/-- The digits of a number that is not zero are laid out as a number in the usual spelling. -/
theorem spellable_toDigits {n : Nat} (h : 0 < n) (place : Int) :
    Spellable (layOut (Nat.toDigits 10 n) place) := by
  have hdigits := isDigit_toDigits n
  have hhead := digitsOf_head h
  rw [digitsOf] at hhead
  cases hds : Nat.toDigits 10 n with
  | nil => exact absurd hds Nat.toDigits_ne_nil
  | cons first others =>
    rw [hds] at hdigits hhead
    refine spellable_layOut hdigits (fun hzero => ?_) place
    exact hhead (digitValues others) (by simp [digitValues, hzero])

/-- A number of double precision is written in the usual spelling. -/
theorem exists_spelled (x : Double) : ∃ text : NumberText, text.WellFormed ∧
    (Number.double x).write = text.spelled := by
  have hminus : String.utf8EncodeChar '-' = [0x2D] := by decide
  obtain ⟨text, htext, hpositive, hbody⟩ : Spellable (if x.significand = 0 then ['0', '.', '0']
      else layOut (Nat.toDigits 10 (dropZeros 17 x.shortest).1) (dropZeros 17 x.shortest).2) := by
    split
    · exact spellable_zero
    · rcases dropZeros_pos 17 x.shortest x.shortest_pos with hpos | hzero
      · exact spellable_toDigits hpos _
      · rw [hzero]
        exact spellable_zero
  refine ⟨{ text with negative := x.negative }, ⟨htext.whole_lt, htext.whole_ne_nil,
    htext.no_leading_zero, htext.fraction_lt, htext.exponent_lt⟩, ?_⟩
  rw [Number.write, toChars]
  simp only
  rw [spelled, hpositive] at hbody
  rw [spelled]
  cases hsign : x.negative
  · simpa using hbody
  · rw [Text.utf8_ofList] at hbody ⊢
    simp only [if_true, List.flatMap_cons, hminus]
    simpa using hbody

end Double

namespace Number

/-- The parts of a number as it is written. -/
def text (n : Number) : NumberText :=
  (NumberText.ofBytes? n.write).getD { negative := false, whole := [0] }

/-- A number is written in the usual spelling of its parts. -/
theorem write_eq_spelled (n : Number) : n.text.WellFormed ∧ n.write = n.text.spelled := by
  obtain ⟨text, htext, hwrite⟩ : ∃ text : NumberText, text.WellFormed ∧ n.write = text.spelled := by
    cases n with
    | integer i => exact ⟨integerText i, wellFormed_integerText i, write_integer i⟩
    | double x => exact x.exists_spelled
  have hparts : n.text = text := by
    rw [Number.text, hwrite, ofBytes?_spelled htext, Option.getD_some]
  rw [hparts]
  exact ⟨htext, hwrite⟩

/-- The text of an integer has the parts of that integer. -/
theorem text_integer (i : Int) : (Number.integer i).text = integerText i := by
  rw [Number.text, write_integer, ofBytes?_spelled (wellFormed_integerText i), Option.getD_some]

/-- A number scans as itself. -/
theorem scan?_write (n : Number) : Lexeme.scan? n.write = some [.number n.text] := by
  obtain ⟨hwell, hwrite⟩ := write_eq_spelled n
  rw [hwrite]
  exact Lexeme.scan?_number (isNumberByte_spelled hwell) (ofBytes?_spelled hwell)

end Number

end OpaqueTokens.Json
