import OpaqueTokens.Json.Writer
import OpaqueTokens.Proofs.Json.Spelling

/-!
# Numbers read back

Every number that is written is written in the usual spelling and so is read as a number again.
Of integers that fit in sixty-four bits it is the same number. Of numbers of double precision
only the spelling is shown here and not that the digits lead back to the same number.
-/

namespace OpaqueTokens.Json

open Text (utf8)

namespace NumberText

/-- The values of digits. -/
def digitValues (chars : List Char) : List Nat :=
  chars.map fun c => c.toNat - 0x30

/-- The decimal digits of a natural number. -/
def digitsOf (n : Nat) : List Nat :=
  digitValues (Nat.toDigits 10 n)

/-- A digit is a character between zero and nine. -/
theorem toNat_of_isDigit {c : Char} (h : c.isDigit = true) :
    0x30 ≤ c.toNat ∧ c.toNat ≤ 0x39 := by
  simpa [Char.isDigit, UInt32.le_iff_toNat_le] using h

/-- Digits have values below ten. -/
theorem digitValues_lt {chars : List Char} (h : ∀ c ∈ chars, c.isDigit = true) :
    ∀ d ∈ digitValues chars, d < 10 := by
  intro d hd
  obtain ⟨c, hc, rfl⟩ := List.mem_map.mp hd
  have := toNat_of_isDigit (h c hc)
  omega

/-- Digits are written with the bytes of their values. -/
theorem utf8_digits {chars : List Char} (h : ∀ c ∈ chars, c.isDigit = true) :
    utf8 (String.ofList chars) = digitBytes (digitValues chars) := by
  rw [Text.utf8_ofList_plain fun c hc => by have := toNat_of_isDigit (h c hc); omega,
    digitBytes, digitValues, List.map_map]
  apply List.map_congr_left
  intro c hc
  have := toNat_of_isDigit (h c hc)
  simp only [Function.comp_apply]
  congr 1
  omega

/-- The digits of a natural number are digits. -/
theorem isDigit_toDigits (n : Nat) : ∀ c ∈ Nat.toDigits 10 n, c.isDigit = true :=
  fun _ hc => Nat.isDigit_of_mem_toDigits (by decide) (by decide) hc

/-- A natural number has a digit. -/
theorem digitsOf_ne_nil (n : Nat) : digitsOf n ≠ [] := by
  simp [digitsOf, digitValues, Nat.toDigits_ne_nil]

/-- The digits of a positive number do not start with zero. -/
theorem digitsOf_head {n : Nat} (h : 0 < n) (rest : List Nat) : digitsOf n ≠ 0 :: rest := by
  induction n using Nat.strongRecOn generalizing rest with
  | ind n ih =>
    by_cases hsmall : n < 10
    · have hvalue := Nat.toNat_digitChar_sub_48_of_lt_ten hsmall
      simp only [digitsOf, digitValues, Nat.toDigits_of_lt_base hsmall, List.map_cons, List.map_nil]
      intro heq
      injection heq with hhead
      omega
    · have hsplit : digitsOf n = digitsOf (n / 10) ++ digitValues (Nat.toDigits 10 (n % 10)) := by
        rw [digitsOf, digitsOf, digitValues, digitValues, digitValues, ← List.map_append,
          Nat.toDigits_append_toDigits (by decide) (by omega) (by omega), Nat.div_add_mod]
      obtain ⟨d, others, hd⟩ := List.exists_cons_of_ne_nil (digitsOf_ne_nil (n / 10))
      intro heq
      rw [hsplit, hd, List.cons_append] at heq
      injection heq with hhead
      exact ih (n / 10) (by omega) (by omega) others (hhead ▸ hd)

/-- The digits of a natural number have no zero in front of others. -/
theorem digitsOf_no_leading_zero (n next : Nat) (rest : List Nat) :
    digitsOf n ≠ 0 :: next :: rest := by
  by_cases h : 0 < n
  · exact digitsOf_head h (next :: rest)
  · have hzero : n = 0 := by omega
    subst hzero
    simp [digitsOf, digitValues]

/-- The digits of a natural number spell it. -/
theorem decimal_digitsOf (n : Nat) : decimal (digitsOf n) = n := by
  have hspelled : Nat.ofDigitChars 10 (Nat.toDigits 10 n) 0 = n :=
    Nat.ofDigitChars_toDigits (by decide) (by decide)
  rw [decimal, digitsOf, digitValues, List.foldl_map]
  exact hspelled

end NumberText

namespace Number

open NumberText

/-- The parts of an integer as it is written. -/
def integerText (n : Int) : NumberText where
  negative := n < 0
  whole := digitsOf n.natAbs

/-- An integer is made of the parts that numbers are made of. -/
theorem wellFormed_integerText (n : Int) : (integerText n).WellFormed where
  whole_lt := digitValues_lt (isDigit_toDigits n.natAbs)
  whole_ne_nil := digitsOf_ne_nil n.natAbs
  no_leading_zero := digitsOf_no_leading_zero n.natAbs
  fraction_lt := by simp [integerText]
  exponent_lt := by simp [integerText]

/-- The text of an integer is its digits, after a minus sign if it is negative. -/
theorem toString_int (n : Int) : toString n =
    String.ofList ((if n < 0 then ['-'] else []) ++ Nat.toDigits 10 n.natAbs) := by
  apply String.toList_inj.mp
  rw [Int.toString_eq_repr, Int.repr_eq_if]
  by_cases h : 0 ≤ n
  · have habs : n.toNat = n.natAbs := by omega
    simp [h, habs, Int.not_lt.mpr h]
  · have habs : (-n).toNat = n.natAbs := by omega
    simp [h, habs, Int.not_le.mp h]

/-- An integer is written in the usual spelling. -/
theorem write_integer (n : Int) : (Number.integer n).write = (integerText n).spelled := by
  have hdigits := utf8_digits (isDigit_toDigits n.natAbs)
  rw [Text.utf8_ofList] at hdigits
  have hminus : String.utf8EncodeChar '-' = [0x2D] := by decide
  rw [write, toString_int, Text.utf8_ofList, List.flatMap_append, hdigits]
  by_cases h : n < 0 <;>
    simp [spelled, integerText, h, hminus, fractionBytes, exponentBytes, digitsOf]

/-- An integer that sixty-four bits hold, with a sign or without, is read back. -/
theorem value?_integerText {n : Int} (hlow : -9223372036854775808 ≤ n)
    (hhigh : n < 18446744073709551616) :
    (integerText n).value? = some (.integer n) := by
  rw [value?]
  simp only [integerText, decimal_digitsOf, and_self, if_true, decide_eq_true_eq, Nat.pow_eq]
  by_cases h : n < 0
  · have habs : -(n.natAbs : Int) = n := by omega
    rw [if_pos h, if_pos (by omega), habs]
  · have habs : (n.natAbs : Int) = n := by omega
    rw [if_neg h, if_pos (by omega), habs]

end Number

end OpaqueTokens.Json
