import Mathlib.Data.List.Forall2
import OpaqueTokens.Text.Hex

/-!
# Hexadecimal bytes read back

A digit of either case stands for a half byte, and no other character does. So a list of bytes is
read from exactly the texts whose characters are its digits, each in upper or in lower case.
-/

namespace OpaqueTokens.Text.Hex

/-- Characters spell others if each of them is the other one or its upper case. -/
def SpelledInEitherCase (chars digits : List Char) : Prop :=
  List.Forall₂ (fun c d => c = d ∨ c = d.toUpper) chars digits

/-- A character stands for a half byte just when it is the digit of that half byte, in either
case. -/
theorem value?_eq_some_iff {c : Char} {n : Nat} :
    value? c = some n ↔ n < 16 ∧ (c = digit n ∨ c = (digit n).toUpper) := by
  constructor
  · intro h
    -- What stands for a half byte is one of the first 128 characters.
    have hplain : c.toNat < 128 := by
      simp only [value?] at h
      split at h
      · omega
      · split at h
        · omega
        · split at h
          · omega
          · cases h
    have hall : ∀ m < 128, ∀ n ∈ value? (Char.ofNat m),
        n < 16 ∧ (Char.ofNat m = digit n ∨ Char.ofNat m = (digit n).toUpper) := by
      decide
    have hchar := hall c.toNat hplain n
    rw [Char.ofNat_toNat] at hchar
    exact hchar h
  · rintro ⟨hlt, hc⟩
    have hall : ∀ n < 16, value? (digit n) = some n ∧ value? (digit n).toUpper = some n := by
      decide
    rcases hc with rfl | rfl
    · exact (hall n hlt).1
    · exact (hall n hlt).2

/-- There are two digits for each byte. -/
theorem length_encodeChars (bytes : List UInt8) : (encodeChars bytes).length = 2 * bytes.length := by
  simp [encodeChars, List.length_flatMap, List.map_const', Nat.mul_comm]

/-- The digits of a byte stand before those of the bytes after it. -/
theorem encodeChars_cons (b : UInt8) (rest : List UInt8) :
    encodeChars (b :: rest) = digit (b.toNat / 16) :: digit (b.toNat % 16) :: encodeChars rest :=
  rfl

/-- Characters are read as a list of bytes just when they spell its digits. -/
theorem decodeChars?_eq_some_iff {chars : List Char} {bytes : List UInt8} :
    decodeChars? chars = some bytes ↔ SpelledInEitherCase chars (encodeChars bytes) := by
  induction chars using decodeChars?.induct generalizing bytes with
  | case1 =>
    cases bytes with
    | nil => simp [decodeChars?, encodeChars, SpelledInEitherCase]
    | cons b others => simp [decodeChars?, encodeChars_cons, SpelledInEitherCase]
  | case2 c =>
    cases bytes with
    | nil => simp [decodeChars?, encodeChars, SpelledInEitherCase]
    | cons b others => simp [decodeChars?, encodeChars_cons, SpelledInEitherCase]
  | case3 high low rest ih =>
    cases bytes with
    | nil => simp [decodeChars?, encodeChars, SpelledInEitherCase, Option.bind_eq_some_iff]
    | cons b others =>
      have hb := b.toNat_lt
      rw [encodeChars_cons, SpelledInEitherCase, List.forall₂_cons, List.forall₂_cons,
        ← SpelledInEitherCase, ← ih]
      simp only [decodeChars?, Option.bind_eq_bind, Option.bind_eq_some_iff, Option.pure_def,
        Option.some.injEq, List.cons.injEq]
      constructor
      · rintro ⟨h, hhigh, l, hlow, _, hrest, rfl, rfl⟩
        obtain ⟨hh, hhigh⟩ := value?_eq_some_iff.mp hhigh
        obtain ⟨hl, hlow⟩ := value?_eq_some_iff.mp hlow
        have hbyte : (UInt8.ofNat (16 * h + l)).toNat = 16 * h + l := by
          rw [UInt8.toNat_ofNat']
          omega
        have hdiv : (16 * h + l) / 16 = h := by omega
        have hmod : (16 * h + l) % 16 = l := by omega
        rw [hbyte, hdiv, hmod]
        exact ⟨hhigh, hlow, hrest⟩
      · rintro ⟨hhigh, hlow, hrest⟩
        refine ⟨_, value?_eq_some_iff.mpr ⟨by omega, hhigh⟩, _,
          value?_eq_some_iff.mpr ⟨by omega, hlow⟩, others, hrest, ?_, rfl⟩
        have hnat : 16 * (b.toNat / 16) + b.toNat % 16 = b.toNat := by omega
        rw [hnat, UInt8.ofNat_toNat]

/-- Whatever holds of all digits in both cases holds of characters that spell bytes. -/
theorem forall_mem_of_spelled {P : Char → Prop}
    (h : ∀ n < 16, P (digit n) ∧ P (digit n).toUpper) {chars : List Char} {bytes : List UInt8}
    (hspelled : SpelledInEitherCase chars (encodeChars bytes)) : ∀ c ∈ chars, P c := by
  have hdigits : ∀ d ∈ encodeChars bytes, P d ∧ P d.toUpper := by
    intro d hd
    obtain ⟨b, -, hd⟩ := List.mem_flatMap.mp hd
    have hb := b.toNat_lt
    simp only [List.mem_cons, List.not_mem_nil, or_false] at hd
    rcases hd with rfl | rfl
    · exact h _ (by omega)
    · exact h _ (by omega)
  rw [SpelledInEitherCase] at hspelled
  generalize encodeChars bytes = digits at hspelled hdigits
  induction hspelled with
  | nil => simp
  | cons hc _ ih =>
    rw [List.forall_mem_cons] at hdigits ⊢
    refine ⟨?_, ih hdigits.2⟩
    rcases hc with rfl | rfl
    · exact hdigits.1.1
    · exact hdigits.1.2

/-- Every list of bytes is read back from its text. -/
theorem decode?_encode (bytes : List UInt8) : decode? (encode bytes) = some bytes := by
  rw [decode?, encode, String.toList_ofList, decodeChars?_eq_some_iff]
  exact List.forall₂_same.mpr fun c _ => .inl rfl

/-- A text is read as a list of bytes just when it spells the text of the list in either case. -/
theorem decode?_eq_some_iff {text : String} {bytes : List UInt8} :
    decode? text = some bytes ↔ SpelledInEitherCase text.toList (encode bytes).toList := by
  rw [decode?, decodeChars?_eq_some_iff, encode, String.toList_ofList]

end OpaqueTokens.Text.Hex
