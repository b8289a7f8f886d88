import Mathlib.Data.List.TakeDrop
import OpaqueTokens.Text.Base64

/-!
# Base 64 read back

Every list of bytes is read back from its digits and from its characters, in either alphabet, and
the text that a list of bytes is read from is the one that it is written as, unpadded and URL-safe
or padded and standard. The digits of a list are a matter of arithmetic on groups of three bytes;
the characters only rename the digits, and none of them is the one that pads.
-/

namespace OpaqueTokens.Text.Base64

/-- The character of a digit stands for that digit. -/
theorem value?_digit (alphabet : Alphabet) {n : Nat} (h : n < 64) :
    alphabet.value? (alphabet.digit n) = some n := by
  have all : ∀ n < 64, alphabet.value? (alphabet.digit n) = some n := by
    cases alphabet <;> decide
  exact all n h

/-- A byte is put together from any split of its bits. -/
theorem ofNat_eq_of_toNat_eq {n : Nat} {b : UInt8} (h : n = b.toNat) : UInt8.ofNat n = b := by
  rw [h, UInt8.ofNat_toNat]

/-- Every digit of a list of bytes has six bits. -/
theorem digits_lt (bytes : List UInt8) : ∀ n ∈ digits bytes, n < 64 := by
  induction bytes using digits.induct with
  | case1 => simp [digits]
  | case2 a =>
    have ha := a.toNat_lt
    simp only [digits, List.forall_mem_cons]
    exact ⟨by omega, by omega, by simp⟩
  | case3 a b =>
    have ha := a.toNat_lt
    have hb := b.toNat_lt
    simp only [digits, List.forall_mem_cons]
    exact ⟨by omega, by omega, by omega, by simp⟩
  | case4 a b c rest ih =>
    have ha := a.toNat_lt
    have hb := b.toNat_lt
    have hc := c.toNat_lt
    simp only [digits, List.forall_mem_cons]
    exact ⟨by omega, by omega, by omega, by omega, ih⟩

/-- The digits of a list of bytes spell that list. -/
theorem ofDigits?_digits (bytes : List UInt8) : ofDigits? (digits bytes) = some bytes := by
  induction bytes using digits.induct with
  | case1 => rfl
  | case2 a =>
    have ha := a.toNat_lt
    have hfirst : UInt8.ofNat (a.toNat / 4 * 4 + a.toNat % 4 * 16 / 16) = a :=
      ofNat_eq_of_toNat_eq (by omega)
    simp only [digits, ofDigits?, hfirst]
    rw [if_pos (by omega)]
  | case3 a b =>
    have ha := a.toNat_lt
    have hb := b.toNat_lt
    have hfirst : UInt8.ofNat (a.toNat / 4 * 4 + (a.toNat % 4 * 16 + b.toNat / 16) / 16) = a :=
      ofNat_eq_of_toNat_eq (by omega)
    have hsecond : UInt8.ofNat
        ((a.toNat % 4 * 16 + b.toNat / 16) % 16 * 16 + b.toNat % 16 * 4 / 4) = b :=
      ofNat_eq_of_toNat_eq (by omega)
    simp only [digits, ofDigits?, hfirst, hsecond]
    rw [if_pos (by omega)]
  | case4 a b c rest ih =>
    have ha := a.toNat_lt
    have hb := b.toNat_lt
    have hc := c.toNat_lt
    have hfirst : UInt8.ofNat (a.toNat / 4 * 4 + (a.toNat % 4 * 16 + b.toNat / 16) / 16) = a :=
      ofNat_eq_of_toNat_eq (by omega)
    have hsecond : UInt8.ofNat ((a.toNat % 4 * 16 + b.toNat / 16) % 16 * 16 +
        (b.toNat % 16 * 4 + c.toNat / 64) / 4) = b :=
      ofNat_eq_of_toNat_eq (by omega)
    have hthird : UInt8.ofNat
        ((b.toNat % 16 * 4 + c.toNat / 64) % 4 * 64 + c.toNat % 64) = c :=
      ofNat_eq_of_toNat_eq (by omega)
    simp only [digits, ofDigits?, ih, Option.map_some, hfirst, hsecond, hthird]

/-- The characters of a list of bytes spell that list. -/
theorem decodeChars?_encodeChars (alphabet : Alphabet) (bytes : List UInt8) :
    decodeChars? alphabet (encodeChars alphabet bytes) = some bytes := by
  have hvalues : ∀ ns : List Nat, (∀ n ∈ ns, n < 64) →
      (ns.map alphabet.digit).mapM alphabet.value? = some ns := by
    intro ns hns
    induction ns with
    | nil => rfl
    | cons n rest ih =>
      rw [List.forall_mem_cons] at hns
      simp [value?_digit alphabet hns.1, ih hns.2]
  rw [decodeChars?, encodeChars, hvalues _ (digits_lt bytes), Option.bind_some,
    ofDigits?_digits]

/-- The unpadded URL-safe text of a list of bytes is read back as that list. -/
theorem decodeUrl?_encodeUrl (bytes : List UInt8) : decodeUrl? (encodeUrl bytes) = some bytes := by
  rw [decodeUrl?, encodeUrl, String.toList_ofList, decodeChars?_encodeChars]

/-- A character that stands for a digit is the character of that digit. -/
theorem digit_of_value? {alphabet : Alphabet} {c : Char} {n : Nat}
    (h : alphabet.value? c = some n) : n < 64 ∧ alphabet.digit n = c := by
  simp only [Alphabet.value?] at h
  split at h
  · rename_i hupper
    obtain rfl := Option.some.inj h
    have hchar : 0x41 + (c.toNat - 0x41) = c.toNat := by omega
    refine ⟨by omega, ?_⟩
    rw [Alphabet.digit, if_pos (by omega), hchar, Char.ofNat_toNat]
  · split at h
    · rename_i hlower
      obtain rfl := Option.some.inj h
      have hchar : 0x61 + (c.toNat - 0x61 + 26 - 26) = c.toNat := by omega
      refine ⟨by omega, ?_⟩
      rw [Alphabet.digit, if_neg (by omega), if_pos (by omega), hchar, Char.ofNat_toNat]
    · split at h
      · rename_i hdecimal
        obtain rfl := Option.some.inj h
        have hchar : 0x30 + (c.toNat - 0x30 + 52 - 52) = c.toNat := by omega
        refine ⟨by omega, ?_⟩
        rw [Alphabet.digit, if_neg (by omega), if_neg (by omega), if_pos (by omega), hchar,
          Char.ofNat_toNat]
      · split at h
        · rename_i hfirst
          obtain rfl := Option.some.inj h
          exact ⟨by decide, hfirst.symm⟩
        · split at h
          · rename_i hlast
            obtain rfl := Option.some.inj h
            exact ⟨by decide, hlast.symm⟩
          · simp at h

/-- Characters that stand for digits are the characters of these digits. -/
theorem map_digit_of_mapM {alphabet : Alphabet} {chars : List Char} {ns : List Nat}
    (h : chars.mapM alphabet.value? = some ns) :
    (∀ n ∈ ns, n < 64) ∧ ns.map alphabet.digit = chars := by
  induction chars generalizing ns with
  | nil =>
    obtain rfl := Option.some.inj h
    exact ⟨by simp, rfl⟩
  | cons c rest ih =>
    rw [List.mapM_cons] at h
    obtain ⟨n, hn, h⟩ := Option.bind_eq_some_iff.mp h
    obtain ⟨others, hothers, h⟩ := Option.bind_eq_some_iff.mp h
    obtain rfl := Option.some.inj h
    obtain ⟨hlt, hdigit⟩ := digit_of_value? hn
    obtain ⟨hlts, hdigits⟩ := ih hothers
    exact ⟨List.forall_mem_cons.mpr ⟨hlt, hlts⟩, by rw [List.map_cons, hdigit, hdigits]⟩

/-- Digits that spell a list of bytes are the digits of that list. -/
theorem digits_of_ofDigits? {ns : List Nat} {bytes : List UInt8} (hlt : ∀ n ∈ ns, n < 64)
    (h : ofDigits? ns = some bytes) : digits bytes = ns := by
  induction ns using ofDigits?.induct generalizing bytes with
  | case1 =>
    obtain rfl := Option.some.inj h
    rfl
  | case2 => simp [ofDigits?] at h
  | case3 s t hrest =>
    simp only [List.forall_mem_cons] at hlt
    rw [ofDigits?, if_pos hrest] at h
    obtain rfl := Option.some.inj h
    simp only [digits, UInt8.toNat_ofNat', List.cons.injEq, and_true]
    omega
  | case4 s t hrest => simp [ofDigits?, hrest] at h
  | case5 s t u hrest =>
    simp only [List.forall_mem_cons] at hlt
    rw [ofDigits?, if_pos hrest] at h
    obtain rfl := Option.some.inj h
    simp only [digits, UInt8.toNat_ofNat', List.cons.injEq, and_true]
    omega
  | case6 s t u hrest => simp [ofDigits?, hrest] at h
  | case7 s t u v rest ih =>
    simp only [List.forall_mem_cons] at hlt
    obtain ⟨hs, ht, hu, hv, hlt⟩ := hlt
    rw [ofDigits?] at h
    obtain ⟨others, hothers, rfl⟩ := Option.map_eq_some_iff.mp h
    simp only [digits, UInt8.toNat_ofNat', List.cons.injEq, ih hlt hothers, and_true]
    omega

/-- Characters are read as a list of bytes just when they are what the list is written as. -/
theorem decodeChars?_eq_some_iff {alphabet : Alphabet} {chars : List Char} {bytes : List UInt8} :
    decodeChars? alphabet chars = some bytes ↔ encodeChars alphabet bytes = chars := by
  constructor
  · intro h
    obtain ⟨ns, hns, hbytes⟩ := Option.bind_eq_some_iff.mp h
    obtain ⟨hlt, hchars⟩ := map_digit_of_mapM hns
    rw [encodeChars, digits_of_ofDigits? hlt hbytes, hchars]
  · rintro rfl
    exact decodeChars?_encodeChars alphabet bytes

/-- A text is read as a list of bytes just when it is what the list is written as. -/
theorem decodeUrl?_eq_some_iff {text : String} {bytes : List UInt8} :
    decodeUrl? text = some bytes ↔ encodeUrl bytes = text := by
  rw [decodeUrl?, decodeChars?_eq_some_iff, encodeUrl, ← String.toList_inj, String.toList_ofList]

/-- A character of a digit is a plain one, and not the one that pads. -/
theorem digit_spec (alphabet : Alphabet) {n : Nat} (h : n < 64) :
    (alphabet.digit n).toNat < 128 ∧ alphabet.digit n ≠ '=' := by
  have all : ∀ n < 64, (alphabet.digit n).toNat < 128 ∧ alphabet.digit n ≠ '=' := by
    cases alphabet <;> decide
  exact all n h

/-- Whatever holds of the characters of all digits holds of the characters of bytes. -/
theorem forall_mem_encodeChars {P : Char → Prop} {alphabet : Alphabet}
    (h : ∀ n < 64, P (alphabet.digit n)) (bytes : List UInt8) :
    ∀ c ∈ encodeChars alphabet bytes, P c := by
  intro c hc
  obtain ⟨n, hn, rfl⟩ := List.mem_map.mp hc
  exact h n (digits_lt bytes n hn)

/-- Every three bytes have four digits; one more byte has two, and two more have three. -/
theorem length_encodeChars (alphabet : Alphabet) (bytes : List UInt8) :
    (encodeChars alphabet bytes).length = (4 * bytes.length + 2) / 3 := by
  rw [encodeChars, List.length_map]
  induction bytes using digits.induct with
  | case1 => rfl
  | case2 a => simp [digits]
  | case3 a b => simp [digits]
  | case4 a b c rest ih =>
    simp only [digits, List.length_cons, ih]
    omega

/-- Characters before padding are told apart from it. -/
theorem span_append_padding {chars : List Char} (h : ∀ c ∈ chars, c ≠ '=') (count : Nat) :
    (chars ++ padding count).span (· ≠ '=') = (chars, padding count) := by
  have hchars : ∀ c ∈ chars, decide (c ≠ '=') = true := fun c hc => decide_eq_true (h c hc)
  rw [List.span_eq_takeWhile_dropWhile, List.takeWhile_append_of_pos hchars,
    List.dropWhile_append_of_pos hchars, padding]
  cases (4 - count % 4) % 4 with
  | zero => simp
  | succ k => simp [List.replicate_succ]

/-- A padded text is read as a list of bytes just when it is what the list is written as. -/
theorem decodePadded?_eq_some_iff {text : String} {bytes : List UInt8} :
    decodePadded? text = some bytes ↔ encodePadded bytes = text := by
  rw [decodePadded?, encodePadded, ← String.toList_inj, String.toList_ofList]
  constructor
  · intro h
    have hsplit : text.toList =
        (text.toList.span (· ≠ '=')).1 ++ (text.toList.span (· ≠ '=')).2 := by
      rw [List.span_eq_takeWhile_dropWhile, List.takeWhile_append_dropWhile]
    generalize text.toList.span (· ≠ '=') = parts at h hsplit
    obtain ⟨chars, pad⟩ := parts
    dsimp only at h hsplit
    split at h
    · rename_i hpad
      rw [decodeChars?_eq_some_iff.mp h, ← hpad, hsplit]
    · cases h
  · intro h
    have hchars : ∀ c ∈ encodeChars .standard bytes, c ≠ '=' :=
      forall_mem_encodeChars (fun n hn => (digit_spec .standard hn).2) bytes
    rw [← h, span_append_padding hchars]
    simp [decodeChars?_encodeChars]

end OpaqueTokens.Text.Base64
