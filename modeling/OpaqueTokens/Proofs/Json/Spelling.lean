import OpaqueTokens.Json.Lexeme
import OpaqueTokens.Proofs.Text.Utf8

/-!
# How numbers are spelled

A number in its usual spelling: a minus sign if it has one, whole digits without a leading zero,
a fraction if there is one, and an exponent with its sign if there is one. Reading such a
spelling gives the same parts back. Other spellings of the same number are not looked at.
-/

namespace OpaqueTokens.Json

namespace NumberText

/-- The bytes of decimal digits. -/
def digitBytes (digits : List Nat) : List UInt8 :=
  digits.map fun d => UInt8.ofNat (0x30 + d)

/-- The bytes of a fraction with its point. -/
def fractionBytes : List Nat → List UInt8
  | [] => []
  | digits => 0x2E :: digitBytes digits

/-- The bytes of an exponent with its letter and its sign. -/
def exponentBytes : Option (Bool × List Nat) → List UInt8
  | none => []
  | some (negative, digits) => 0x65 :: (if negative then 0x2D else 0x2B) :: digitBytes digits

/-- The bytes of a number in its usual spelling. -/
def spelled (text : NumberText) : List UInt8 :=
  (if text.negative then [0x2D] else []) ++ digitBytes text.whole ++
    fractionBytes text.fraction ++ exponentBytes text.exponent

/-- The parts that numbers are made of: decimal digits, at least one before the point and after
the exponent's letter, and no zero in front of other whole digits. -/
structure WellFormed (text : NumberText) : Prop where
  whole_lt : ∀ d ∈ text.whole, d < 10
  whole_ne_nil : text.whole ≠ []
  no_leading_zero : ∀ next rest, text.whole ≠ 0 :: next :: rest
  fraction_lt : ∀ d ∈ text.fraction, d < 10
  exponent_lt : ∀ negative digits, text.exponent = some (negative, digits) →
    digits ≠ [] ∧ ∀ d ∈ digits, d < 10

/-- The byte of a digit stands for that digit. -/
theorem digit?_ofNat {d : Nat} (h : d < 10) : digit? (UInt8.ofNat (0x30 + d)) = some d := by
  have all : ∀ d < 10, digit? (UInt8.ofNat (0x30 + d)) = some d := by decide
  exact all d h

/-- Digits are taken up to what is not one. -/
theorem takeDigits_append {digits : List Nat} (h : ∀ d ∈ digits, d < 10) {rest : List UInt8}
    (hrest : takeDigits rest = ([], rest)) :
    takeDigits (digitBytes digits ++ rest) = (digits, rest) := by
  induction digits with
  | nil => exact hrest
  | cons d others ih =>
    rw [List.forall_mem_cons] at h
    have htail := ih h.2
    simp only [digitBytes] at htail ⊢
    simp only [List.map_cons, List.cons_append, takeDigits, digit?_ofNat h.1, htail]

/-- Digits at the end are taken to the end. -/
theorem takeDigits_digitBytes {digits : List Nat} (h : ∀ d ∈ digits, d < 10) :
    takeDigits (digitBytes digits) = (digits, []) := by
  simpa using takeDigits_append h (rfl : takeDigits [] = ([], []))

/-- An exponent opens with no digit. -/
theorem takeDigits_exponentBytes (exponent : Option (Bool × List Nat)) :
    takeDigits (exponentBytes exponent) = ([], exponentBytes exponent) := by
  cases exponent <;> rfl

/-- An exponent is read back. -/
theorem exponent?_exponentBytes {exponent : Option (Bool × List Nat)}
    (h : ∀ negative digits, exponent = some (negative, digits) →
      digits ≠ [] ∧ ∀ d ∈ digits, d < 10) :
    exponent? (exponentBytes exponent) = some exponent := by
  cases exponent with
  | none => rfl
  | some parts =>
    obtain ⟨negative, digits⟩ := parts
    obtain ⟨hne, hlt⟩ := h negative digits rfl
    have htake := takeDigits_digitBytes hlt
    cases digits with
    | nil => exact absurd rfl hne
    | cons d others => cases negative <;> simp [exponentBytes, exponent?, htake]

/-- A fraction and what follows it open with no digit. -/
theorem takeDigits_fractionBytes (fraction : List Nat) (exponent : Option (Bool × List Nat)) :
    takeDigits (fractionBytes fraction ++ exponentBytes exponent) =
      ([], fractionBytes fraction ++ exponentBytes exponent) := by
  cases fraction with
  | nil => exact takeDigits_exponentBytes exponent
  | cons d others => rfl

/-- A fraction and the exponent after it are read back. -/
theorem fraction?_fractionBytes {fraction : List Nat} (hfraction : ∀ d ∈ fraction, d < 10)
    {exponent : Option (Bool × List Nat)}
    (hexponent : exponent? (exponentBytes exponent) = some exponent) :
    fraction? (fractionBytes fraction ++ exponentBytes exponent) = some (fraction, exponent) := by
  cases fraction with
  | nil =>
    rw [fractionBytes, List.nil_append, fraction?.eq_def]
    cases exponent <;> simp [exponentBytes] at hexponent ⊢ <;> simp [hexponent]
  | cons d others =>
    have htake := takeDigits_append hfraction (takeDigits_exponentBytes exponent)
    simp [fractionBytes, fraction?, htake, hexponent]

/-- Once the sign is off, the parts of a number are read in turn. -/
theorem ofBytes?_of_takeDigits {text : NumberText} (h : text.WellFormed) {bytes rest : List UInt8}
    (hsign : bytes = if text.negative then 0x2D :: rest else rest)
    (htake : takeDigits rest = (text.whole, fractionBytes text.fraction ++
      exponentBytes text.exponent)) (hplain : ∀ tail, rest ≠ 0x2D :: tail) :
    ofBytes? bytes = some text := by
  obtain ⟨negative, whole, fraction, exponent⟩ := text
  have hrest := fraction?_fractionBytes h.fraction_lt (exponent?_exponentBytes h.exponent_lt)
  unfold ofBytes?
  split
  rename_i sign body hbody
  obtain ⟨rfl, rfl⟩ : sign = negative ∧ body = rest := by
    subst hsign
    cases negative with
    | true => simpa [eq_comm] using hbody
    | false =>
      simp only [Bool.false_eq_true, if_false] at hbody
      simpa [eq_comm] using hbody
  simp only at htake hrest
  simp only [htake]
  split
  · rename_i heq
    exact absurd (congrArg Prod.fst heq) h.whole_ne_nil
  · rename_i next others _ heq
    exact absurd (congrArg Prod.fst heq) (h.no_leading_zero next others)
  · rename_i heq
    cases heq
    simp [hrest]

/-- A number in its usual spelling is read as its parts. -/
theorem ofBytes?_spelled {text : NumberText} (h : text.WellFormed) :
    ofBytes? text.spelled = some text := by
  refine ofBytes?_of_takeDigits h ?_ (takeDigits_append h.whole_lt
    (takeDigits_fractionBytes text.fraction text.exponent)) ?_
  · cases hsign : text.negative <;> simp [spelled, hsign]
  · intro tail htail
    -- The first byte is a digit's, and so no sign.
    obtain ⟨d, others, hwhole⟩ := List.exists_cons_of_ne_nil h.whole_ne_nil
    have hd : d < 10 := h.whole_lt d (by simp [hwhole])
    have hbyte : UInt8.ofNat (0x30 + d) = 0x2D := by
      have hcons := htail
      rw [hwhole] at hcons
      exact (List.cons.inj hcons).1
    have hdigit := digit?_ofNat hd
    rw [hbyte] at hdigit
    cases hdigit

/-- Digits are written with bytes of numbers. -/
theorem isNumberByte_digitBytes {digits : List Nat} (h : ∀ d ∈ digits, d < 10) :
    ∀ b ∈ digitBytes digits, Scan.isNumberByte b = true := by
  have all : ∀ d < 10, Scan.isNumberByte (UInt8.ofNat (0x30 + d)) = true := by decide
  intro b hb
  obtain ⟨d, hd, rfl⟩ := List.mem_map.mp hb
  exact all d (h d hd)

/-- A number in its usual spelling holds only bytes of numbers. -/
theorem isNumberByte_spelled {text : NumberText} (h : text.WellFormed) :
    ∀ b ∈ text.spelled, Scan.isNumberByte b = true := by
  obtain ⟨negative, whole, fraction, exponent⟩ := text
  have hminus : Scan.isNumberByte 0x2D = true := by decide
  have hplus : Scan.isNumberByte 0x2B = true := by decide
  have hpoint : Scan.isNumberByte 0x2E = true := by decide
  have hletter : Scan.isNumberByte 0x65 = true := by decide
  have hwhole := isNumberByte_digitBytes h.whole_lt
  have hfraction : ∀ b ∈ fractionBytes fraction, Scan.isNumberByte b = true := by
    cases fraction with
    | nil => simp [fractionBytes]
    | cons d others =>
      rw [fractionBytes, List.forall_mem_cons]
      · exact ⟨hpoint, isNumberByte_digitBytes h.fraction_lt⟩
      · simp
  have hexponent : ∀ b ∈ exponentBytes exponent, Scan.isNumberByte b = true := by
    cases exponent with
    | none => simp [exponentBytes]
    | some parts =>
      have hdigits := isNumberByte_digitBytes (h.exponent_lt parts.1 parts.2 rfl).2
      rw [exponentBytes, List.forall_mem_cons, List.forall_mem_cons]
      exact ⟨hletter, by split <;> assumption, hdigits⟩
  intro b hb
  simp only [spelled, List.mem_append] at hb
  rcases hb with ((hsign | hb) | hb) | hb
  · cases negative <;> simp at hsign
    exact hsign ▸ hminus
  · exact hwhole b hb
  · exact hfraction b hb
  · exact hexponent b hb

end NumberText

end OpaqueTokens.Json
