import Mathlib.Data.List.Induction
import OpaqueTokens.Seal.Envelope

/-!
# Envelopes taken apart

The eight bytes of an expiry spell it again, and an envelope comes apart into the header, the
nonce and the ciphertext that it was put together from. The first needs an expiry of sixty-four
bits, the second a key identifier whose length fits in a byte. Conversely, any eight bytes are
those of the expiry that they spell, and whatever comes apart is made up of its parts.
-/

namespace OpaqueTokens.Envelope

theorem length_expiryBytes (seconds : Int) : (expiryBytes seconds).length = 8 := by
  simp [expiryBytes]

/-- The bytes of a number, the highest first, spell as much of it as fits in them. -/
theorem foldl_bytes (n count : Nat) :
    ((List.range count).map fun i => UInt8.ofNat (n / Nat.pow 256 (count - 1 - i))).foldl
      (fun n b => 256 * n + b.toNat) 0 = n % Nat.pow 256 count := by
  induction count generalizing n with
  | zero => simp [Nat.mod_one]
  | succ count ih =>
    -- All bytes but the last one are those of the number without it.
    have hinit : ((List.range count).map fun i => UInt8.ofNat (n / Nat.pow 256 (count - i))) =
        (List.range count).map fun i => UInt8.ofNat (n / 256 / Nat.pow 256 (count - 1 - i)) := by
      apply List.map_congr_left
      intro i hi
      have hstep : count - i = count - 1 - i + 1 := by
        have hlt := List.mem_range.mp hi
        omega
      rw [hstep, Nat.div_div_eq_div_mul, Nat.pow_eq, Nat.pow_eq, Nat.pow_succ']
    have hmod : n % Nat.pow 256 (count + 1) =
        n % 256 + 256 * (n / 256 % Nat.pow 256 count) := by
      rw [Nat.pow_eq, Nat.pow_eq, Nat.pow_succ', Nat.mod_mul]
    rw [List.range_succ, List.map_append, List.foldl_append, Nat.add_sub_cancel, hinit, ih, hmod]
    simp only [List.map_cons, List.map_nil, List.foldl_cons, List.foldl_nil, Nat.sub_self,
      Nat.pow_eq, Nat.pow_zero, Nat.div_one, UInt8.toNat_ofNat']
    omega

/-- The bytes of an expiry spell it. -/
theorem ofExpiryBytes_expiryBytes {seconds : Int} (hlow : -9223372036854775808 ≤ seconds)
    (hhigh : seconds < 9223372036854775808) : ofExpiryBytes (expiryBytes seconds) = seconds := by
  have hlt : (seconds % 18446744073709551616).toNat < Nat.pow 256 8 := by
    simp only [Nat.pow_eq, Nat.reducePow]
    omega
  rw [ofExpiryBytes, expiryBytes]
  have hspelled := foldl_bytes (seconds % 18446744073709551616).toNat 8
  rw [Nat.mod_eq_of_lt hlt] at hspelled
  simp only [Nat.reduceSub] at hspelled
  simp only [hspelled]
  split <;> omega

theorem length_header (keyId : String) : (header keyId).length = 2 + (Text.utf8 keyId).length := by
  simp only [header, List.length_cons]
  omega

/-- An identifier fits in a header: it has bytes, and no more of them than one byte can count. -/
def FitsHeader (id : String) : Prop :=
  1 ≤ (Text.utf8 id).length ∧ (Text.utf8 id).length ≤ 255

instance (id : String) : Decidable (FitsHeader id) :=
  inferInstanceAs (Decidable (_ ∧ _))

/-- The header of an identifier that fits counts its bytes. -/
theorem FitsHeader.exists_header_eq {id : String} (h : FitsHeader id) :
    ∃ count, header id = version :: count :: Text.utf8 id ∧
      count.toNat = (Text.utf8 id).length := by
  refine ⟨UInt8.ofNat (Text.utf8 id).length, rfl, ?_⟩
  rw [UInt8.toNat_ofNat', Nat.mod_eq_of_lt (Nat.lt_succ_of_le h.2)]

/-- What follows a header is told apart from it by the length that the header announces. -/
theorem split?_header_append {keyId : String} (hid : (Text.utf8 keyId).length < 256)
    {rest : List UInt8} (hrest : minimumRest ≤ rest.length) :
    split? (header keyId ++ rest) =
      some ⟨header keyId, Text.utf8 keyId, rest.take 12, rest.drop 12⟩ := by
  have hsize : 2 + (UInt8.ofNat (Text.utf8 keyId).length).toNat = (header keyId).length := by
    rw [length_header, UInt8.toNat_ofNat', Nat.mod_eq_of_lt hid]
  have hbytes : header keyId ++ rest =
      version :: UInt8.ofNat (Text.utf8 keyId).length :: (Text.utf8 keyId ++ rest) := rfl
  have hlength : (header keyId).length + minimumRest ≤ (header keyId ++ rest).length := by
    rw [List.length_append]
    omega
  rw [hbytes, split?, ← hbytes, hsize]
  simp only [true_and, hlength, if_true, List.take_left, List.drop_left]
  rfl

/-- An envelope comes apart into what it was put together from. -/
theorem split?_append {keyId : String} (hid : (Text.utf8 keyId).length < 256) (nonce : Nonce)
    {hidden : List UInt8} (hhidden : 24 ≤ hidden.length) :
    split? (header keyId ++ nonce.bytes ++ hidden) =
      some ⟨header keyId, Text.utf8 keyId, nonce.bytes, hidden⟩ := by
  have hrest : minimumRest ≤ (nonce.bytes ++ hidden).length := by
    rw [List.length_append, nonce.length_eq, minimumRest]
    omega
  rw [List.append_assoc, split?_header_append hid hrest, ← nonce.length_eq, List.take_left,
    List.drop_left]

/-- The range of an expiry: what fits in eight bytes with a sign. -/
def IsExpiry (seconds : Int) : Prop :=
  -9223372036854775808 ≤ seconds ∧ seconds < 9223372036854775808

instance (seconds : Int) : Decidable (IsExpiry seconds) :=
  inferInstanceAs (Decidable (_ ∧ _))

/-- The number that bytes spell, one more byte at the end included. -/
theorem foldl_bytes_append (bytes : List UInt8) (last : UInt8) :
    (bytes ++ [last]).foldl (fun n b => 256 * n + b.toNat) 0 =
      256 * bytes.foldl (fun n b => 256 * n + b.toNat) 0 + last.toNat := by
  rw [List.foldl_append, List.foldl_cons, List.foldl_nil]

/-- As many bytes spell a number below the power of their count. -/
theorem foldl_bytes_lt (bytes : List UInt8) :
    bytes.foldl (fun n b => 256 * n + b.toNat) 0 < Nat.pow 256 bytes.length := by
  induction bytes using List.reverseRecOn with
  | nil => simp
  | append_singleton init last ih =>
    have hlast := last.toNat_lt
    rw [foldl_bytes_append, List.length_append, List.length_singleton]
    simp only [Nat.pow_eq, Nat.pow_succ] at ih ⊢
    omega

/-- Bytes are those of the number that they spell. -/
theorem bytes_foldl (bytes : List UInt8) :
    ((List.range bytes.length).map fun i => UInt8.ofNat
      (bytes.foldl (fun n b => 256 * n + b.toNat) 0 / Nat.pow 256 (bytes.length - 1 - i))) =
        bytes := by
  induction bytes using List.reverseRecOn with
  | nil => rfl
  | append_singleton init last ih =>
    have hlast := last.toNat_lt
    -- The last byte is what a division by 256 loses; the others spell the quotient.
    have hquotient (i : Nat) (hi : i < init.length) :
        (256 * init.foldl (fun n b => 256 * n + b.toNat) 0 + last.toNat) /
            Nat.pow 256 (init.length - i) =
          init.foldl (fun n b => 256 * n + b.toNat) 0 / Nat.pow 256 (init.length - 1 - i) := by
      have hstep : init.length - i = init.length - 1 - i + 1 := by omega
      have hdiv : (256 * init.foldl (fun n b => 256 * n + b.toNat) 0 + last.toNat) / 256 =
          init.foldl (fun n b => 256 * n + b.toNat) 0 := by omega
      rw [hstep, Nat.pow_eq, Nat.pow_succ', ← Nat.div_div_eq_div_mul, hdiv, Nat.pow_eq]
    have hbyte : UInt8.ofNat (256 * init.foldl (fun n b => 256 * n + b.toNat) 0 + last.toNat) =
        last := UInt8.toNat_inj.mp (by rw [UInt8.toNat_ofNat']; omega)
    rw [foldl_bytes_append, List.length_append, List.length_singleton, List.range_succ,
      List.map_append, List.map_singleton, Nat.add_sub_cancel, Nat.sub_self, Nat.pow_eq,
      Nat.pow_zero, Nat.div_one, hbyte]
    refine congrArg (· ++ [last]) (Eq.trans (List.map_congr_left fun i hi => ?_) ih)
    rw [hquotient i (List.mem_range.mp hi)]

/-- Eight bytes spell an expiry. -/
theorem isExpiry_ofExpiryBytes {bytes : List UInt8} (h : bytes.length = 8) :
    IsExpiry (ofExpiryBytes bytes) := by
  have hlt := foldl_bytes_lt bytes
  rw [h] at hlt
  simp only [Nat.pow_eq, Nat.reducePow] at hlt
  simp only [IsExpiry, ofExpiryBytes]
  split <;> omega

/-- Eight bytes are those of the expiry that they spell. -/
theorem expiryBytes_ofExpiryBytes {bytes : List UInt8} (h : bytes.length = 8) :
    expiryBytes (ofExpiryBytes bytes) = bytes := by
  have hlt := foldl_bytes_lt bytes
  rw [h] at hlt
  simp only [Nat.pow_eq, Nat.reducePow] at hlt
  have hnumber : (ofExpiryBytes bytes % 18446744073709551616).toNat =
      bytes.foldl (fun n b => 256 * n + b.toNat) 0 := by
    simp only [ofExpiryBytes]
    split <;> omega
  have hbytes := bytes_foldl bytes
  rw [h] at hbytes
  rw [expiryBytes, hnumber]
  exact hbytes

/-- Bytes that are no envelope: they are too short to announce a header, of another version, or
too short for the header that they announce, a nonce, a tag and an expiry. -/
def Malformed (bytes : List UInt8) : Prop :=
  bytes.length < 2 ∨ bytes.head? ≠ some version ∨
    bytes.length < 2 + (bytes.getD 1 0).toNat + minimumRest

/-- Parts are what bytes come apart into: put together they are the bytes, and each is as long as
the format says. -/
structure Parts.Joins (parts : Parts) (bytes : List UInt8) : Prop where
  joined : parts.header ++ parts.nonce ++ parts.hidden = bytes
  header_eq : parts.header = version :: UInt8.ofNat parts.keyId.length :: parts.keyId
  length_keyId : parts.keyId.length < 256
  length_nonce : parts.nonce.length = 12
  length_hidden : 24 ≤ parts.hidden.length

/-- Bytes do not come apart just when they are malformed. -/
theorem split?_eq_none_iff {bytes : List UInt8} : split? bytes = none ↔ Malformed bytes := by
  match bytes with
  | [] => simp [split?, Malformed]
  | [first] => simp [split?, Malformed]
  | first :: idLength :: rest =>
    simp only [split?, Malformed, List.head?_cons, List.getD_cons_succ, List.getD_cons_zero,
      List.length_cons]
    by_cases hversion : first = version
    · subst hversion
      by_cases hlength : 2 + idLength.toNat + minimumRest ≤ rest.length + 1 + 1
      · simp only [true_and, hlength, if_true, reduceCtorEq, ne_eq, not_true_eq_false, false_or,
          false_iff]
        omega
      · simp only [true_and, hlength, if_false, true_iff]
        omega
    · simp [hversion]

/-- What bytes come apart into, put together again, is the bytes. -/
theorem joins_of_split? {bytes : List UInt8} {parts : Parts} (h : split? bytes = some parts) :
    parts.Joins bytes := by
  match bytes with
  | [] => simp [split?] at h
  | [first] => simp [split?] at h
  | first :: idLength :: rest =>
    simp only [split?] at h
    split at h
    · rename_i hfits
      obtain ⟨rfl, hlength⟩ := hfits
      have hid := idLength.toNat_lt
      obtain rfl := Option.some.inj h
      simp only [minimumRest, List.length_cons] at hlength
      have hsize : 2 + idLength.toNat = idLength.toNat + 1 + 1 := by omega
      have htake : (version :: idLength :: rest).take (2 + idLength.toNat) =
          version :: idLength :: rest.take idLength.toNat := by
        rw [hsize, List.take_succ_cons, List.take_succ_cons]
      have hkeyId : (rest.take idLength.toNat).length = idLength.toNat := by
        rw [List.length_take]
        omega
      refine ⟨?_, ?_, ?_, ?_, ?_⟩
      · rw [List.append_assoc, List.take_append_drop, List.take_append_drop]
      · simp only [htake, List.drop_succ_cons, List.drop_zero, hkeyId, UInt8.ofNat_toNat]
      · simp only [htake, List.drop_succ_cons, List.drop_zero, hkeyId]
        exact hid
      · simp only [List.length_take, List.length_drop, List.length_cons]
        omega
      · simp only [List.length_drop, List.length_cons]
        omega
    · simp at h

end OpaqueTokens.Envelope
