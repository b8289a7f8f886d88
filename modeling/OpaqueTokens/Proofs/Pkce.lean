import OpaqueTokens.Pkce
import OpaqueTokens.Proofs.Outcome

/-!
# The verifiers of a challenge

The stored form of a challenge leads back to the challenge and to no other one, whatever its value
begins with, since the name of no method begins the name of another. Bytes are compared to the last
one, so a verifier is accepted for exactly the challenges that were made from it. A policy adds that
there is a challenge and that it is not a plain one, and is looked at before the verifier is.
-/

namespace OpaqueTokens

open Text (utf8)

/-- A text is read as a method just when it is the name of the method. -/
theorem ChallengeMethod.ofName_eq_ok_iff {text : String} {method : ChallengeMethod} :
    ofName text = .ok method ↔ text = method.name := by
  unfold ofName
  split
  · cases method <;> simp [name]
  · cases method <;> simp [name]
  · rename_i hs256 hplain
    cases method with
    | s256 => exact ⟨nofun, fun h => (hs256 h).elim⟩
    | plain => exact ⟨nofun, fun h => (hplain h).elim⟩

/-- There are two names of methods. -/
theorem ChallengeMethod.exists_name_eq_iff {text : String} :
    (∃ method : ChallengeMethod, text = method.name) ↔ text = "S256" ∨ text = "plain" := by
  constructor
  · rintro ⟨method, rfl⟩
    cases method with
    | s256 => exact .inl rfl
    | plain => exact .inr rfl
  · rintro (rfl | rfl)
    · exact ⟨.s256, rfl⟩
    · exact ⟨.plain, rfl⟩

/-- Just the name of the S256 method stands for it. -/
theorem ChallengeMethod.getD_eq_s256_name_iff {name : Option String} :
    name.getD plain.name = s256.name ↔ name = some "S256" := by
  cases name <;> simp [ChallengeMethod.name]

/-- The plain method is also the one that is meant where none is named. -/
theorem ChallengeMethod.getD_eq_plain_name_iff {name : Option String} :
    name.getD plain.name = plain.name ↔ name = none ∨ name = some "plain" := by
  cases name <;> simp [ChallengeMethod.name]

namespace CodeChallenge

/-- A request is read as a challenge just when it gives the value of the challenge, which is not
empty, and the name of its method, which may be left out for a plain challenge. -/
theorem ofRequest_eq_ok_iff {value : String} {name : Option String} {challenge : CodeChallenge} :
    ofRequest value name = .ok challenge ↔
      value ≠ "" ∧ challenge.value = value ∧
        name.getD ChallengeMethod.plain.name = challenge.method.name := by
  obtain ⟨method, other⟩ := challenge
  unfold ofRequest
  rw [Outcome.ite_error_eq_ok_iff]
  refine and_congr_right fun _ => ?_
  cases name with
  | none => cases method <;> simp [ChallengeMethod.name, eq_comm]
  | some name =>
    simp only [Outcome.map_eq_ok_iff, ChallengeMethod.ofName_eq_ok_iff, CodeChallenge.mk.injEq,
      Option.getD_some]
    constructor
    · rintro ⟨_, hname, rfl, rfl⟩
      exact ⟨rfl, hname⟩
    · rintro ⟨rfl, hname⟩
      exact ⟨method, hname, rfl, rfl⟩

/-- A text goes on after a name just when it is the name and what follows. -/
theorem after?_eq_some_iff {name text value : String} :
    after? name text = some value ↔ text = name ++ value := by
  unfold after?
  split
  · rename_i hprefix
    obtain ⟨rest, hrest⟩ := List.isPrefixOf_iff_prefix.mp hprefix
    have htext : text = name ++ String.ofList rest :=
      String.toList_inj.mp (by rw [String.toList_append, String.toList_ofList, hrest])
    rw [← hrest, List.drop_left, htext, String.append_right_inj, Option.some.injEq]
  · rename_i hprefix
    refine ⟨nofun, fun h => absurd (List.isPrefixOf_iff_prefix.mpr ?_) hprefix⟩
    rw [h, String.toList_append]
    exact List.prefix_append _ _

/-- A text that begins with the name of one method does not begin with the name of the other. -/
theorem s256_append_ne_plain_append (a b : String) :
    ChallengeMethod.s256.name ++ a ≠ ChallengeMethod.plain.name ++ b := by
  intro h
  have hchars := congrArg String.toList h
  simp [ChallengeMethod.name, String.toList_append] at hchars

/-- Just the stored form of a challenge is read as the challenge. -/
theorem ofStored_eq_ok_iff {text : String} {challenge : CodeChallenge} :
    ofStored text = .ok challenge ↔ text = challenge.stored := by
  obtain ⟨method, value⟩ := challenge
  unfold ofStored
  split
  · rename_i found hfound
    obtain rfl := after?_eq_some_iff.mp hfound
    cases method with
    | s256 => simp [stored]
    | plain => simp [stored, s256_append_ne_plain_append]
  · rename_i hnone
    have hother : text ≠ ChallengeMethod.s256.name ++ value := fun h => by
      simp [after?_eq_some_iff.mpr h] at hnone
    split
    · rename_i found hfound
      obtain rfl := after?_eq_some_iff.mp hfound
      cases method with
      | s256 => simp [stored, hother]
      | plain => simp [stored]
    · rename_i hneither
      have hplain : text ≠ ChallengeMethod.plain.name ++ value := fun h => by
        simp [after?_eq_some_iff.mpr h] at hneither
      cases method <;> simp [stored, hother, hplain]

/-- The stored form of a challenge is read back. -/
theorem ofStored_stored (challenge : CodeChallenge) : ofStored challenge.stored = .ok challenge :=
  ofStored_eq_ok_iff.mpr rfl

/-- What is not the stored form of a challenge is refused for its beginning. -/
theorem ofStored_eq_error_iff {text : String} {error : PkceError} :
    ofStored text = .error error ↔
      (∀ challenge : CodeChallenge, text ≠ challenge.stored) ∧
        error = .unsupportedMethod "unrecognised challenge tag" := by
  constructor
  · intro h
    refine ⟨fun challenge htext => by simp [ofStored_eq_ok_iff.mpr htext] at h, ?_⟩
    simp only [ofStored] at h
    split at h
    · cases h
    · split at h
      · cases h
      · exact (Except.error.inj h).symm
  · rintro ⟨hnone, rfl⟩
    have hother (method : ChallengeMethod) : after? method.name text = none :=
      Option.eq_none_iff_forall_ne_some.mpr fun value hvalue =>
        hnone ⟨method, value⟩ (after?_eq_some_iff.mp hvalue)
    rw [ofStored, hother, hother]

/-- The differences of bytes, gathered over all pairs, vanish just when no pair differs. -/
theorem foldl_xor_eq_zero_iff {pairs : List (UInt8 × UInt8)} {acc : UInt8} :
    pairs.foldl (fun acc p => acc ||| (p.1 ^^^ p.2)) acc = 0 ↔
      acc = 0 ∧ ∀ p ∈ pairs, p.1 = p.2 := by
  induction pairs generalizing acc with
  | nil => simp
  | cons pair rest ih =>
    rw [List.foldl_cons, ih, UInt8.or_eq_zero_iff, UInt8.xor_eq_zero_iff, List.forall_mem_cons,
      and_assoc]

/-- Bytes of one length are the same when no pair differs. -/
theorem eq_of_forall_mem_zip {a b : List UInt8} (hlength : a.length = b.length)
    (h : ∀ p ∈ a.zip b, p.1 = p.2) : a = b := by
  induction a generalizing b with
  | nil => exact (List.length_eq_zero_iff.mp hlength.symm).symm
  | cons byte rest ih =>
    obtain ⟨other, others, rfl⟩ := List.exists_cons_of_length_eq_add_one hlength.symm
    rw [List.zip_cons_cons, List.forall_mem_cons] at h
    obtain ⟨hbyte, hrest⟩ := h
    exact List.cons_eq_cons.mpr ⟨hbyte, ih (Nat.succ_inj.mp hlength) hrest⟩

/-- No pair of bytes differs from itself. -/
theorem eq_of_mem_zip_self {bytes : List UInt8} : ∀ p ∈ bytes.zip bytes, p.1 = p.2 := by
  induction bytes with
  | nil => nofun
  | cons byte rest ih => exact List.forall_mem_cons.mpr ⟨rfl, ih⟩

/-- The comparison that looks at all bytes tells bytes apart as equality does. -/
theorem sameBytes_iff {a b : List UInt8} : sameBytes a b = true ↔ a = b := by
  rw [sameBytes, Bool.and_eq_true, beq_iff_eq, beq_iff_eq, foldl_xor_eq_zero_iff]
  constructor
  · rintro ⟨hlength, -, hpairs⟩
    exact eq_of_forall_mem_zip hlength hpairs
  · rintro rfl
    exact ⟨rfl, rfl, eq_of_mem_zip_self⟩

/-- A verifier is accepted just when the challenge is what it comes to. -/
theorem verify_eq (challenge : CodeChallenge) (verifier : String) :
    challenge.verify verifier =
      if challenge.method.challengeOf verifier = challenge.value then .ok ()
      else .error .verificationFailed := by
  have hsame : sameBytes (utf8 (challenge.method.challengeOf verifier)) (utf8 challenge.value) =
      true ↔ challenge.method.challengeOf verifier = challenge.value :=
    sameBytes_iff.trans ⟨Text.utf8_injective, congrArg utf8⟩
  simp only [verify, hsame]

end CodeChallenge

namespace PkcePolicy

/-- A policy lets a verifier answer a challenge unless the challenge is plain and must not be. -/
def Allows (policy : PkcePolicy) (challenge : CodeChallenge) : Prop :=
  challenge.method = .plain → policy.allowPlain = true

instance (policy : PkcePolicy) (challenge : CodeChallenge) : Decidable (policy.Allows challenge) :=
  inferInstanceAs (Decidable (_ → _))

/-- What a policy answers to a stored challenge and a verifier. Only a challenge that it allows is
compared with a verifier. -/
inductive Answers (policy : PkcePolicy) :
    Option String → Option String → Except PkceError Unit → Prop where
  | required {verifier : Option String} (hforce : policy.force = true) :
    Answers policy none verifier (.error .challengeRequired)
  | unasked {verifier : Option String} (hforce : policy.force = false) :
    Answers policy none verifier (.ok ())
  | unknown {text : String} {verifier : Option String}
    (htext : ∀ challenge : CodeChallenge, text ≠ challenge.stored) :
    Answers policy (some text) verifier (.error (.unsupportedMethod "unrecognised challenge tag"))
  | disallowed {challenge : CodeChallenge} {verifier : Option String}
    (hallows : ¬policy.Allows challenge) :
    Answers policy (some challenge.stored) verifier (.error .plainMethodDisallowed)
  | missing {challenge : CodeChallenge} (hallows : policy.Allows challenge) :
    Answers policy (some challenge.stored) none (.error .verifierMissing)
  | mismatch {challenge : CodeChallenge} {verifier : String} (hallows : policy.Allows challenge)
    (hvalue : challenge.method.challengeOf verifier ≠ challenge.value) :
    Answers policy (some challenge.stored) (some verifier) (.error .verificationFailed)
  | accepted {challenge : CodeChallenge} {verifier : String} (hallows : policy.Allows challenge)
    (hvalue : challenge.method.challengeOf verifier = challenge.value) :
    Answers policy (some challenge.stored) (some verifier) (.ok ())

variable {policy : PkcePolicy} {challenge : CodeChallenge}

/-- A challenge that is not allowed is refused with any verifier. -/
theorem verify_of_not_allows (hallows : ¬policy.Allows challenge) (verifier : Option String) :
    policy.verify (some challenge.stored) verifier = .error .plainMethodDisallowed := by
  have hplain : challenge.method = .plain ∧ ¬policy.allowPlain := by simpa [Allows] using hallows
  simp only [verify, CodeChallenge.ofStored_stored, Outcome.ok_bind, if_pos hplain]

/-- A challenge that is allowed asks for a verifier and is compared with it. -/
theorem verify_of_allows (hallows : policy.Allows challenge) (verifier : Option String) :
    policy.verify (some challenge.stored) verifier =
      match verifier with
      | none => .error .verifierMissing
      | some verifier => challenge.verify verifier := by
  have hplain : ¬(challenge.method = .plain ∧ ¬policy.allowPlain) := by simpa [Allows] using hallows
  cases verifier <;>
    simp only [verify, CodeChallenge.ofStored_stored, Outcome.ok_bind, if_neg hplain]

/-- The verifiers that are accepted for a challenge are those that come to its value, if the policy
allows the challenge. -/
theorem verify_stored_eq_ok_iff {verifier : Option String} :
    policy.verify (some challenge.stored) verifier = .ok () ↔
      policy.Allows challenge ∧
        ∃ v, verifier = some v ∧ challenge.method.challengeOf v = challenge.value := by
  by_cases hallows : policy.Allows challenge
  · rw [verify_of_allows hallows]
    cases verifier with
    | none => simp
    | some v => simp [CodeChallenge.verify_eq, hallows]
  · simp [verify_of_not_allows hallows, hallows]

/-- A policy answers as it is said to. -/
theorem answers_verify (policy : PkcePolicy) (stored verifier : Option String) :
    policy.Answers stored verifier (policy.verify stored verifier) := by
  cases stored with
  | none =>
    rw [verify]
    split
    · rename_i hforce
      exact .required hforce
    · rename_i hforce
      exact .unasked (Bool.not_eq_true _ ▸ hforce)
  | some text =>
    cases hread : CodeChallenge.ofStored text with
    | error error =>
      obtain ⟨htext, rfl⟩ := CodeChallenge.ofStored_eq_error_iff.mp hread
      simp only [verify, hread, Outcome.error_bind]
      exact .unknown htext
    | ok challenge =>
      obtain rfl := CodeChallenge.ofStored_eq_ok_iff.mp hread
      by_cases hallows : policy.Allows challenge
      · rw [verify_of_allows hallows]
        cases verifier with
        | none => exact .missing hallows
        | some verifier =>
          dsimp only
          rw [CodeChallenge.verify_eq]
          split
          · rename_i hvalue
            exact .accepted hallows hvalue
          · rename_i hvalue
            exact .mismatch hallows hvalue
      · rw [verify_of_not_allows hallows]
        exact .disallowed hallows

/-- A policy gives the answer that it is said to give, and no other one. -/
theorem verify_eq_iff {stored verifier : Option String} {outcome : Except PkceError Unit} :
    policy.verify stored verifier = outcome ↔ policy.Answers stored verifier outcome := by
  constructor
  · rintro rfl
    exact answers_verify policy stored verifier
  · intro h
    cases h with
    | required hforce => simp [verify, hforce]
    | unasked hforce => simp [verify, hforce]
    | unknown htext =>
      simp only [verify, CodeChallenge.ofStored_eq_error_iff.mpr ⟨htext, rfl⟩, Outcome.error_bind]
    | disallowed hallows => exact verify_of_not_allows hallows _
    | missing hallows => exact verify_of_allows hallows none
    | mismatch hallows hvalue =>
      exact (verify_of_allows hallows _).trans ((CodeChallenge.verify_eq _ _).trans (if_neg hvalue))
    | accepted hallows hvalue =>
      exact (verify_of_allows hallows _).trans ((CodeChallenge.verify_eq _ _).trans (if_pos hvalue))

/-- A policy accepts a verifier for the stored forms of the challenges that are made from it, the
plain one only if it allows plain ones, and anything where there is no challenge and none is
needed. -/
theorem verify_eq_ok_iff {stored verifier : Option String} :
    policy.verify stored verifier = .ok () ↔
      (stored = none ∧ policy.force = false) ∨
        (∃ v, verifier = some v ∧ stored = some (CodeChallenge.s256 v).stored) ∨
        ∃ v, verifier = some v ∧ policy.allowPlain = true ∧
          stored = some (CodeChallenge.plain v).stored := by
  rw [verify_eq_iff]
  constructor
  · rintro (_ | hforce | _ | _ | _ | _ | @⟨⟨method, value⟩, verifier, hallows, hvalue⟩)
    · exact .inl ⟨rfl, hforce⟩
    · obtain rfl : method.challengeOf verifier = value := hvalue
      cases method with
      | s256 => exact .inr (.inl ⟨verifier, rfl, rfl⟩)
      | plain => exact .inr (.inr ⟨verifier, rfl, hallows rfl, rfl⟩)
  · rintro (⟨rfl, hforce⟩ | ⟨verifier, rfl, rfl⟩ | ⟨verifier, rfl, hplain, rfl⟩)
    · exact .unasked hforce
    · exact .accepted nofun rfl
    · exact .accepted (fun _ => hplain) rfl

/-- A verifier is accepted for the stored form of its S256 challenge, whatever the policy. -/
theorem verify_s256 (policy : PkcePolicy) (verifier : String) :
    policy.verify (some (CodeChallenge.s256 verifier).stored) (some verifier) = .ok () :=
  verify_eq_ok_iff.mpr (.inr (.inl ⟨verifier, rfl, rfl⟩))

/-- A code without a challenge needs no verifier, unless the policy asks for challenges. -/
theorem verify_none (hforce : policy.force = false) (verifier : Option String) :
    policy.verify none verifier = .ok () :=
  verify_eq_ok_iff.mpr (.inl ⟨rfl, hforce⟩)

/-- A policy accepts exactly the right verifier. Otherwise it answers for the first thing that is
wrong: no challenge where one is needed, no known method, a plain challenge that is not allowed, no
verifier, and only then a verifier that does not match, which is the one error that is not about the
form of the request. What is sealed in a code for a challenge is read as this challenge, whatever
its value. -/
theorem verifies_exactly (policy : PkcePolicy) (stored verifier : Option String) :
    (policy.verify stored verifier = .ok () ↔
      (stored = none ∧ policy.force = false) ∨
        (∃ v, verifier = some v ∧
          stored = some ("S256" ++ Text.Base64.encodeUrl (Crypto.Sha256.digest (utf8 v)))) ∨
        ∃ v, verifier = some v ∧ policy.allowPlain = true ∧ stored = some ("plain" ++ v)) ∧
    (∀ error, policy.verify stored verifier = .error error ↔
      policy.Answers stored verifier (.error error)) ∧
    (∀ error : PkceError, error.isInvalidMessage = true ↔ error ≠ .verificationFailed) ∧
    ∀ challenge : CodeChallenge, CodeChallenge.ofStored challenge.stored = .ok challenge := by
  refine ⟨verify_eq_ok_iff, fun error => verify_eq_iff, fun error => ?_,
    CodeChallenge.ofStored_stored⟩
  cases error <;> simp [PkceError.isInvalidMessage, PkceError.isVerification]

end PkcePolicy

end OpaqueTokens
