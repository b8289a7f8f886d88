import Mathlib.Logic.ExistsUnique
import OpaqueTokens.Claims.WireReader
import OpaqueTokens.Proofs.Outcome

/-!
# One payload, one type

The type of a payload is decided before anything else about it is looked at. A payload without a
type is refused for the same reason whichever type is asked for; any other payload has a single
type, and asking for another type is answered with the true one, whatever else is wrong with the
payload.
-/

namespace OpaqueTokens

/-- Reading refuses for one reason, which is not about the type, whichever type is asked for. -/
def RefusesAlike {ε : Type} (mismatch : TokenType → TokenType → ε)
    (read : TokenType → Except ε TokenClaims) : Prop :=
  ∃ error, (∀ expected found, error ≠ mismatch expected found) ∧
    ∀ expected, read expected = .error error

/-- What is read is of a type: every other type is answered with this one, and this type never
with another. -/
structure ReadsAs {ε : Type} (mismatch : TokenType → TokenType → ε)
    (read : TokenType → Except ε TokenClaims) (found : TokenType) : Prop where
  others : ∀ expected, expected ≠ found → read expected = .error (mismatch expected found)
  own : ∀ expected other, read found ≠ .error (mismatch expected other)
  type_eq : ∀ claims, read found = .ok claims → claims.type = found

/-- Reading for the three types is about one and the same thing: it is refused alike for all of
them, or it is of exactly one of them, and not both. -/
def Consistent {ε : Type} (mismatch : TokenType → TokenType → ε)
    (read : TokenType → Except ε TokenClaims) : Prop :=
  (RefusesAlike mismatch read ∧ ¬∃ found, ReadsAs mismatch read found) ∨
    (¬RefusesAlike mismatch read ∧ ∃! found, ReadsAs mismatch read found)

section Consistent

variable {ε ε' : Type} {mismatch : TokenType → TokenType → ε}
  {read : TokenType → Except ε TokenClaims}

/-- There is always another type to ask for. -/
theorem TokenType.exists_ne (type : TokenType) : ∃ other, other ≠ type := by
  cases type
  · exact ⟨.accessToken, by decide⟩
  · exact ⟨.refreshToken, by decide⟩
  · exact ⟨.accessToken, by decide⟩

/-- What has a type is not refused alike. -/
theorem ReadsAs.not_refusesAlike {found : TokenType} (h : ReadsAs mismatch read found) :
    ¬RefusesAlike mismatch read := by
  rintro ⟨error, hne, hrefused⟩
  obtain ⟨other, hother⟩ := TokenType.exists_ne found
  have heq := (hrefused other).symm.trans (h.others other hother)
  injection heq with heq
  exact hne other found heq

/-- Nothing has two types. -/
theorem ReadsAs.unique {found other : TokenType} (h : ReadsAs mismatch read found)
    (hother : ReadsAs mismatch read other) : other = found :=
  Decidable.byContradiction fun hne => hother.own other found (h.others other hne)

/-- One of the two cases is enough for consistency, as each excludes the other. -/
theorem consistent_of_cases
    (h : RefusesAlike mismatch read ∨ ∃ found, ReadsAs mismatch read found) :
    Consistent mismatch read := by
  rcases h with hrefused | ⟨found, hfound⟩
  · exact .inl ⟨hrefused, fun ⟨_, hfound⟩ => hfound.not_refusesAlike hrefused⟩
  · exact .inr ⟨hfound.not_refusesAlike, found, hfound, fun _ => hfound.unique⟩

/-- Renaming errors keeps what is read consistent. -/
theorem Consistent.mapError {rename : ε → ε'} (hrename : ∀ a b, rename a = rename b → a = b)
    (h : Consistent mismatch read) :
    Consistent (fun expected found => rename (mismatch expected found))
      (fun expected => (read expected).mapError rename) := by
  refine consistent_of_cases ?_
  rcases h with ⟨⟨error, hne, hrefused⟩, -⟩ | ⟨-, found, hfound, -⟩
  · exact .inl ⟨rename error, fun expected found heq => hne expected found (hrename _ _ heq),
      fun expected => by simp [hrefused]⟩
  · refine .inr ⟨found, ⟨fun expected hother => by simp [hfound.others expected hother], ?_,
      fun claims hclaims => hfound.type_eq claims (Outcome.mapError_eq_ok_iff.mp hclaims)⟩⟩
    intro expected other heq
    cases hread : read found with
    | ok claims => simp [hread] at heq
    | error error =>
      rw [hread, Outcome.mapError_error] at heq
      injection heq with heq
      exact hfound.own expected other (hread.trans (congrArg _ (hrename _ _ heq)))

/-- What is accepted as a type is of that type, and is answered with it to any other. -/
theorem Consistent.of_ok (h : Consistent mismatch read) {type : TokenType} {claims : TokenClaims}
    (hok : read type = .ok claims) : ReadsAs mismatch read type := by
  rcases h with ⟨⟨error, -, hrefused⟩, -⟩ | ⟨-, found, hfound, -⟩
  · simp [hrefused] at hok
  · have htype : type = found := Decidable.byContradiction fun hne => by
      simp [hfound.others type hne] at hok
    exact htype ▸ hfound

end Consistent

namespace Wire

open Json (Node)
open Time (Instant)

/-- The property of an outcome that is not an error about the type. -/
def Untyped {α : Type} (outcome : Except ParseError α) : Prop :=
  ∀ expected found, outcome ≠ .error (.typeMismatch expected found)

theorem untyped_ok {α : Type} (a : α) : Untyped (.ok a) := by
  intro expected found h
  cases h

theorem Untyped.bind {α β : Type} {x : Except ParseError α} {f : α → Except ParseError β}
    (hx : Untyped x) (hf : ∀ a, Untyped (f a)) : Untyped (x >>= f) := by
  cases x with
  | ok a => exact hf a
  | error error =>
    intro expected found h
    exact hx expected found (congrArg _ (Except.error.inj h))

theorem untyped_required {α : Type} (name : String) (value : Option α) :
    Untyped (required name value) := by
  cases value <;> intro expected found h <;> cases h

theorem untyped_instant (seconds : Int) : Untyped (instant seconds) := by
  rw [instant]
  split <;> intro expected found h <;> cases h

/-- A missing field or an instant out of range is no error about the type. -/
theorem untyped_builder (content : Content) : Untyped content.builder := by
  refine (untyped_required _ _).bind fun _ => (untyped_required _ _).bind fun _ =>
    (untyped_required _ _).bind fun _ => (untyped_required _ _).bind fun _ =>
    (untyped_required _ _).bind fun _ => (untyped_required _ _).bind fun _ =>
    ((untyped_required _ _).bind fun _ => untyped_instant _).bind fun _ =>
    ((untyped_required _ _).bind fun _ => untyped_instant _).bind fun _ =>
    ((untyped_required _ _).bind fun _ => untyped_instant _).bind fun _ => untyped_ok _

/-- Neither reading claims nor building them leads to an error about the type. -/
theorem untyped_claims (content : Content) : Untyped content.claims := by
  refine (untyped_builder content).bind fun builder => ?_
  cases builder.build Instant.last ⟨""⟩ with
  | ok claims => exact untyped_ok claims
  | error error => cases error <;> intro expected found h <;> cases h

/-- A document without a type is not refused for being of the wrong type. -/
theorem untyped_typeOf (fields : List (String × Node)) : Untyped (typeOf fields) := by
  rw [typeOf]
  split
  · intro expected found h
    cases h
  · intro expected found h
    cases h
  · split <;> intro expected found h <;> cases h

/-- A document that names a type is of that type. -/
theorem readsAs_of_typeOf {bytes : List UInt8} {fields : List (String × Node)} {found : TokenType}
    (hfields : (Node.ofBytes? bytes).bind documentFields? = some fields)
    (htype : typeOf fields = .ok found) : ReadsAs .typeMismatch (decode bytes) found where
  others expected hne := by
    simp [decode, hfields, htype, hne.symm]
  own := by
    simp only [decode, hfields, htype, Outcome.ok_bind, if_true]
    cases content? fields with
    | none => intro expected other h; cases h
    | some content => exact (untyped_claims content).bind fun _ => untyped_ok _
  type_eq claims hclaims := by
    simp only [decode, hfields, htype, Outcome.ok_bind, if_true] at hclaims
    cases hcontent : content? fields with
    | none => simp [hcontent] at hclaims
    | some content =>
      rw [hcontent] at hclaims
      obtain ⟨common, -, hof⟩ := Outcome.bind_eq_ok_iff.mp hclaims
      exact Except.ok.inj hof ▸ TokenClaims.type_ofType found common content.codeChallenge

/-- Every payload is of one type or refused alike for all three. -/
theorem decode_consistent (bytes : List UInt8) : Consistent .typeMismatch (decode bytes) := by
  refine consistent_of_cases ?_
  cases hfields : (Node.ofBytes? bytes).bind documentFields? with
  | none =>
    exact .inl ⟨.malformed .document, by simp, fun expected => by simp [decode, hfields]⟩
  | some fields =>
    cases htype : typeOf fields with
    | error error =>
      refine .inl ⟨error, fun expected found heq => ?_, fun expected => by
        simp [decode, hfields, htype]⟩
      exact untyped_typeOf fields expected found (htype.trans (congrArg _ heq))
    | ok found => exact .inr ⟨found, readsAs_of_typeOf hfields htype⟩

end Wire

end OpaqueTokens
