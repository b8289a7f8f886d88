import OpaqueTokens.Codec
import OpaqueTokens.Grant.Error
import OpaqueTokens.Proofs.Outcome

/-!
# Requirements in their order

What an endpoint asks of a request is a list of requirements, each with the error that answers a
request that does not meet it. The list decides an outcome if requests that meet all of it
succeed, and all others are answered for the first requirement that they do not meet.
-/

namespace OpaqueTokens

open Time (Instant)

/-- Something that is asked of a request, and the answer to a request that does not meet it. -/
structure Requirement where
  met : Prop
  refusal : GrantError

namespace Requirement

/-- An error answers for the first requirement of a list that is not met. -/
inductive FirstUnmet : List Requirement → GrantError → Prop where
  | here {requirement : Requirement} {rest : List Requirement} (h : ¬requirement.met) :
    FirstUnmet (requirement :: rest) requirement.refusal
  | later {requirement : Requirement} {rest : List Requirement} {error : GrantError}
    (h : requirement.met) (hrest : FirstUnmet rest error) : FirstUnmet (requirement :: rest) error

/-- An outcome is a success just when all requirements are met, and otherwise the answer to the
first one that is not. -/
structure Decides {α : Type} (requirements : List Requirement)
    (outcome : Except GrantError α) : Prop where
  ok_iff : (∃ a, outcome = .ok a) ↔ ∀ requirement ∈ requirements, requirement.met
  error_iff : ∀ error, outcome = .error error ↔ FirstUnmet requirements error

variable {α β : Type} {requirement : Requirement} {requirements rest : List Requirement}
  {error : GrantError}

/-- Of no requirements there is no first one that is not met. -/
theorem not_firstUnmet_nil : ¬FirstUnmet [] error := nofun

/-- The first requirement of a list is answered for, or it is met and a later one is. -/
theorem firstUnmet_cons_iff :
    FirstUnmet (requirement :: rest) error ↔
      (¬requirement.met ∧ requirement.refusal = error) ∨
        (requirement.met ∧ FirstUnmet rest error) := by
  constructor
  · intro h
    cases h with
    | here hunmet => exact .inl ⟨hunmet, rfl⟩
    | later hmet hrest => exact .inr ⟨hmet, hrest⟩
  · rintro (⟨hunmet, rfl⟩ | ⟨hmet, hrest⟩)
    · exact .here hunmet
    · exact .later hmet hrest

/-- The answer for the first requirement that is not met is the refusal of one that is not met. -/
theorem FirstUnmet.exists_unmet (h : FirstUnmet requirements error) :
    ∃ requirement ∈ requirements, ¬requirement.met ∧ requirement.refusal = error := by
  induction h with
  | here hunmet => exact ⟨_, List.mem_cons_self, hunmet, rfl⟩
  | later hmet hrest ih =>
    obtain ⟨requirement, hmem, hunmet⟩ := ih
    exact ⟨requirement, List.mem_cons_of_mem _ hmem, hunmet⟩

/-- The answer for the first requirement that is not met is the refusal of one of them. -/
theorem FirstUnmet.exists_mem (h : FirstUnmet requirements error) :
    ∃ requirement ∈ requirements, requirement.refusal = error := by
  obtain ⟨requirement, hmem, -, hrefusal⟩ := h.exists_unmet
  exact ⟨requirement, hmem, hrefusal⟩

/-- Nothing is asked of what succeeds anyway. -/
theorem decides_nil (a : α) : Decides [] (.ok a) where
  ok_iff := by simp
  error_iff := by simp [not_firstUnmet_nil]

/-- A requirement that is met leaves the decision to the others. -/
theorem Decides.cons_met {outcome : Except GrantError α} (h : Decides rest outcome)
    (hmet : requirement.met) : Decides (requirement :: rest) outcome where
  ok_iff := by simp [h.ok_iff, hmet]
  error_iff error := by simp [h.error_iff, firstUnmet_cons_iff, hmet]

/-- A requirement that is not met is answered, whatever else is asked. -/
theorem decides_cons_unmet (hunmet : ¬requirement.met) :
    Decides (requirement :: rest) (.error requirement.refusal : Except GrantError α) where
  ok_iff := by simp [hunmet]
  error_iff error := by simp [firstUnmet_cons_iff, hunmet]

/-- A check that refuses before anything else happens is the first requirement. -/
theorem Decides.guard {outcome : Except GrantError α} {c : Prop} [Decidable c]
    (hmet : requirement.met ↔ ¬c) (h : ¬c → Decides rest outcome) :
    Decides (requirement :: rest) (if c then .error requirement.refusal else outcome) := by
  by_cases hc : c
  · rw [if_pos hc]
    exact decides_cons_unmet fun h => hmet.mp h hc
  · rw [if_neg hc]
    exact (h hc).cons_met (hmet.mpr hc)

/-- A change to the result asks for nothing. -/
theorem decides_map_iff {outcome : Except GrantError α} (f : α → β) :
    Decides requirements (outcome.map f) ↔ Decides requirements outcome := by
  have hok : (∃ b, outcome.map f = .ok b) ↔ ∃ a, outcome = .ok a := by cases outcome <;> simp
  have herror (error : GrantError) : outcome.map f = .error error ↔ outcome = .error error := by
    cases outcome <;> simp
  constructor
  · intro h
    exact ⟨hok.symm.trans h.ok_iff, fun error => (herror error).symm.trans (h.error_iff error)⟩
  · intro h
    exact ⟨hok.trans h.ok_iff, fun error => (herror error).trans (h.error_iff error)⟩

/-- Two steps ask for what the first one asks, and then for what the second one asks. -/
theorem Decides.bind {outcome : Except GrantError α} {next : α → Except GrantError β}
    (h : Decides requirements outcome) (hnext : ∀ a, outcome = .ok a → Decides rest (next a)) :
    Decides (requirements ++ rest) (outcome.bind next) := by
  induction requirements with
  | nil =>
    obtain ⟨a, rfl⟩ := h.ok_iff.mpr (by simp)
    exact hnext a rfl
  | cons requirement others ih =>
    by_cases hmet : requirement.met
    · have hothers : Decides others outcome :=
        ⟨by simpa [hmet] using h.ok_iff, by simpa [firstUnmet_cons_iff, hmet] using h.error_iff⟩
      exact (ih hothers).cons_met hmet
    · have herror : outcome = .error requirement.refusal := (h.error_iff _).mpr (.here hmet)
      rw [herror]
      exact decides_cons_unmet hmet

/-- A second step that always succeeds asks for nothing. -/
theorem Decides.bind_ok {outcome : Except GrantError α} {next : α → Except GrantError β}
    (h : Decides requirements outcome)
    (hnext : ∀ a, outcome = .ok a → ∃ b, next a = .ok b) :
    Decides requirements (outcome.bind next) := by
  rw [← List.append_nil requirements]
  refine h.bind fun a ha => ?_
  obtain ⟨b, hb⟩ := hnext a ha
  rw [hb]
  exact decides_nil b

/-- A requirement that is asked in one case only. -/
def when (c : Prop) (requirement : Requirement) : Requirement :=
  ⟨c → requirement.met, requirement.refusal⟩

/-- All that is done in one case only is asked for in this case only. -/
theorem Decides.when {outcome : Except GrantError α} {c : Prop} [Decidable c]
    (h : c → Decides requirements outcome) (a : α) :
    Decides (requirements.map (when c)) (if c then outcome else .ok a) := by
  by_cases hc : c
  · have hsame : Requirement.when c = id := funext fun requirement => by
      simp [Requirement.when, hc]
    rw [if_pos hc, hsame, List.map_id]
    exact h hc
  · rw [if_neg hc]
    clear h
    induction requirements with
    | nil => exact decides_nil a
    | cons requirement rest ih => exact ih.cons_met fun h => absurd h hc

/-- What is done in one case only is asked for in this case only. -/
theorem Decides.ite {outcome : Except GrantError α} {c met : Prop} [Decidable c]
    {refusal : GrantError} (h : c → Decides [⟨met, refusal⟩] outcome) (a : α) :
    Decides [⟨c → met, refusal⟩] (if c then outcome else .ok a) :=
  Decides.when h a

end Requirement

namespace Codec

open Requirement

/-- A token must unseal. One that has expired is told apart from all others. -/
def unseals (codec : Codec) (clock : Instant) (token : String) : Requirement where
  met := ∃ payload, codec.sealer.unsealPayload clock token = .ok payload
  refusal :=
    match codec.sealer.unsealPayload clock token with
    | .error .expired => .invalidGrant .expired
    | _ => .invalidGrant .unreadable

/-- What was sealed must be claims of a type. Claims of another type are told apart. -/
def decodes (codec : Codec) (clock : Instant) (token : String) (type : TokenType) :
    Requirement where
  met := ∃ claims, codec.parse clock token type = .ok claims
  refusal :=
    match codec.parse clock token type with
    | .error (.parse (.typeMismatch _ _)) => .invalidGrant .wrongType
    | _ => .invalidGrant .unreadable

/-- A token must unseal and decode, and then its claims must meet requirements. -/
def requirements (codec : Codec) (clock : Instant) (token : String) (type : TokenType)
    (ofClaims : TokenClaims → List Requirement) : List Requirement :=
  [codec.unseals clock token, codec.decodes clock token type] ++
    match codec.parse clock token type with
    | .ok claims => ofClaims claims
    | .error _ => []

/-- A token that is parsed meets all that is asked of it if its claims meet what is asked of
them. -/
theorem requirements_met {codec : Codec} {clock : Instant} {token : String} {type : TokenType}
    {ofClaims : TokenClaims → List Requirement} {claims : TokenClaims}
    (hparse : codec.parse clock token type = .ok claims)
    (h : ∀ requirement ∈ ofClaims claims, requirement.met) :
    ∀ requirement ∈ codec.requirements clock token type ofClaims, requirement.met := by
  have hunseals : (codec.unseals clock token).met := by
    rw [parse] at hparse
    cases hunseal : codec.sealer.unsealPayload clock token with
    | error error => simp [hunseal] at hparse
    | ok payload => exact ⟨payload, hunseal⟩
  simp only [requirements, hparse, List.cons_append, List.nil_append, List.forall_mem_cons]
  exact ⟨hunseals, ⟨claims, hparse⟩, h⟩

/-- Parsing asks that a token unseals and decodes. -/
theorem decides_parse (codec : Codec) (clock : Instant) (token : String) (type : TokenType) :
    Decides [codec.unseals clock token, codec.decodes clock token type]
      ((codec.parse clock token type).mapError .ofCodec) := by
  cases hunseal : codec.sealer.unsealPayload clock token with
  | error error =>
    have hunmet : ¬(codec.unseals clock token).met := by simp [unseals, hunseal]
    have hrefusal : GrantError.ofCodec (.sealing error) = (codec.unseals clock token).refusal := by
      cases error <;> simp [unseals, hunseal, GrantError.ofCodec]
    simp only [parse, hunseal, Outcome.mapError_error, hrefusal]
    exact decides_cons_unmet hunmet
  | ok payload =>
    have hmet : (codec.unseals clock token).met := ⟨payload, hunseal⟩
    refine Decides.cons_met ?_ hmet
    cases hparse : codec.parse clock token type with
    | ok claims => exact (decides_nil claims).cons_met ⟨claims, hparse⟩
    | error error =>
      have hunmet : ¬(codec.decodes clock token type).met := by simp [decodes, hparse]
      have hrefusal : GrantError.ofCodec error = (codec.decodes clock token type).refusal := by
        obtain ⟨parseError, -, rfl⟩ : ∃ parseError, Wire.decode payload type = .error parseError ∧
            .parse parseError = error := by
          simp only [parse, hunseal] at hparse
          cases hdecode : Wire.decode payload type with
          | ok claims => simp [hdecode] at hparse
          | error parseError => exact ⟨parseError, rfl, by simpa [hdecode] using hparse⟩
        cases parseError <;> simp [decodes, hparse, GrantError.ofCodec]
      rw [Outcome.mapError_error, hrefusal]
      exact decides_cons_unmet hunmet

/-- A step after parsing asks that a token unseals and decodes, and then for what the step asks of
the claims. -/
theorem decides_requirements {α : Type} {codec : Codec} {clock : Instant} {token : String}
    {type : TokenType} {ofClaims : TokenClaims → List Requirement}
    {next : TokenClaims → Except GrantError α}
    (h : ∀ claims, codec.parse clock token type = .ok claims →
      Decides (ofClaims claims) (next claims)) :
    Decides (codec.requirements clock token type ofClaims)
      (((codec.parse clock token type).mapError .ofCodec).bind next) := by
  refine (codec.decides_parse clock token type).bind fun claims hclaims => ?_
  have hparse := Outcome.mapError_eq_ok_iff.mp hclaims
  simpa only [hparse] using h claims hparse

end Codec

end OpaqueTokens
