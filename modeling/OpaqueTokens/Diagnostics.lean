import OpaqueTokens.Grant.Service
import OpaqueTokens.Text.Quoted
import OpaqueTokens.Time.SpanText

/-!
# What logs show of a service

The parts of a service are shown by their names and by what may be known of them: identifiers of
keys and the issuer. No key, no token and no state of a store is shown.
-/

namespace OpaqueTokens.Diagnostics

/-- A part with some of its fields; the dots stand for the ones that are not shown. -/
def shown (part : String) (fields : List (String × String)) (dots : Bool) : String :=
  let fields := fields.map (fun (name, value) => name ++ ": " ++ value) ++
    (if dots then [".."] else [])
  part ++ " \x7b " ++ ", ".intercalate fields ++ " \x7d"

/-- Texts in a list. -/
def shownList (texts : List String) : String :=
  "[" ++ ", ".intercalate (texts.map Text.Quoted.encode) ++ "]"

/-- The identifiers of a ring in their order, and which of them seals. -/
def ofKeyring (ring : Keyring) : String :=
  shown "AesGcmSealer"
    [("current_key_id", Text.Quoted.encode ring.currentId),
     ("key_ids", shownList ((ring.keys.map (·.1)).mergeSort (· ≤ ·)))]
    false

/-- Nothing of a codec. -/
def ofCodec (_ : Codec) : String :=
  shown "TokenCodec" [] true

/-- For how long a replayed code revokes its lineage, if it does. -/
def ofGrantValidator {σ : Type} (validator : GrantValidator σ) : String :=
  let value :=
    match validator.replayRevocation with
    | none => "None"
    | some span => "Some(" ++ span.toText ++ ")"
  shown "GrantValidator" [("replay_revocation", value)] true

/-- Nothing of a validator of access tokens. -/
def ofAccessValidator {σ : Type} (_ : AccessValidator σ) : String :=
  shown "AccessTokenValidator" [] true

/-- The issuer of a service. -/
def ofService {σ : Type} (service : Service σ) : String :=
  shown "GrantService" [("issuer", Text.Quoted.encode service.config.issuer)] true

end OpaqueTokens.Diagnostics
