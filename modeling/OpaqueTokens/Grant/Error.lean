import OpaqueTokens.Claims.Error
import OpaqueTokens.Pkce

/-!
# Errors of the token endpoint

Whatever is wrong with a grant is one error to the client, so that nobody learns which check a
stolen token failed. The reason is kept beside the message for those who run the service.
-/

namespace OpaqueTokens

/-- Why a grant is refused. -/
inductive Refusal where
  | wrongType
  | unreadable
  | expired
  | clientMismatch
  | redirectMismatch
  | replayed
  | revoked
  deriving DecidableEq, Repr

namespace Refusal

/-- Every reason. -/
def all : List Refusal :=
  [.wrongType, .unreadable, .expired, .clientMismatch, .redirectMismatch, .replayed, .revoked]

/-- The name of a reason in logs. -/
def name : Refusal → String
  | .wrongType => "wrong_type"
  | .unreadable => "unreadable"
  | .expired => "expired"
  | .clientMismatch => "client_mismatch"
  | .redirectMismatch => "redirect_mismatch"
  | .replayed => "replayed"
  | .revoked => "revoked"

/-- The reason of a name. -/
def ofName? (text : String) : Option Refusal :=
  all.find? fun reason => reason.name = text

end Refusal

/-- The kinds of causes that errors are counted by. -/
inductive ErrorCategory where
  | grant
  | authorization
  | validation
  | proofOfPossession
  | infrastructure
  | internal
  deriving DecidableEq, Repr

def ErrorCategory.name : ErrorCategory → String
  | .grant => "grant"
  | .authorization => "authorization"
  | .validation => "validation"
  | .proofOfPossession => "proof_of_possession"
  | .infrastructure => "infrastructure"
  | .internal => "internal"

/-- Why the token endpoint refuses a request. -/
inductive GrantError where
  | invalidGrant (reason : Refusal)
  | invalidScope (detail : String)
  | invalidMessage (detail : String)
  | messageAuthentication
  | storage (detail : String)
  | internal (detail : String)
  deriving DecidableEq, Repr

namespace GrantError

/-- What is told about an error. The reason of a refusal is not part of it. -/
def message : GrantError → String
  | .invalidGrant _ => "Invalid grant"
  | .invalidScope detail => "Invalid scope: " ++ detail
  | .invalidMessage detail => "Invalid request: " ++ detail
  | .messageAuthentication => "Message authentication failed"
  | .storage detail => "Storage error: " ++ detail
  | .internal detail => "Internal error: " ++ detail

/-- The reason of a refusal. -/
def reason? : GrantError → Option Refusal
  | .invalidGrant reason => some reason
  | _ => none

/-- Whether the grant was refused. -/
def isInvalidGrant : GrantError → Bool
  | .invalidGrant _ => true
  | _ => false

/-- Whether the service is at fault. -/
def isServerError : GrantError → Bool
  | .storage _ | .internal _ => true
  | .invalidGrant _ | .invalidScope _ | .invalidMessage _ | .messageAuthentication => false

/-- Whether the client is at fault. -/
def isClientError (error : GrantError) : Bool :=
  !error.isServerError

/-- The category of an error. -/
def category : GrantError → ErrorCategory
  | .invalidGrant _ => .grant
  | .invalidScope _ => .authorization
  | .invalidMessage _ => .validation
  | .messageAuthentication => .proofOfPossession
  | .storage _ => .infrastructure
  | .internal _ => .internal

/-- The error code of the protocol. -/
def oauthCode : GrantError → String
  | .invalidGrant _ | .messageAuthentication => "invalid_grant"
  | .invalidScope _ => "invalid_scope"
  | .invalidMessage _ => "invalid_request"
  | .storage _ | .internal _ => "server_error"

/-- A refused challenge or verifier, as an error of the endpoint. -/
def ofPkce (error : PkceError) : GrantError :=
  if error.isVerification then .messageAuthentication else .invalidMessage error.message

/-- Claims that cannot be built, as an error of the endpoint: the service asked for them. -/
def ofClaims (error : ClaimsError) : GrantError :=
  .internal error.message

/-- A token that cannot be parsed, as an error of the endpoint. -/
def ofCodec : CodecError → GrantError
  | .parse (.typeMismatch _ _) => .invalidGrant .wrongType
  | .sealing .expired => .invalidGrant .expired
  | _ => .invalidGrant .unreadable

end GrantError

end OpaqueTokens
