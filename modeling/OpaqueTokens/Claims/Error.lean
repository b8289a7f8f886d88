import OpaqueTokens.Claims.Builder
import OpaqueTokens.Seal.Error

/-!
# Errors of reading tokens

A payload is refused because it is of another type than asked for, because it lacks a claim, or
because it is malformed; a token is refused for one of these reasons or by its sealer.
-/

namespace OpaqueTokens

/-- What is malformed about a payload. -/
inductive Malformation where
  /-- The payload is no document with fields of the right kinds. -/
  | document
  | unknownType (name : String)
  | timestamp
  | claims (error : ClaimsError)
  | other (detail : String)
  deriving DecidableEq, Repr

def Malformation.message : Malformation → String
  | .document => "not a claims document"
  | .unknownType name => "unknown token type: " ++ name
  | .timestamp => "invalid timestamp: timestamp was not in range"
  | .claims error => error.message
  | .other detail => detail

/-- Why a payload cannot be read as claims. -/
inductive ParseError where
  | typeMismatch (expected found : TokenType)
  | missingField (name : String)
  | malformed (reason : Malformation)
  deriving DecidableEq, Repr

namespace ParseError

def message : ParseError → String
  | .typeMismatch expected found =>
    "Expected a " ++ expected.name ++ " but found a " ++ found.name
  | .missingField name => "Missing required claim: " ++ name
  | .malformed reason => "Malformed claims: " ++ reason.message

/-- A builder's error about claims that were read from a payload. -/
def ofClaims : ClaimsError → ParseError
  | .missingField name => .missingField name
  | .invalidLifetime => .malformed (.claims .invalidLifetime)

end ParseError

/-- Why a token cannot be issued or parsed. -/
inductive CodecError where
  | sealing (error : SealingError)
  | parse (error : ParseError)
  | encoding (detail : String)
  deriving DecidableEq, Repr

namespace CodecError

def message : CodecError → String
  | .sealing error => error.message
  | .parse error => error.message
  | .encoding detail => "Failed to encode claims: " ++ detail

/-- Whether the token is intact but of another type than asked for. -/
def isTypeMismatch : CodecError → Bool
  | .parse (.typeMismatch _ _) => true
  | _ => false

end CodecError

end OpaqueTokens
