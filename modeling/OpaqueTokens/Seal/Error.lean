/-!
# Errors of the sealer

A sealed value can be refused for three reasons, none of which says more about it; sealing
itself can only fail inside the cipher.
-/

namespace OpaqueTokens

/-- Why a value cannot be sealed or unsealed. -/
inductive SealingError where
  | tampered
  | expired
  | malformed
  | encryption (detail : String)
  deriving DecidableEq, Repr

namespace SealingError

def message : SealingError → String
  | .tampered => "Sealed value failed authentication"
  | .expired => "Sealed value has expired"
  | .malformed => "Sealed value is malformed"
  | .encryption detail => "Encryption failed: " ++ detail

/-- Whether the error is about the value and not about the sealer. -/
def isRejection : SealingError → Bool
  | .encryption _ => false
  | .tampered | .expired | .malformed => true

end SealingError

end OpaqueTokens
