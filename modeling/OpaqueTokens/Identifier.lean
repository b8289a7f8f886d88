import OpaqueTokens.Text.Base64

/-!
# Identifiers

Clients and tokens are named by texts that no rule looks into. A fresh token identifier is the
unpadded URL-safe form of thirty-two random bytes, which the caller supplies.
-/

namespace OpaqueTokens

/-- The name of a client. -/
@[ext]
structure ClientId where
  text : String
  deriving DecidableEq, Repr

/-- The name of a token, and of the family of tokens that descend from one code. -/
@[ext]
structure TokenId where
  text : String
  deriving DecidableEq, Repr

/-- The identifier that random bytes make. -/
def TokenId.ofEntropy (bytes : List UInt8) : TokenId :=
  ⟨Text.Base64.encodeUrl bytes⟩

/-- Identifiers are ordered as their texts are, by code points. -/
instance : Ord ClientId := ⟨fun a b => compare a.text b.text⟩

instance : Ord TokenId := ⟨fun a b => compare a.text b.text⟩

end OpaqueTokens
