import OpaqueTokens.Claims.WireReader
import OpaqueTokens.Seal.Sealer

/-!
# Tokens

A token is the sealed form of claims, sealed until the claims expire. A token is always parsed
as one type, and refused if it is of another.
-/

namespace OpaqueTokens

open Time (Instant)

/-- What turns claims into tokens and back. -/
structure Codec where
  sealer : Sealer

namespace Codec

/-- The token of claims. -/
def issue (codec : Codec) (nonce : Nonce) (claims : TokenClaims) : Except CodecError String :=
  (codec.sealer.sealPayload (Wire.encode claims) claims.common.expiresAt.seconds nonce).mapError
    .sealing

/-- The claims of a token of the expected type. -/
def parse (codec : Codec) (clock : Instant) (token : String) (expected : TokenType) :
    Except CodecError TokenClaims :=
  match codec.sealer.unsealPayload clock token with
  | .error error => .error (.sealing error)
  | .ok payload => (Wire.decode payload expected).mapError .parse

/-- The error of a token that is of another type than expected. -/
def mismatch (expected : TokenType) (claims : TokenClaims) : CodecError :=
  .parse (.typeMismatch expected claims.type)

/-- The claims of a code. -/
def parseCode (codec : Codec) (clock : Instant) (token : String) :
    Except CodecError CodeClaims := do
  match ← codec.parse clock token .authorizationCode with
  | .code claims => pure claims
  | other => throw (mismatch .authorizationCode other)

/-- The claims of an access token. -/
def parseAccess (codec : Codec) (clock : Instant) (token : String) :
    Except CodecError AccessClaims := do
  match ← codec.parse clock token .accessToken with
  | .access claims => pure claims
  | other => throw (mismatch .accessToken other)

/-- The claims of a refresh token. -/
def parseRefresh (codec : Codec) (clock : Instant) (token : String) :
    Except CodecError RefreshClaims := do
  match ← codec.parse clock token .refreshToken with
  | .refresh claims => pure claims
  | other => throw (mismatch .refreshToken other)

end Codec

end OpaqueTokens
