import OpaqueTokens.Cli.Arguments
import OpaqueTokens.Codec
import OpaqueTokens.Pkce

/-!
# Minting codes by hand

A code is minted for testing without a service: with the issuer and the lifetime of codes of a
configuration, so that a service of that configuration redeems it.
-/

namespace OpaqueTokens.Cli

open Time (Instant)

/-- Why a code cannot be minted. -/
inductive MintError where
  | challenge (error : PkceError)
  | claims (error : ClaimsError)
  | codec (error : CodecError)
  deriving DecidableEq, Repr

def MintError.message : MintError → String
  | .challenge error => error.message
  | .claims error => error.message
  | .codec error => error.message

namespace MintRequest

/-- The stored form of the challenge that a code is asked for with. -/
def storedChallenge (request : MintRequest) : Except PkceError (Option String) :=
  match request.codeChallenge with
  | none => .ok none
  | some value =>
    (CodeChallenge.ofRequest value request.codeChallengeMethod).map fun challenge =>
      some challenge.stored

/-- A builder of the claims that are asked for. -/
def builder (request : MintRequest) (config : Config) : ClaimsBuilder where
  clientId := ⟨request.clientId⟩
  issuer := config.issuer
  subject := request.subject
  scope := Scope.ofText request.scope
  lifetime := some config.lifetimes.authorizationCode
  redirectUri := request.redirectUri

/-- The claims of the code that is asked for. -/
def claims (request : MintRequest) (config : Config) (now : Instant) (fresh : TokenId) :
    Except MintError CodeClaims := do
  let codeChallenge ← request.storedChallenge.mapError .challenge
  let common ← ((request.builder config).build now fresh).mapError .claims
  pure { common, codeChallenge }

end MintRequest

/-- Mints the code that is asked for. -/
def mintCode (codec : Codec) (config : Config) (request : MintRequest) (now : Instant)
    (fresh : TokenId) (nonce : Nonce) : Except MintError String := do
  let claims ← request.claims config now fresh
  (codec.issue nonce (.code claims)).mapError .codec

end OpaqueTokens.Cli
