import OpaqueTokens.Text.Utf8
import OpaqueTokens.Time.Span

/-!
# Configuration

Who issues the tokens, how long each kind lives, what is asked of clients, and where the sealing
key is found. A configuration is sound if every lifetime is at least a second, refresh tokens
live no shorter than access tokens, and the key identifier fits the envelope.
-/

namespace OpaqueTokens

open Time (Span)

/-- How long the kinds of tokens live. -/
structure Lifetimes where
  authorizationCode : Span := .fiveMinutes
  accessToken : Span := .tenMinutes
  refreshToken : Span := .twoHours
  deriving DecidableEq

/-- What is asked of the proof that a code is redeemed by the client that asked for it. -/
structure PkcePolicy where
  /-- Codes without a challenge are refused. -/
  force : Bool := false
  /-- Challenges that show the verifier itself are accepted. -/
  allowPlain : Bool := false
  deriving DecidableEq, Repr

/-- When a refresh token is issued. -/
structure RefreshPolicy where
  /-- Only for grants whose scope asks for offline access. -/
  requireOfflineAccess : Bool := true
  deriving DecidableEq, Repr

/-- What the second use of a code leads to. -/
structure ReplayPolicy where
  /-- All tokens that descend from the code are revoked. -/
  revokeLineageOnReplay : Bool := false
  deriving DecidableEq, Repr

/-- Where the sealing key is found, and the identifier that tokens name it by. -/
structure SealerSettings where
  keyEnv : String := "SEALGRANT_KEY"
  keyId : String := "default"
  deriving DecidableEq, Repr

/-- The configuration of a service. -/
structure Config where
  issuer : String := "https://idp.example.org"
  lifetimes : Lifetimes := {}
  pkce : PkcePolicy := {}
  refresh : RefreshPolicy := {}
  replay : ReplayPolicy := {}
  sealer : SealerSettings := {}
  deriving DecidableEq

/-- A value of the configuration that cannot be worked with. -/
inductive InvalidValue where
  | emptyIssuer
  | lifetimeTooShort (name : String)
  | refreshShorterThanAccess
  | emptyKeyId
  | keyIdTooLong (bytes : Nat)
  | sealerKeyIdLength (bytes : Nat)
  | duplicateKeyId (id : String)
  | keyEncoding
  | keyLength (bytes : Nat)
  | variableNotText (name : String)
  deriving DecidableEq, Repr

/-- The longest key identifier in bytes: its length is one byte of the envelope. -/
def maxKeyIdLength : Nat := 255

def InvalidValue.message : InvalidValue → String
  | .emptyIssuer => "issuer cannot be empty"
  | .lifetimeTooShort name => "lifetimes." ++ name ++ " must be at least one second"
  | .refreshShorterThanAccess =>
    "lifetimes.refresh_token must not be shorter than lifetimes.access_token"
  | .emptyKeyId => "sealer.key_id cannot be empty"
  | .keyIdTooLong bytes =>
    "sealer.key_id must be at most " ++ toString maxKeyIdLength ++ " bytes, got " ++ toString bytes
  | .sealerKeyIdLength bytes =>
    "sealer key id must be 1-" ++ toString maxKeyIdLength ++ " bytes, got " ++ toString bytes
  | .duplicateKeyId id => "duplicate sealer key id: " ++ id
  | .keyEncoding => "Invalid base64 key: neither hexadecimal nor padded base64"
  | .keyLength bytes => "Key must be 32 bytes, got " ++ toString bytes
  | .variableNotText name =>
    "Failed to read " ++ name ++ ": environment variable was not valid unicode"

/-- Why a configuration cannot be had. -/
inductive ConfigError where
  | invalidValue (problem : InvalidValue)
  | missing (name : String)
  | parse (detail : String)
  deriving DecidableEq, Repr

def ConfigError.message : ConfigError → String
  | .invalidValue problem => "Invalid configuration value: " ++ problem.message
  | .missing name => "Missing required configuration: " ++ name
  | .parse detail => "Failed to parse configuration: " ++ detail

namespace Config

/-- The lifetimes with their names, in the order in which they are checked. -/
def namedLifetimes (config : Config) : List (String × Span) :=
  [("authorization_code", config.lifetimes.authorizationCode),
   ("access_token", config.lifetimes.accessToken),
   ("refresh_token", config.lifetimes.refreshToken)]

/-- The first value that cannot be worked with. -/
def invalid? (config : Config) : Option InvalidValue :=
  if config.issuer = "" then some .emptyIssuer
  else
    match config.namedLifetimes.find? fun lifetime => lifetime.2.seconds == 0 with
    | some (name, _) => some (.lifetimeTooShort name)
    | none =>
      let keyIdLength := (Text.utf8 config.sealer.keyId).length
      if config.lifetimes.refreshToken < config.lifetimes.accessToken then
        some .refreshShorterThanAccess
      else if config.sealer.keyId = "" then some .emptyKeyId
      else if maxKeyIdLength < keyIdLength then some (.keyIdTooLong keyIdLength)
      else none

/-- Accepts a sound configuration. -/
def validate (config : Config) : Except ConfigError Unit :=
  match config.invalid? with
  | some problem => .error (.invalidValue problem)
  | none => .ok ()

end Config

end OpaqueTokens
