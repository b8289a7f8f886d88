import OpaqueTokens.Claims.Report
import OpaqueTokens.Cli.Inspection
import OpaqueTokens.Cli.Minting
import OpaqueTokens.Config.Document
import OpaqueTokens.Json.Writer

/-!
# Commands

What each command prints and how it ends, as a function of the machine that it runs on: its
environment, its files, its clock and its random bytes.
-/

namespace OpaqueTokens.Cli

open Time (Instant)

/-- What a command sees of the machine that it runs on. -/
structure Host where
  environment : Environment
  /-- The text of a file, or why it cannot be read. -/
  fileText : String → Except String String
  clock : Instant
  /-- The key that is printed if one is asked for. -/
  freshKey : SealerKey
  freshId : TokenId
  nonce : Nonce

/-- What a command prints, each text on lines of its own, and the code that it ends with. -/
structure Outcome where
  exitCode : Nat := 0
  output : List String := []
  notices : List String := []
  deriving DecidableEq, Repr

/-- Why a command fails. -/
inductive CommandError where
  | key (name : String) (error : ConfigError)
  | keyId (error : ConfigError)
  | file (path : String) (problem : String)
  | config (error : ConfigError)
  | configFile (path : String) (error : ConfigError)
  | mint (error : MintError)
  | inspection (error : InspectionError)
  deriving DecidableEq, Repr

namespace CommandError

def message : CommandError → String
  | .key name error =>
    "Failed to load sealer key from " ++ name ++ ": " ++ error.message
  | .keyId error => error.message
  | .file path problem => "Failed to read " ++ path ++ ": " ++ problem
  | .config error => error.message
  | .configFile path error => "Invalid configuration in " ++ path ++ ": " ++ error.message
  | .mint error => error.message
  | .inspection error => error.message

/-- What is told before the error. -/
def warning? : CommandError → Option String
  | .inspection error => error.warning?
  | _ => none

/-- A failed command. -/
def outcome (error : CommandError) : Outcome where
  exitCode := 1
  notices := (error.warning?.map ("! " ++ ·)).toList ++ ["✗ " ++ error.message]

end CommandError

/-- A line with what it is about. -/
def labelled (label value : String) : String :=
  label ++ ": " ++ value

/-- A count of seconds. -/
def inSeconds (seconds : Nat) : String :=
  toString seconds ++ "s"

/-- A truth value in words. -/
def yesOrNo (value : Bool) : String :=
  if value then "true" else "false"

namespace Invocation

/-- The codec with the key of the environment. -/
def codec (invocation : Invocation) (cipher : Crypto.Aead) (host : Host) :
    Except CommandError Codec := do
  let key ← (SealerKey.ofEnvironment host.environment invocation.keyEnv).mapError
    (.key invocation.keyEnv)
  let ring ← (Keyring.new invocation.keyId key).mapError .keyId
  pure ⟨ring.sealer cipher⟩

end Invocation

namespace Host

/-- The text of a file. -/
def text (host : Host) (path : String) : Except CommandError String :=
  (host.fileText path).mapError (.file path)

/-- The configuration that a code is minted for. -/
def mintConfig (host : Host) (path : Option String) : Except CommandError Config :=
  match path with
  | none => .ok {}
  | some path => do
    let text ← host.text path
    (Config.load text).mapError .config

/-- Prints a fresh key. -/
def keygen (host : Host) (format : KeyFormat) : List String :=
  match format with
  | .hex => [host.freshKey.toHex]
  | .base64 => [host.freshKey.toBase64]

/-- Prints the claims of a token. -/
def inspection (host : Host) (codec : Codec) (token : String) (type : Option TokenType) :
    Except CommandError (List String) := do
  let claims ← (inspect codec host.clock token type).mapError .inspection
  pure [
    labelled "Type" claims.type.name,
    labelled "Expires in" (inSeconds (claims.common.expiresIn host.clock)),
    claims.report.toIndentedText]

/-- Prints a code. -/
def minting (host : Host) (codec : Codec) (request : MintRequest) :
    Except CommandError (List String) := do
  let config ← host.mintConfig request.config
  let code ← (mintCode codec config request host.clock host.freshId host.nonce).mapError .mint
  pure [
    code,
    "✓ Authorization code for " ++ request.clientId ++ " valid for " ++
      inSeconds config.lifetimes.authorizationCode.seconds]

/-- Checks a configuration file and prints what it sets. -/
def checkConfig (host : Host) (path : String) : Except CommandError (List String) := do
  let text ← host.text path
  let config ← (Config.load text).mapError (.configFile path)
  let lifetimes := config.lifetimes
  pure [
    "✓ " ++ path ++ " is valid",
    labelled "Issuer" config.issuer,
    labelled "Lifetimes" (
      "code " ++ inSeconds lifetimes.authorizationCode.seconds ++
      ", access " ++ inSeconds lifetimes.accessToken.seconds ++
      ", refresh " ++ inSeconds lifetimes.refreshToken.seconds),
    labelled "PKCE" (
      "force=" ++ yesOrNo config.pkce.force ++
      " allow_plain=" ++ yesOrNo config.pkce.allowPlain),
    labelled "Refresh tokens" (
      if config.refresh.requireOfflineAccess then "only with offline_access" else "always"),
    labelled "Revoke lineage on replay" (yesOrNo config.replay.revokeLineageOnReplay),
    labelled "Sealer key" (config.sealer.keyEnv ++ " (id " ++ config.sealer.keyId ++ ")")]

end Host

/-- What a command prints, or why it fails. -/
def Invocation.run (invocation : Invocation) (cipher : Crypto.Aead) (host : Host) :
    Except CommandError (List String) :=
  match invocation.command with
  | .keygen format => .ok (host.keygen format)
  | .inspect token type => do
    let codec ← invocation.codec cipher host
    host.inspection codec token type
  | .mintCode request => do
    let codec ← invocation.codec cipher host
    host.minting codec request
  | .checkConfig path => host.checkConfig path

/-- What is printed where help is asked for. -/
def usage : List String :=
  ["Mint and inspect sealed OAuth grant tokens",
   "",
   "Usage: sealgrant [--key-env NAME] [--key-id ID] [-v] COMMAND",
   "",
   "Commands:",
   "  keygen        Print a fresh 32-byte sealer key",
   "  inspect       Unseal a token and print its claims",
   "  mint-code     Issue an authorization code for testing",
   "  check-config  Parse and validate a TOML grants configuration"]

/-- The name and version that are printed where they are asked for. -/
def nameAndVersion : String := "sealgrant 0.1.0"

/-- How a command line ends that runs no command. -/
def Stop.outcome : Stop → Outcome
  | .misuse => { exitCode := 2, notices := usage }
  | .help => { output := usage }
  | .version => { output := [nameAndVersion] }

/-- Runs a command line. -/
def run (cipher : Crypto.Aead) (host : Host) (arguments : List String) : Outcome :=
  match Invocation.ofArguments host.environment arguments with
  | .error stop => stop.outcome
  | .ok invocation =>
    match invocation.run cipher host with
    | .ok output => { output }
    | .error error => error.outcome

end OpaqueTokens.Cli
