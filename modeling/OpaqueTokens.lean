import OpaqueTokens.Cache.Replay
import OpaqueTokens.Cache.Revocation
import OpaqueTokens.Claims.Basic
import OpaqueTokens.Claims.Builder
import OpaqueTokens.Claims.Derivation
import OpaqueTokens.Claims.Error
import OpaqueTokens.Claims.Report
import OpaqueTokens.Claims.Wire
import OpaqueTokens.Claims.WireReader
import OpaqueTokens.Cli.Arguments
import OpaqueTokens.Cli.Commands
import OpaqueTokens.Cli.Inspection
import OpaqueTokens.Cli.Minting
import OpaqueTokens.Codec
import OpaqueTokens.Config.Basic
import OpaqueTokens.Config.Document
import OpaqueTokens.Config.Entry
import OpaqueTokens.Crypto.Aead
import OpaqueTokens.Crypto.Aes256
import OpaqueTokens.Crypto.Gcm
import OpaqueTokens.Crypto.Sha256
import OpaqueTokens.Diagnostics
import OpaqueTokens.Grant.Error
import OpaqueTokens.Grant.Service
import OpaqueTokens.Grant.Stores
import OpaqueTokens.Grant.Validator
import OpaqueTokens.Identifier
import OpaqueTokens.Json.Double
import OpaqueTokens.Json.Lexeme
import OpaqueTokens.Json.Node
import OpaqueTokens.Json.Number
import OpaqueTokens.Json.Value
import OpaqueTokens.Json.Writer
import OpaqueTokens.Main
import OpaqueTokens.Pkce
import OpaqueTokens.Proofs.Cache.Lookup
import OpaqueTokens.Proofs.Cache.Replay
import OpaqueTokens.Proofs.Cache.ReplayHistory
import OpaqueTokens.Proofs.Cache.Revocation
import OpaqueTokens.Proofs.Cache.RevocationHistory
import OpaqueTokens.Proofs.Claims.Building
import OpaqueTokens.Proofs.Claims.Canonical
import OpaqueTokens.Proofs.Claims.Containment
import OpaqueTokens.Proofs.Claims.Decoding
import OpaqueTokens.Proofs.Claims.Derivation
import OpaqueTokens.Proofs.Claims.Lifetimes
import OpaqueTokens.Proofs.Claims.Nesting
import OpaqueTokens.Proofs.Claims.Reduction
import OpaqueTokens.Proofs.Claims.Rereading
import OpaqueTokens.Proofs.Claims.Slots
import OpaqueTokens.Proofs.Claims.Types
import OpaqueTokens.Proofs.Codec
import OpaqueTokens.Proofs.Config
import OpaqueTokens.Proofs.Crypto.Gcm
import OpaqueTokens.Proofs.Grant.Acceptance
import OpaqueTokens.Proofs.Grant.CodeLifetime
import OpaqueTokens.Proofs.Grant.Completeness
import OpaqueTokens.Proofs.Grant.DeepClaims
import OpaqueTokens.Proofs.Grant.Descent
import OpaqueTokens.Proofs.Grant.Effects
import OpaqueTokens.Proofs.Grant.Exchange
import OpaqueTokens.Proofs.Grant.Independence
import OpaqueTokens.Proofs.Grant.Minting
import OpaqueTokens.Proofs.Grant.Requirements
import OpaqueTokens.Proofs.Grant.Revocation
import OpaqueTokens.Proofs.Grant.RevokedCodes
import OpaqueTokens.Proofs.Grant.RevokedLineage
import OpaqueTokens.Proofs.Grant.Runs
import OpaqueTokens.Proofs.Grant.Sets
import OpaqueTokens.Proofs.Grant.SingleUse
import OpaqueTokens.Proofs.Grant.Validation
import OpaqueTokens.Proofs.Json.Documents
import OpaqueTokens.Proofs.Json.Doubles
import OpaqueTokens.Proofs.Json.Numbers
import OpaqueTokens.Proofs.Json.Scanning
import OpaqueTokens.Proofs.Json.Spelling
import OpaqueTokens.Proofs.Json.Strings
import OpaqueTokens.Proofs.Json.Values
import OpaqueTokens.Proofs.Outcome
import OpaqueTokens.Proofs.Pkce
import OpaqueTokens.Proofs.Reading
import OpaqueTokens.Proofs.Scope
import OpaqueTokens.Proofs.Seal.Envelope
import OpaqueTokens.Proofs.Seal.Opening
import OpaqueTokens.Proofs.Seal.Sealer
import OpaqueTokens.Proofs.Text.Base64
import OpaqueTokens.Proofs.Text.Utf8
import OpaqueTokens.Proofs.Text.Words
import OpaqueTokens.Proofs.Time.Arithmetic
import OpaqueTokens.Proofs.Time.Instant
import OpaqueTokens.Proofs.TypeSafety
import OpaqueTokens.Scope
import OpaqueTokens.Seal.Envelope
import OpaqueTokens.Seal.Error
import OpaqueTokens.Seal.Key
import OpaqueTokens.Seal.Sealer
import OpaqueTokens.Text.Base64
import OpaqueTokens.Text.Blank
import OpaqueTokens.Text.Hex
import OpaqueTokens.Text.Printable
import OpaqueTokens.Text.Quoted
import OpaqueTokens.Text.Utf8
import OpaqueTokens.Time.Instant
import OpaqueTokens.Time.Span
import OpaqueTokens.Time.SpanText
import OpaqueTokens.TokenType
import OpaqueTokens.Toml.Document
import OpaqueTokens.Toml.Lexeme
import OpaqueTokens.Toml.Scalar
import OpaqueTokens.Proofs.Seal.Key
import OpaqueTokens.Proofs.Scope.Recipes
import OpaqueTokens.Proofs.Seal.Rotation
import OpaqueTokens.Proofs.Grant.WorkingConfig
import OpaqueTokens.Proofs.Cli.Inspection
import OpaqueTokens.Proofs.Expiry
import OpaqueTokens.Proofs.Cli.Minting
