import OpaqueTokens.Config.Basic
import OpaqueTokens.Config.Entry
import OpaqueTokens.Time.SpanText

/-!
# Configurations as documents

A configuration is read from a TOML file or a JSON value and shown as a JSON value. Whatever a
document leaves out keeps its default. A file is also checked to be sound, so that a service that
starts with it can work; a JSON value is taken as it is.
-/

namespace OpaqueTokens

open Entry (Surplus)
open Time (Span)

/-- Reads a lifetime as people write it. -/
def Entry.span? (entry : Entry) : Option Span :=
  entry.text?.bind Span.ofText?

namespace Lifetimes

/-- Reads the section of lifetimes. -/
def ofEntry? (surplus : Surplus) (entry : Entry) : Option Lifetimes := do
  let default : Lifetimes := {}
  let fields ← entry.section? surplus ["authorization_code", "access_token", "refresh_token"]
  pure {
    authorizationCode :=
      ← Entry.setting? fields "authorization_code" Entry.span? default.authorizationCode
    accessToken := ← Entry.setting? fields "access_token" Entry.span? default.accessToken
    refreshToken := ← Entry.setting? fields "refresh_token" Entry.span? default.refreshToken }

end Lifetimes

namespace PkcePolicy

/-- Reads the section about proof keys. -/
def ofEntry? (surplus : Surplus) (entry : Entry) : Option PkcePolicy := do
  let default : PkcePolicy := {}
  let fields ← entry.section? surplus ["force", "allow_plain"]
  pure {
    force := ← Entry.setting? fields "force" Entry.flag? default.force
    allowPlain := ← Entry.setting? fields "allow_plain" Entry.flag? default.allowPlain }

end PkcePolicy

namespace RefreshPolicy

/-- Reads the section about refresh tokens. -/
def ofEntry? (surplus : Surplus) (entry : Entry) : Option RefreshPolicy := do
  let default : RefreshPolicy := {}
  let fields ← entry.section? surplus ["require_offline_access"]
  pure {
    requireOfflineAccess := ← Entry.setting? fields "require_offline_access" Entry.flag?
      default.requireOfflineAccess }

end RefreshPolicy

namespace ReplayPolicy

/-- Reads the section about codes that are used again. -/
def ofEntry? (surplus : Surplus) (entry : Entry) : Option ReplayPolicy := do
  let default : ReplayPolicy := {}
  let fields ← entry.section? surplus ["revoke_lineage_on_replay"]
  pure {
    revokeLineageOnReplay := ← Entry.setting? fields "revoke_lineage_on_replay" Entry.flag?
      default.revokeLineageOnReplay }

end ReplayPolicy

namespace SealerSettings

/-- Reads the section about the sealing key. -/
def ofEntry? (surplus : Surplus) (entry : Entry) : Option SealerSettings := do
  let default : SealerSettings := {}
  let fields ← entry.section? surplus ["key_env", "key_id"]
  pure {
    keyEnv := ← Entry.setting? fields "key_env" Entry.text? default.keyEnv
    keyId := ← Entry.setting? fields "key_id" Entry.text? default.keyId }

end SealerSettings

namespace Config

/-- The names of the sections, in the order in which a list gives them. -/
def sectionNames : List String :=
  ["issuer", "lifetimes", "pkce", "refresh", "replay", "sealer"]

/-- Reads a configuration. -/
def ofEntry? (surplus : Surplus) (entry : Entry) : Option Config := do
  let default : Config := {}
  let fields ← entry.section? surplus sectionNames
  pure {
    issuer := ← Entry.setting? fields "issuer" Entry.text? default.issuer
    lifetimes := ← Entry.setting? fields "lifetimes" (Lifetimes.ofEntry? surplus)
      default.lifetimes
    pkce := ← Entry.setting? fields "pkce" (PkcePolicy.ofEntry? surplus) default.pkce
    refresh := ← Entry.setting? fields "refresh" (RefreshPolicy.ofEntry? surplus)
      default.refresh
    replay := ← Entry.setting? fields "replay" (ReplayPolicy.ofEntry? surplus) default.replay
    sealer := ← Entry.setting? fields "sealer" (SealerSettings.ofEntry? surplus)
      default.sealer }

/-- Reads a configuration from a JSON value, without checking that it is sound. -/
def ofJson? (value : Json) : Option Config :=
  ofEntry? .refused (Entry.ofJson value)

/-- Reads a configuration from a TOML file. -/
def ofToml? (text : String) : Option Config := do
  let fields ← Toml.Document.ofText? text
  ofEntry? .ignored (.group (Entry.ofTomlFields fields))

/-- Reads a sound configuration from a TOML file. -/
def load (text : String) : Except ConfigError Config :=
  match ofToml? text with
  | none => .error (.parse "not a configuration document")
  | some config => config.validate.map fun _ => config

/-- A configuration as a JSON value. -/
def toJson (config : Config) : Json :=
  .object [
    ("issuer", .string config.issuer),
    ("lifetimes", .object (config.namedLifetimes.map fun (name, span) =>
      (name, .string span.toText))),
    ("pkce", .object [
      ("force", .bool config.pkce.force),
      ("allow_plain", .bool config.pkce.allowPlain)]),
    ("refresh", .object [
      ("require_offline_access", .bool config.refresh.requireOfflineAccess)]),
    ("replay", .object [
      ("revoke_lineage_on_replay", .bool config.replay.revokeLineageOnReplay)]),
    ("sealer", .object [
      ("key_env", .string config.sealer.keyEnv),
      ("key_id", .string config.sealer.keyId)])]

end Config

end OpaqueTokens
