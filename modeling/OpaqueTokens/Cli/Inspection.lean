import OpaqueTokens.Codec

/-!
# Inspecting tokens

A token is read as the type that is asked for, or as whichever type it is of: the types are tried
one after another as long as the token is of another one.
-/

namespace OpaqueTokens.Cli

open Time (Instant)

/-- Why a token cannot be inspected. -/
inductive InspectionError where
  | expired
  | unreadable (error : CodecError)
  /-- There was no type to try. -/
  | untried
  deriving DecidableEq, Repr

namespace InspectionError

def message : InspectionError → String
  | .expired => "token expired"
  | .unreadable error => "Cannot read token: " ++ error.message
  | .untried => "Cannot read token"

/-- What is told before the error. -/
def warning? : InspectionError → Option String
  | .expired => some "The token is sealed correctly but has expired"
  | .unreadable _ | .untried => none

end InspectionError

/-- Reads a token as the first of some types that it is of. Of a token of none of them, the error
about the last type is reported. -/
def inspectAmong (codec : Codec) (clock : Instant) (token : String) (last : InspectionError) :
    List TokenType → Except InspectionError TokenClaims
  | [] => .error last
  | type :: types =>
    match codec.parse clock token type with
    | .ok claims => .ok claims
    | .error error =>
      if error.isTypeMismatch then inspectAmong codec clock token (.unreadable error) types
      else if error = .sealing .expired then .error .expired
      else .error (.unreadable error)

/-- The types to try: the one that is asked for, or all of them. -/
def candidates : Option TokenType → List TokenType
  | some type => [type]
  | none => [.authorizationCode, .accessToken, .refreshToken]

/-- Reads a token as the type that is asked for, or as whichever type it is of. -/
def inspect (codec : Codec) (clock : Instant) (token : String) (type : Option TokenType) :
    Except InspectionError TokenClaims :=
  inspectAmong codec clock token .untried (candidates type)

end OpaqueTokens.Cli
