import OpaqueTokens.Config.Basic
import OpaqueTokens.Crypto.Sha256
import OpaqueTokens.Text.Base64

/-!
# Proof keys for code exchange

A client may ask for a code with a challenge and must then redeem it with the verifier behind
the challenge. The challenge is sealed inside the code as the name of its method followed by its
value: the digest of the verifier, or the verifier itself.
-/

namespace OpaqueTokens

/-- Why a challenge or its verifier is refused. -/
inductive PkceError where
  | challengeRequired
  | verifierMissing
  | plainMethodDisallowed
  | unsupportedMethod (name : String)
  | emptyChallenge
  | verificationFailed
  deriving DecidableEq, Repr

namespace PkceError

def message : PkceError → String
  | .challengeRequired => "PKCE is required but the authorization code carries no challenge"
  | .verifierMissing => "code_verifier is required"
  | .plainMethodDisallowed => "The plain code challenge method is not allowed"
  | .unsupportedMethod name => "Unsupported challenge method: " ++ name
  | .emptyChallenge => "code_challenge cannot be empty"
  | .verificationFailed => "PKCE verification failed: verifier does not match challenge"

/-- Whether a verifier was compared and found wrong. -/
def isVerification : PkceError → Bool
  | .verificationFailed => true
  | _ => false

/-- Whether the request itself is at fault. -/
def isInvalidMessage (error : PkceError) : Bool :=
  !error.isVerification

/-- The error code of the protocol. -/
def oauthCode (error : PkceError) : String :=
  if error.isVerification then "invalid_grant" else "invalid_request"

end PkceError

/-- How a challenge is made from its verifier. -/
inductive ChallengeMethod where
  | s256
  | plain
  deriving DecidableEq, Repr

namespace ChallengeMethod

/-- The name of a method in requests and in the stored form. -/
def name : ChallengeMethod → String
  | .s256 => "S256"
  | .plain => "plain"

/-- The method of a name. -/
def ofName (text : String) : Except PkceError ChallengeMethod :=
  match text with
  | "S256" => .ok .s256
  | "plain" => .ok .plain
  | _ => .error (.unsupportedMethod text)

/-- What a verifier comes to under a method: the digest of its bytes as a text, or itself. -/
def challengeOf (method : ChallengeMethod) (verifier : String) : String :=
  match method with
  | .s256 => Text.Base64.encodeUrl (Crypto.Sha256.digest (Text.utf8 verifier))
  | .plain => verifier

end ChallengeMethod

/-- The fresh verifier that random bytes make: their URL-safe text. -/
def verifierOfEntropy (bytes : List UInt8) : String :=
  Text.Base64.encodeUrl bytes

/-- A challenge with its method. -/
@[ext]
structure CodeChallenge where
  method : ChallengeMethod
  value : String
  deriving DecidableEq, Repr

namespace CodeChallenge

/-- The S256 challenge of a verifier. -/
def s256 (verifier : String) : CodeChallenge :=
  ⟨.s256, ChallengeMethod.s256.challengeOf verifier⟩

/-- The challenge that shows its verifier. -/
def plain (verifier : String) : CodeChallenge :=
  ⟨.plain, verifier⟩

/-- The challenge of a request, which is plain unless it names a method. -/
def ofRequest (value : String) (method : Option String) : Except PkceError CodeChallenge :=
  if value = "" then .error .emptyChallenge
  else
    match method with
    | none => .ok ⟨.plain, value⟩
    | some name => (ChallengeMethod.ofName name).map (⟨·, value⟩)

/-- The form that is sealed inside a code. -/
def stored (challenge : CodeChallenge) : String :=
  challenge.method.name ++ challenge.value

/-- What follows a name at the front of a text. -/
def after? (name text : String) : Option String :=
  if name.toList.isPrefixOf text.toList then
    some (String.ofList (text.toList.drop name.toList.length))
  else none

/-- Reads the stored form. -/
def ofStored (text : String) : Except PkceError CodeChallenge :=
  match after? ChallengeMethod.s256.name text with
  | some value => .ok ⟨.s256, value⟩
  | none =>
    match after? ChallengeMethod.plain.name text with
    | some value => .ok ⟨.plain, value⟩
    | none => .error (.unsupportedMethod "unrecognised challenge tag")

/-- Equality of bytes that takes as long for different as for equal bytes of one length. -/
def sameBytes (a b : List UInt8) : Bool :=
  a.length == b.length && (a.zip b).foldl (fun acc p => acc ||| (p.1 ^^^ p.2)) 0 == 0

/-- Accepts the verifier that the challenge was made from. -/
def verify (challenge : CodeChallenge) (verifier : String) : Except PkceError Unit :=
  let computed := challenge.method.challengeOf verifier
  if sameBytes (Text.utf8 computed) (Text.utf8 challenge.value) then .ok ()
  else .error .verificationFailed

end CodeChallenge

/-- Accepts a verifier for the challenge of a code, if any, under a policy. -/
def PkcePolicy.verify (policy : PkcePolicy) (challenge verifier : Option String) :
    Except PkceError Unit :=
  match challenge with
  | none => if policy.force then .error .challengeRequired else .ok ()
  | some text => do
    let challenge ← CodeChallenge.ofStored text
    if challenge.method = .plain ∧ ¬policy.allowPlain then .error .plainMethodDisallowed
    else
      match verifier with
      | none => .error .verifierMissing
      | some verifier => challenge.verify verifier

end OpaqueTokens
