/-!
# Kinds of tokens and grants

A token is a code, an access token or a refresh token, and says so inside its seal. Two of the
kinds can be redeemed at the token endpoint; a grant of such a kind is a token of the type of
the same name.
-/

namespace OpaqueTokens

/-- The kinds of tokens. -/
inductive TokenType where
  | authorizationCode
  | accessToken
  | refreshToken
  deriving DecidableEq, Repr

namespace TokenType

/-- The name of a type inside a token and in messages. -/
def name : TokenType → String
  | .authorizationCode => "authorization_code"
  | .accessToken => "access_token"
  | .refreshToken => "refresh_token"

/-- The type of a name. -/
def ofName? : String → Option TokenType
  | "authorization_code" => some .authorizationCode
  | "access_token" => some .accessToken
  | "refresh_token" => some .refreshToken
  | _ => none

theorem ofName?_name (type : TokenType) : ofName? type.name = some type := by
  cases type <;> rfl

end TokenType

/-- The kinds of grants that the token endpoint redeems. -/
inductive GrantKind where
  | authorizationCode
  | refreshToken
  deriving DecidableEq, Repr

/-- The grant kind that a request names is not one that can be redeemed. -/
structure UnsupportedGrantKind where
  value : String
  deriving DecidableEq, Repr

def UnsupportedGrantKind.message (e : UnsupportedGrantKind) : String :=
  "Unsupported grant type: " ++ e.value

namespace GrantKind

/-- The type of token that a grant of a kind is. -/
def tokenType : GrantKind → TokenType
  | .authorizationCode => .authorizationCode
  | .refreshToken => .refreshToken

/-- The name of a kind in a request. -/
def name (kind : GrantKind) : String :=
  kind.tokenType.name

/-- The kind of a name. -/
def ofName (text : String) : Except UnsupportedGrantKind GrantKind :=
  match text with
  | "authorization_code" => .ok .authorizationCode
  | "refresh_token" => .ok .refreshToken
  | _ => .error ⟨text⟩

end GrantKind

end OpaqueTokens
