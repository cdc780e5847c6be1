import Mathlib.Data.Finset.Dedup
import Tmis.Lib.Dict
import Tmis.Lib.Python

/-!
# Tokens

`core.security`: access and refresh tokens.  Signing and verifying them is left to a codec; the claims
in a token say which type it has.
-/

namespace Tmis.Core.Security

open Tmis.Lib

/-- The settings that tokens depend on. -/
structure Settings where
  jwtSecretKey : String := ""
  jwtAlgorithm : String := "HS256"
  jwtIssuer : String := "tmis-api"
  jwtAudience : String := "tmis-clients"
  accessTokenExpireMinutes : ℕ := 15
  refreshTokenExpireDays : ℕ := 7

inductive TokenType where
  | access | refresh

def TokenType.value : TokenType → String
  | access => "access"
  | refresh => "refresh"

/-- The value of a claim: points in time are numbers of seconds. -/
inductive ClaimValue where
  | text (s : String)
  | number (n : ℕ)
  | texts (l : List String)
  deriving DecidableEq

namespace ClaimValue

/-- `str(value)`. -/
def str : ClaimValue → String
  | text s => s
  | number n => toString n
  | texts l => "[" ++ ", ".intercalate (l.map pyRepr) ++ "]"

/-- `frozenset(value)`. -/
def frozenset : ClaimValue → Except PyException (Finset String)
  | text s => .ok (s.toList.map String.singleton).toFinset
  | number _ => .error (typeError "'int' object is not iterable")
  | texts l => .ok l.toFinset

end ClaimValue

abbrev Claims := Dict String ClaimValue

/-- `jose.jwt`.  A token is decoded for a key, the algorithms it may be signed with, its issuer, its
audience, and the time; what is not well signed, is for others or has expired is a `JWTError`. -/
structure Jwt where
  encode : Claims → String → String → String
  decode : String → String → List String → String → String → ℕ → Except PyException Claims

/-- What the codec does with these claims: their token decodes to them, as long as the time they expire
at is not past. -/
structure Jwt.Decodes (jwt : Jwt) (settings : Settings) (claims : Claims) (expiry : ℕ) : Prop where
  encode_ne : jwt.encode claims settings.jwtSecretKey settings.jwtAlgorithm ≠ ""
  decode_ok : ∀ now ≤ expiry,
    jwt.decode (jwt.encode claims settings.jwtSecretKey settings.jwtAlgorithm) settings.jwtSecretKey
      [settings.jwtAlgorithm] settings.jwtIssuer settings.jwtAudience now = .ok claims
  decode_expired : ∀ now > expiry, ∃ e,
    jwt.decode (jwt.encode claims settings.jwtSecretKey settings.jwtAlgorithm) settings.jwtSecretKey
      [settings.jwtAlgorithm] settings.jwtIssuer settings.jwtAudience now = .error e

def tokenError (text : String) : PyException := ⟨"TokenError", text⟩

section Tokens

variable (settings : Settings) (jwt : Jwt) (now : ℕ) (jti subject : String)

/-- The payload of `_create_token`; `jti` is the text of a fresh UUID. -/
def tokenPayload (tokenType : TokenType) (expiresDelta : ℕ) (claims : Claims) : Claims :=
  ((((((((∅ : Claims).set "sub" (.text subject)).set "jti" (.text jti)).set "iat" (.number now)).set
    "exp" (.number (now + expiresDelta))).set "iss" (.text settings.jwtIssuer)).set
    "aud" (.text settings.jwtAudience)).set "token_type" (.text tokenType.value)).update claims

/-- `_create_token`. -/
def createToken (tokenType : TokenType) (expiresDelta : ℕ) (claims : Claims) : String :=
  jwt.encode (tokenPayload settings now jti subject tokenType expiresDelta claims)
    settings.jwtSecretKey settings.jwtAlgorithm

def createAccessToken (claims : Claims := ∅) : String :=
  createToken settings jwt now jti subject .access (60 * settings.accessTokenExpireMinutes) claims

def createRefreshToken (claims : Claims := ∅) : String :=
  createToken settings jwt now jti subject .refresh (86400 * settings.refreshTokenExpireDays) claims

/-- `_decode_token`. -/
def decodeToken (token : String) (expectedType : TokenType) : Except PyException Claims :=
  match jwt.decode token settings.jwtSecretKey [settings.jwtAlgorithm] settings.jwtIssuer
      settings.jwtAudience now with
  | .error _ => .error (tokenError "invalid token")
  | .ok payload =>
      if payload.get "token_type" ≠ some (.text expectedType.value) then
        .error (tokenError ("expected a " ++ expectedType.value ++ " token"))
      else .ok payload

def decodeAccessToken (token : String) : Except PyException Claims :=
  decodeToken settings jwt now token .access

def decodeRefreshToken (token : String) : Except PyException Claims :=
  decodeToken settings jwt now token .refresh

end Tokens

end Tmis.Core.Security
