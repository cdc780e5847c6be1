import Mathlib.Data.Finset.Basic
import Tmis.Core.Security
import Tmis.Lib.PyUuid

/-!
# The authentication guard

`api.auth_guard`, with what it takes from `api.deps`: every request that is not public must carry an
access token whose claims name a principal.
-/

namespace Tmis.Api

open Tmis.Lib Tmis.Core.Security

/-- The identity of a caller; the identifiers are the numbers of UUIDs. -/
structure Principal where
  userId : ℕ
  firmId : ℕ
  role : String
  scopes : Finset String

/-- `claims[key]`. -/
def claim (claims : Claims) (key : String) : Except PyException ClaimValue :=
  match claims.get key with
  | some value => .ok value
  | none => .error (keyError key)

def principalFromClaims (tables : CharTables) (claims : Claims) : Except PyException Principal := do
  let userId ← pyUuid tables (← claim claims "sub").str
  let firmId ← pyUuid tables (← claim claims "firm_id").str
  let scopes ← ((claims.get "scopes").getD (.texts [])).frozenset
  return { userId, firmId, role := ((claims.get "role").getD (.text "")).str, scopes }

/-- What the guard looks at in a request; a request without the header has no `authorization`. -/
structure Request where
  method : String
  path : String
  authorization : Option String := none

/-- `text.partition(" ")`, without the separator. -/
def partitionSpace (text : String) : String × String :=
  (String.ofList (text.toList.takeWhile (· ≠ ' ')),
    String.ofList ((text.toList.dropWhile (· ≠ ' ')).drop 1))

/-- The token of a request, if its header has the scheme `Bearer`.  Headers hold the first 256
characters, none of which but the ASCII letters has a letter of `bearer` as its lower case. -/
def Request.bearer (request : Request) : Option String :=
  let (scheme, token) := partitionSpace (request.authorization.getD "")
  if String.ofList (scheme.toList.map Char.toLower) ≠ "bearer" ∨ token = "" then none else some token

def buildPublicPaths (apiV1Prefix : String) : Finset String :=
  {"/", "/docs", "/redoc", "/openapi.json", apiV1Prefix ++ "/health", apiV1Prefix ++ "/auth/login",
    apiV1Prefix ++ "/auth/refresh", "/platform/health/live", "/platform/health/ready"}

/-- What becomes of a request: it goes on to its handler, with the principal that was found in its
token, if one was needed; or it is answered 401; or an exception leaves the guard. -/
inductive GuardOutcome where
  | forwarded (principal : Option Principal)
  | unauthenticated (detail : String)
  | raised (e : PyException)

structure AuthenticationGuardMiddleware where
  publicPaths : Finset String

namespace AuthenticationGuardMiddleware

variable (guard : AuthenticationGuardMiddleware) (settings : Settings) (jwt : Jwt)
  (tables : CharTables) (now : ℕ)

/-- The request needs no token. -/
def isPublic (request : Request) : Prop :=
  request.method = "OPTIONS" ∨ request.path ∈ guard.publicPaths

instance (request : Request) : Decidable (guard.isPublic request) := by
  unfold isPublic
  infer_instance

/-- The exceptions that the guard answers itself. -/
def answered (e : PyException) : Bool := e.className ∈ ["TokenError", "KeyError", "ValueError"]

/-- `__call__`. -/
def call (request : Request) : GuardOutcome :=
  if guard.isPublic request then .forwarded none
  else match request.bearer with
    | none => .unauthenticated "Authentification requise."
    | some token =>
        match decodeAccessToken settings jwt now token >>= principalFromClaims tables with
        | .ok principal => .forwarded (some principal)
        | .error e =>
            if answered e then .unauthenticated "Authentification requise." else .raised e

end AuthenticationGuardMiddleware

end Tmis.Api
